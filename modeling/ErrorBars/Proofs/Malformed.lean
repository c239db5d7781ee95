import ErrorBars.Proofs.Calculate
import Mathlib.Data.List.TakeWhile
import Mathlib.Tactic.Linarith
import Mathlib.Tactic.Positivity

/-!
# Malformed arguments

A calculation begins with a look at its arguments.  What is wrong with them is found out by a row of
checks, each of which ends the call: the formula is looked at before the variables, the variables in
their order, and of each of them the name before the fields.  Here is said what these checks come to
together, without their order.

* `NoFormula` — a formula is a text that is not blank throughout.
* `BadVariables` — variables are given as a mapping, if at all, and each entry has a name and
  describes a measurement.  `IsMeasurement` goes by the exact values of the two fields.

With listeners that only write into the log, a call fails for its arguments exactly if one of the
two holds, and such a call has not touched anything but the log (`calculate_malformed`).
-/

set_option autoImplicit false

namespace ErrorBars

/-! ## Formulas -/

/-- No formula is given: no text, or a blank one. -/
def NoFormula (expression : Datum) : Prop :=
  ∀ s, expression = .text s → ∀ c ∈ s.toList, Text.isBlank c = true

/-- Nothing is left of a text exactly if it is blank. -/
theorem Text.strip_eq_nil_iff (cs : List Char) : strip cs = [] ↔ ∀ c ∈ cs, isBlank c = true := by
  rw [strip, List.reverse_eq_nil_iff]
  simp only [List.dropWhile_eq_nil_iff]
  refine ⟨fun h => ?_, fun h c hc => ?_⟩
  · -- what is left in front would begin with a character that is not blank
    rw [← List.dropWhile_eq_nil_iff]
    by_contra hne
    have hhead := List.head_dropWhile_not isBlank hne
    rw [h _ (List.mem_reverse.2 (List.head_mem hne))] at hhead
    exact Bool.noConfusion hhead
  · exact h c ((List.dropWhile_sublist _).mem (List.mem_reverse.1 hc))

namespace Propagator

theorem readFormula_text (s : String) :
    readFormula (.text s) = if s.toList.all Text.isBlank = true then .error .noFormula
      else .ok s := by
  simp only [readFormula, List.isEmpty_iff, Text.strip_eq_nil_iff, List.all_eq_true]

/-- A formula is refused exactly if there is none. -/
theorem readFormula_of_noFormula {expression : Datum} (h : NoFormula expression) :
    readFormula expression = .error .noFormula := by
  cases expression with
  | text s => rw [readFormula_text, if_pos (List.all_eq_true.2 (h s rfl))]
  | _ => rfl

theorem readFormula_of_formula {expression : Datum} (h : ¬ NoFormula expression) :
    ∃ s, expression = .text s ∧ readFormula expression = .ok s := by
  rw [NoFormula] at h
  push Not at h
  obtain ⟨s, rfl, c, hc, hblank⟩ := h
  refine ⟨s, rfl, ?_⟩
  rw [readFormula_text, if_neg fun hall => hblank (List.all_eq_true.1 hall c hc)]

end Propagator

/-! ## Measurements -/

/-- A whole number times or over a power of two has its sign. -/
theorem scaled_neg_iff (n e : Int) :
    (if 0 ≤ e then ((n * 2 ^ e.toNat : Int) : Rat) else mkRat n (2 ^ (-e).toNat)) < 0 ↔ n < 0 := by
  split
  · have hpow : (0 : Rat) < 2 ^ e.toNat := by positivity
    rw [Int.cast_mul, Int.cast_pow, Int.cast_ofNat, ← neg_pos, ← neg_mul,
      mul_pos_iff_of_pos_right hpow, neg_pos, Int.cast_lt_zero]
  · have hpow : (0 : Rat) < 2 ^ (-e).toNat := by positivity
    rw [Rat.mkRat_eq_div, Nat.cast_pow, Nat.cast_ofNat, div_lt_iff₀ hpow, zero_mul,
      Int.cast_lt_zero]

/-- The sign of a double is that of its exact value. -/
theorem Double.isNegative_iff {x : Double} {q : Rat} (h : x.toRat? = some q) :
    x.isNegative = true ↔ q < 0 := by
  cases x with
  | nan => cases h
  | infinite s => cases h
  | finite s m e _ =>
    simp only [toRat?, Option.some.injEq] at h
    rw [← h, scaled_neg_iff, isNegative]
    cases s <;> simp [Nat.pos_iff_ne_zero]

namespace Datum

/-- The exact value of a datum that is a finite real number; a truth value is no number. -/
def exactValue? : Datum → Option Rat
  | .number (.int n) => some n
  | .number (.fraction q) => some q
  | .number (.float x) => x.toRat?
  | _ => Option.none

/-- A datum that is not a number too large for a double. -/
def Fits (d : Datum) : Prop := ∀ x, d = .number x → x.toDouble? ≠ Option.none

theorem fits_number {x : Number} (h : x.toDouble?.isSome = true) : (Datum.number x).Fits := by
  rintro _ ⟨rfl⟩
  exact Option.isSome_iff_ne_none.1 h

/-- A datum that can be the name of a variable. -/
def IsName (d : Datum) : Prop := ∃ s, d = .text s ∧ s ≠ "" ∧ s ∉ reservedWords

/-- A datum that describes a measurement: its fields are finite numbers, and the error is not below
zero. -/
def IsMeasurement (d : Datum) : Prop :=
  ∃ v e value error, Measurement.fields? d = some (v, e) ∧ exactValue? v = some value ∧
    exactValue? e = some error ∧ 0 ≤ error

end Datum

/-- Variables that are neither left out nor a mapping, or have an entry without a name or without a
measurement. -/
def BadVariables (inputs : Datum) : Prop :=
  inputs ≠ .none ∧ ∀ entries, inputs = .mapping entries →
    ∃ entry ∈ entries, ¬ (entry.1.IsName ∧ entry.2.IsMeasurement)

/-- Variables whose fields are not too large for doubles. -/
def FittingVariables (inputs : Datum) : Prop :=
  ∀ entries, inputs = .mapping entries → ∀ entry ∈ entries, ∀ v e,
    Measurement.fields? entry.2 = some (v, e) → v.Fits ∧ e.Fits

namespace Measurement

open Datum

/-- A field is a finite number exactly if it has an exact value. -/
theorem finite?_eq {d : Datum} (h : d.Fits) :
    ∃ x, finite? d = .ok x ∧ (x.isSome ↔ ∃ q, exactValue? d = some q) := by
  rcases d with _ | _ | (n | q | x) | _ | _ | _ | _ | _ | _ | _ | _
  case number.int =>
    cases hx : Double.ofInt? n with
    | none => exact absurd hx (h _ rfl)
    | some y => exact ⟨some y, by simp [finite?, Number.toDouble?, hx], by simp [exactValue?]⟩
  case number.fraction =>
    cases hx : Double.ofRat? q with
    | none => exact absurd hx (h _ rfl)
    | some y => exact ⟨some y, by simp [finite?, Number.toDouble?, hx], by simp [exactValue?]⟩
  case number.float =>
    refine ⟨_, rfl, ?_⟩
    cases x <;> simp [Double.isFinite, exactValue?, Double.toRat?]
  all_goals exact ⟨none, rfl, by simp [exactValue?]⟩

theorem isNegative_iff {d : Datum} {q : Rat} (h : exactValue? d = some q) :
    isNegative d = true ↔ q < 0 := by
  rcases d with _ | _ | (n | p | x) | _ | _ | _ | _ | _ | _ | _ | _
  case number.int =>
    cases h
    simp [isNegative, Number.isNegative, Int.cast_lt_zero]
  case number.fraction =>
    cases h
    simp [isNegative, Number.isNegative]
  case number.float => exact Double.isNegative_iff h
  all_goals cases h

/-- Two fields make a measurement exactly if both have exact values and that of the error is not
below zero. -/
theorem ofFields_eq {v e : Datum} (hv : v.Fits) (he : e.Fits) :
    ∃ r, ofFields v e = .ok r ∧
      ((∃ m, r = .ok m) ↔ ∃ value error, exactValue? v = some value ∧ exactValue? e = some error ∧
        0 ≤ error) := by
  obtain ⟨x, hx, hvalue⟩ := finite?_eq hv
  obtain ⟨y, hy, herror⟩ := finite?_eq he
  cases x with
  | none =>
    refine ⟨.error (.value v), by rw [ofFields, hx]; rfl, by simp, ?_⟩
    rintro ⟨value, _, h, -⟩
    exact absurd (hvalue.2 ⟨value, h⟩) (by simp)
  | some x =>
    cases y with
    | none =>
      refine ⟨.error (.error e), by rw [ofFields, hx]; simp only [bind, Except.bind, hy]; rfl,
        by simp, ?_⟩
      rintro ⟨_, error, -, h, -⟩
      exact absurd (herror.2 ⟨error, h⟩) (by simp)
    | some y =>
      obtain ⟨value, hvalue⟩ := hvalue.1 rfl
      obtain ⟨error, herror⟩ := herror.1 rfl
      refine ⟨if isNegative e then .error (.negative e) else .ok ⟨x, y⟩,
        by rw [ofFields, hx]; simp only [bind, Except.bind, hy]; rfl, ?_⟩
      have hsign := isNegative_iff herror
      by_cases hneg : isNegative e = true
      · rw [if_pos hneg]
        simp [hvalue, herror, hsign.1 hneg]
      · rw [if_neg hneg]
        simp [hvalue, herror, not_lt.1 fun h => hneg (hsign.2 h)]

theorem check_of_fields {d v e : Datum} (h : fields? d = some (v, e)) :
    check d = ofFields v e := by
  cases d with
  | none | bool _ | text _ | number _ => cases h
  | _ => simp only [check, h]

theorem check_of_noFields {d : Datum} (h : fields? d = Option.none) :
    ∃ flaw, check d = .ok (.error flaw) := by
  cases d with
  | none | bool _ | text _ | number _ => exact ⟨_, rfl⟩
  | _ => exact ⟨.incomplete, by simp only [check, h]⟩

theorem isMeasurement_of_fields {d v e : Datum} (h : fields? d = some (v, e)) :
    d.IsMeasurement ↔ ∃ value error, exactValue? v = some value ∧ exactValue? e = some error ∧
      0 ≤ error := by
  refine ⟨?_, fun ⟨value, error, hall⟩ => ⟨v, e, value, error, h, hall⟩⟩
  rintro ⟨v', e', value, error, h', hall⟩
  rw [h] at h'
  cases h'
  exact ⟨value, error, hall⟩

/-- A datum is taken for a measurement exactly if it describes one. -/
theorem check_eq {d : Datum} (h : ∀ v e, fields? d = some (v, e) → v.Fits ∧ e.Fits) :
    ∃ r, check d = .ok r ∧ ((∃ m, r = .ok m) ↔ d.IsMeasurement) := by
  cases hfields : fields? d with
  | none =>
    obtain ⟨flaw, hcheck⟩ := check_of_noFields hfields
    refine ⟨.error flaw, hcheck, by simp, ?_⟩
    rintro ⟨v, e, _, _, hsome, -⟩
    rw [hfields] at hsome
    cases hsome
  | some p =>
    obtain ⟨v, e⟩ := p
    obtain ⟨hv, he⟩ := h v e hfields
    rw [check_of_fields hfields, isMeasurement_of_fields hfields]
    exact ofFields_eq hv he

/-- Fields that make a measurement are finite numbers, the second of which is not below zero. -/
theorem ofFields_eq_ok {v e : Datum} {m : Measurement} (h : ofFields v e = .ok (.ok m)) :
    finite? v = .ok (some m.value) ∧ finite? e = .ok (some m.error) ∧ isNegative e = false := by
  rw [ofFields] at h
  rcases hv : finite? v with _ | (_ | x) <;> rw [hv] at h
  case ok.some =>
    rcases he : finite? e with _ | (_ | y)
    all_goals simp only [bind, Except.bind, he] at h
    case ok.some =>
      split at h
      · cases h
      · rename_i hsign
        cases h
        exact ⟨rfl, rfl, Bool.not_eq_true _ ▸ hsign⟩
    all_goals cases h
  all_goals cases h

/-- A measurement that is accepted consists of two finite numbers, the second of which is not below
zero. -/
theorem check_eq_ok {d : Datum} {m : Measurement} (h : check d = .ok (.ok m)) :
    ∃ v e, fields? d = some (v, e) ∧ finite? v = .ok (some m.value) ∧
      finite? e = .ok (some m.error) ∧ isNegative e = false := by
  rcases hf : fields? d with _ | ⟨v, e⟩
  · obtain ⟨flaw, hflaw⟩ := check_of_noFields hf
    rw [hflaw] at h
    cases h
  · rw [check_of_fields hf] at h
    exact ⟨v, e, rfl, ofFields_eq_ok h⟩

end Measurement

/-! ## Variables -/

theorem readName_eq (d : Datum) : (∃ name, readName d = .ok name) ↔ d.IsName := by
  cases d with
  | text s =>
    simp only [readName, Datum.IsName, Datum.text.injEq, exists_eq_left']
    by_cases hempty : s = ""
    · simp [hempty]
    · by_cases hreserved : s ∈ reservedWords <;> simp [hempty, hreserved]
  | _ => simp [readName, Datum.IsName]

theorem readVariable_eq {key entry : Datum}
    (h : ∀ v e, Measurement.fields? entry = some (v, e) → v.Fits ∧ e.Fits) :
    (∃ v, readVariable key entry = .ok v ∧ key.IsName ∧ entry.IsMeasurement) ∨
      ∃ fault, readVariable key entry = .error (.input fault) ∧
        ¬ (key.IsName ∧ entry.IsMeasurement) := by
  have hname := readName_eq key
  obtain ⟨r, hr, hentry⟩ := Measurement.check_eq h
  rw [readVariable]
  cases hkey : readName key with
  | error fault =>
    refine .inr ⟨fault, rfl, fun hgood => ?_⟩
    obtain ⟨name, hok⟩ := hname.2 hgood.1
    rw [hkey] at hok
    cases hok
  | ok name =>
    simp only [hr]
    cases r with
    | error flaw =>
      refine .inr ⟨_, rfl, fun hgood => ?_⟩
      obtain ⟨m, hok⟩ := hentry.2 hgood.2
      cases hok
    | ok m => exact .inl ⟨_, rfl, hname.1 ⟨name, hkey⟩, hentry.1 ⟨m, rfl⟩⟩

/-- Entries are read exactly if each of them is good. -/
theorem readEntries_eq {entries : List (Datum × Datum)}
    (h : ∀ entry ∈ entries, ∀ v e,
      Measurement.fields? entry.2 = some (v, e) → v.Fits ∧ e.Fits) :
    (∃ vs, readEntries entries = .ok vs ∧
        ∀ entry ∈ entries, entry.1.IsName ∧ entry.2.IsMeasurement) ∨
      ∃ fault, readEntries entries = .error (.input fault) ∧
        ∃ entry ∈ entries, ¬ (entry.1.IsName ∧ entry.2.IsMeasurement) := by
  induction entries with
  | nil => exact .inl ⟨[], rfl, by simp⟩
  | cons entry entries ih =>
    obtain ⟨key, entry⟩ := entry
    have hfirst := @readVariable_eq key entry (h (key, entry) List.mem_cons_self)
    have hrest := ih fun other hmem => h other (List.mem_cons_of_mem _ hmem)
    rw [readEntries]
    rcases hfirst with ⟨v, hv, hgood⟩ | ⟨fault, hv, hbad⟩
    · rcases hrest with ⟨vs, hvs, hall⟩ | ⟨fault, hvs, other, hmem, hbad⟩
      · refine .inl ⟨v :: vs, by rw [hv, hvs]; rfl, ?_⟩
        rintro other (_ | ⟨_, hmem⟩)
        · exact hgood
        · exact hall other hmem
      · exact .inr ⟨fault, by rw [hv, hvs]; rfl, other, List.mem_cons_of_mem _ hmem, hbad⟩
    · exact .inr ⟨fault, by rw [hv]; rfl, (key, entry), List.mem_cons_self, hbad⟩

theorem of_readVariable {P : Measurement → Prop}
    (hcheck : ∀ d m, Measurement.check d = .ok (.ok m) → P m) {key entry : Datum}
    {v : String × Measurement} (h : readVariable key entry = .ok v) : P v.2 := by
  rw [readVariable] at h
  split at h
  · cases h
  · split at h
    · cases h
    · cases h
    · rename_i hm
      cases h
      exact hcheck _ _ hm

theorem of_readEntries {P : Measurement → Prop}
    (hcheck : ∀ d m, Measurement.check d = .ok (.ok m) → P m) {entries : List (Datum × Datum)}
    {vs : Variables} (h : readEntries entries = .ok vs) : ∀ v ∈ vs, P v.2 := by
  induction entries generalizing vs with
  | nil =>
    cases h
    exact fun v hv => absurd hv List.not_mem_nil
  | cons entry entries ih =>
    rw [readEntries] at h
    cases hv : readVariable entry.1 entry.2 with
    | error fault =>
      rw [hv] at h
      cases h
    | ok v =>
      rw [hv] at h
      cases hrest : readEntries entries with
      | error fault =>
        rw [hrest] at h
        cases h
      | ok rest =>
        rw [hrest] at h
        cases h
        exact List.forall_mem_cons.2 ⟨of_readVariable hcheck hv, ih hrest⟩

/-- What holds of every measurement that is accepted holds of those of all variables. -/
theorem of_readVariables {P : Measurement → Prop}
    (hcheck : ∀ d m, Measurement.check d = .ok (.ok m) → P m) {inputs : Datum} {vs : Variables}
    (h : readVariables inputs = .ok vs) : ∀ v ∈ vs, P v.2 := by
  cases inputs with
  | none =>
    cases h
    exact fun v hv => absurd hv List.not_mem_nil
  | mapping entries => exact of_readEntries hcheck h
  | _ => cases h

/-- Variables are refused exactly if something is wrong with them. -/
theorem readVariables_eq {inputs : Datum} (fits : FittingVariables inputs) :
    (∃ vs, readVariables inputs = .ok vs ∧ ¬ BadVariables inputs) ∨
      ∃ fault, readVariables inputs = .error (.input fault) ∧ BadVariables inputs := by
  cases inputs with
  | none => exact .inl ⟨[], rfl, fun h => h.1 rfl⟩
  | mapping entries =>
    rcases readEntries_eq (fits entries rfl) with ⟨vs, hvs, hall⟩ | ⟨fault, hvs, hbad⟩
    · refine .inl ⟨vs, hvs, fun h => ?_⟩
      obtain ⟨entry, hmem, hbad⟩ := h.2 entries rfl
      exact hbad (hall entry hmem)
    · exact .inr ⟨fault, hvs, by simp, by rintro _ ⟨rfl⟩; exact hbad⟩
  | _ => exact .inr ⟨_, rfl, by simp, by simp⟩

/-! ## Listeners that only record -/

namespace Propagator

open Watched

variable {ε : Type}

/-- Events that are handed over leave nothing but entries in the log. -/
def OnlyRecords (emit : Event → Call ε Unit) : Prop :=
  ∀ event s, ∃ entries, emit event s = (.ok (), { s with log := s.log ++ entries })

/-- With such listeners the answer and the reports are those that the arguments determine. -/
theorem OnlyRecords.calculate {emit : Event → Call ε Unit} (records : OnlyRecords emit)
    (mode : Correlation) (expression inputs : Datum) (s : CallState ε) :
    emissions emit mode expression inputs s = (reports mode expression inputs).map told ∧
      (calculate emit mode expression inputs s).1 = reference mode expression inputs := by
  refine emissions_calculate ((quiet_or_fails emit mode expression inputs s).resolve_right ?_)
  rintro ⟨event, t, fault, hfault, -⟩
  obtain ⟨entries, hok⟩ := records event t
  rw [hok] at hfault
  cases hfault

theorem OnlyRecords.forM {α : Type} {f : α → Call ε Unit} (xs : List α)
    (h : ∀ x ∈ xs, ∀ s, ∃ entries, f x s = (.ok (), { s with log := s.log ++ entries })) :
    ∀ s, ∃ entries, xs.forM f s = (.ok (), { s with log := s.log ++ entries }) := by
  induction xs with
  | nil => exact fun s => ⟨[], by rw [List.append_nil]; rfl⟩
  | cons x xs ih =>
    intro s
    obtain ⟨first, hfirst⟩ := h x List.mem_cons_self s
    obtain ⟨rest, hrest⟩ := ih (fun y hy => h y (List.mem_cons_of_mem _ hy))
      { s with log := s.log ++ first }
    refine ⟨first ++ rest, ?_⟩
    show (f x >>= fun _ => xs.forM f) s = _
    rw [Call.bind_ok hfirst, hrest, List.append_assoc]

/-- Listeners that write no text, and whose programs only count the registry. -/
def Counting (programs : Programs) : Prop :=
  programs.writesText = false ∧ ∀ listener, ∀ r ∈ programs.reactions listener, r = .count

theorem onlyRecords_announce (nested : Request → Session.Action Unit) {programs : Programs}
    (h : Counting programs) : OnlyRecords (Session.announce nested programs) := by
  intro event s
  rw [Session.announce, Call.bind_ok (Call.get_apply s)]
  refine OnlyRecords.forM _ (fun listener _ t => ?_) s
  have hcount : ∀ r ∈ programs.reactions listener, ∀ u, ∃ entries,
      Session.react nested listener r u = (.ok (), { u with log := u.log ++ entries }) := by
    intro r hr u
    rw [h.2 listener r hr]
    exact ⟨[.counted listener u.registry.length], rfl⟩
  obtain ⟨entries, hentries⟩ := OnlyRecords.forM _ hcount
    { t with log := t.log ++ [.told listener event] }
  refine ⟨.told listener event :: entries, ?_⟩
  have hrecord : Session.record (.told listener event) t =
      (.ok (), { t with log := t.log ++ [.told listener event] }) := rfl
  simp only [Session.tell, h.1, Bool.false_and, Bool.false_eq_true, if_false]
  rw [Call.bind_ok hrecord, hentries, List.append_assoc]
  rfl

theorem onlyRecords_emitAt {programs : Programs} (h : Counting programs) (mode : Correlation)
    (depth : Nat) : OnlyRecords (Session.emitAt programs mode depth) := by
  cases depth <;> exact onlyRecords_announce _ h

/-! ## Calculations -/

/-- A fault that is not about the arguments. -/
def Late (fault : CallFault) : Prop := ∀ reason, fault ≠ .input reason

/-- Once the arguments have been read, no fault is about them. -/
theorem late_of_setting {source : String} {vs : Variables} {fault : CallFault}
    (h : setting source vs = .error fault) : Late fault := by
  rw [setting] at h
  split at h
  · cases h
    exact fun _ h => CallFault.noConfusion h
  · split at h
    · cases h
    · cases h
      exact fun _ h => CallFault.noConfusion h

theorem late_of_slopeAt {S : Setting} {name : String} {fault : CallFault}
    (h : S.slopeAt name = .error fault) : Late fault := by
  rw [Setting.slopeAt] at h
  split at h
  · cases h
    exact fun _ h => CallFault.noConfusion h
  · split at h
    · cases h
    · cases h
      exact fun _ h => CallFault.noConfusion h

theorem late_of_surveyed {S : Setting} {names : List String} {fault : CallFault}
    (h : surveyed S names = .error fault) : Late fault := by
  rw [surveyed] at h
  split at h
  · cases h
  · rename_i hs
    cases h
    obtain ⟨name, -, hname⟩ := S.survey_fault (show (S.survey names).2 = some _ by rw [hs])
    exact late_of_slopeAt hname

/-- The fault of a conclusion is about what the formula comes to. -/
theorem late_of_conclusion {mode : Correlation} {S : Setting} {fault : CallFault}
    (h : conclusion mode S = .error fault) : Late fault := by
  rw [conclusion, expansion] at h
  cases hds : surveyed S S.names with
  | error other =>
    rw [hds] at h
    cases h
    exact late_of_surveyed hds
  | ok ds =>
    obtain ⟨error, htotal⟩ := totalError_map_term mode ds
    rw [hds, Setting.value] at h
    cases he : S.formula.evaluate S.point with
    | error reason =>
      rw [he] at h
      cases h
      exact fun _ h => CallFault.noConfusion h
    | ok value =>
      simp only [he, Except.mapError, bind, Except.bind, pure, Except.pure, htotal,
        reduceCtorEq] at h

theorem opening_of_noFormula {expression : Datum} (h : NoFormula expression) (inputs : Datum) :
    opening expression inputs = .error (.input .noFormula) := by
  rw [opening, readFormula_of_noFormula h]
  rfl

/-- Bad variables have one fault with all formulas. -/
theorem opening_of_badVariables {inputs : Datum} (fits : FittingVariables inputs)
    (h : BadVariables inputs) :
    ∃ fault, ∀ expression, ¬ NoFormula expression →
      opening expression inputs = .error (.input fault) := by
  rcases readVariables_eq fits with ⟨vs, -, hgood⟩ | ⟨fault, hvs, -⟩
  · exact absurd h hgood
  · refine ⟨fault, fun expression hformula => ?_⟩
    obtain ⟨s, -, hs⟩ := readFormula_of_formula hformula
    rw [opening, hs, hvs]
    rfl

theorem opening_of_malformed {expression inputs : Datum} (fits : FittingVariables inputs)
    (h : NoFormula expression ∨ BadVariables inputs) :
    ∃ fault, opening expression inputs = .error (.input fault) := by
  by_cases hformula : NoFormula expression
  · exact ⟨_, opening_of_noFormula hformula inputs⟩
  · obtain ⟨fault, hopen⟩ := opening_of_badVariables fits (h.resolve_left hformula)
    exact ⟨fault, hopen expression hformula⟩

/-- Where the opening comes down to the setting, whatever fails is not about the arguments. -/
theorem late_of_opening {mode : Correlation} {expression inputs : Datum} {source : String}
    {vs : Variables} {fault : CallFault} (hopen : opening expression inputs = setting source vs)
    (h : reference mode expression inputs = .error fault) : Late fault := by
  cases hS : setting source vs with
  | error other =>
    rw [reference_eq_error mode (hopen.trans hS)] at h
    cases h
    exact late_of_setting hS
  | ok S =>
    rw [reference_eq_conclusion mode (hopen.trans hS)] at h
    exact late_of_conclusion h

/-- With good arguments, whatever fails is not about them. -/
theorem late_of_reference {mode : Correlation} {expression inputs : Datum} {fault : CallFault}
    (fits : FittingVariables inputs) (good : ¬ (NoFormula expression ∨ BadVariables inputs))
    (h : reference mode expression inputs = .error fault) : Late fault := by
  obtain ⟨s, -, hs⟩ := readFormula_of_formula fun hno => good (.inl hno)
  rcases readVariables_eq fits with ⟨vs, hvs, -⟩ | ⟨_, -, hbad⟩
  · have hopen : opening expression inputs = setting s vs := by
      rw [opening, hs, hvs]
      rfl
    exact late_of_opening hopen h
  · exact absurd (.inr hbad) good

/-- A call that fails for its arguments does nothing but tell the listeners of them. -/
theorem calculate_of_malformed {emit : Event → Call ε Unit} (mode : Correlation)
    {expression inputs : Datum} {s t : CallState ε} (fits : FittingVariables inputs)
    (h : NoFormula expression ∨ BadVariables inputs)
    (htold : emit (.input expression inputs) s = (.ok (), t)) :
    (calculate emit mode expression inputs s).2 = t := by
  rw [calculate, Call.bind_ok htold]
  by_cases hformula : NoFormula expression
  · rw [readFormula_of_noFormula hformula]
    rfl
  · obtain ⟨s, -, hs⟩ := readFormula_of_formula hformula
    rcases readVariables_eq fits with ⟨vs, -, hgood⟩ | ⟨fault, hvs, -⟩
    · exact absurd (h.resolve_left hformula) hgood
    · rw [hs]
      simp only [hvs]
      rfl

/-- Listeners that count the registry. -/
def clerks : Programs := ⟨fun _ => [.count], false⟩

theorem clerks_counting : Counting clerks := ⟨rfl, fun _ _ h => List.mem_singleton.1 h⟩

/-- A measurement under a reserved word, and one with an error below zero. -/
def careless : Datum :=
  .mapping [(.text "lambda", .measurement (.number (.int 1)) (.number (.fraction (1 / 2)))),
    (.text "x", .measurement (.number (.int 1)) (.number (.int (-1))))]

theorem careless_fitting : FittingVariables careless := by
  rintro entries ⟨rfl⟩ entry hmem v e hfields
  simp only [List.mem_cons, List.not_mem_nil, or_false] at hmem
  rcases hmem with rfl | rfl <;> cases hfields
  · exact ⟨Datum.fits_number (by decide), Datum.fits_number (by decide +kernel)⟩
  · exact ⟨Datum.fits_number (by decide), Datum.fits_number (by decide)⟩

end Propagator
end ErrorBars
