import ErrorBars.Proofs.Quadrature

/-!
# Entries and the variables that are read from them

An entry gives a value and an error in one of four forms: as a mapping, as a measurement, as an
object with two attributes, or as an uncertain number (`Datum.Gives`).  The verdict on an entry
depends on these two data alone, and not on the form; it says whether both are finite numbers and
the error is not below zero, and comes with either a measurement or a reason (`validate_entry`).

Variables are read item by item, up to the first that is at fault.  What is wrong with an item is
said by `Offends`, its name coming before its entry.  The items in front of it have to be good, and
those behind it have no part in the fault (`readVariables_items`).
-/

set_option autoImplicit false

namespace ErrorBars

/-! ## Forms -/

/-- The entry gives this value and this error. -/
inductive Datum.Gives : Datum → Datum → Datum → Prop where
  /-- a mapping, whatever other keys it has -/
  | mapping {entries : List (Datum × Datum)} {value error : Datum}
      (hvalue : lookup "value" entries = some value)
      (herror : lookup "error" entries = some error) : Gives (.mapping entries) value error
  /-- a measurement -/
  | measurement (value error : Datum) : Gives (.measurement value error) value error
  /-- an object, whatever other attributes it has -/
  | record {fields : List (String × Datum)} {value error : Datum}
      (hvalue : fields.lookup "value" = some value)
      (herror : fields.lookup "error" = some error) : Gives (.record fields) value error
  /-- an uncertain number, whose two numbers are doubles -/
  | uncertain (x y : Double) : Gives (.uncertain x y) (.number (.float x)) (.number (.float y))

theorem Datum.gives_iff {entry value error : Datum} :
    entry.Gives value error ↔ Measurement.fields? entry = some (value, error) := by
  constructor
  · rintro (⟨hvalue, herror⟩ | _ | ⟨hvalue, herror⟩ | _)
    · simp only [Measurement.fields?, hvalue, herror]
    · rfl
    · simp only [Measurement.fields?, hvalue, herror]
    · rfl
  · intro h
    cases entry with
    | mapping entries =>
      simp only [Measurement.fields?] at h
      split at h
      · rename_i hvalue herror
        cases h
        exact .mapping hvalue herror
      · cases h
    | record fields =>
      simp only [Measurement.fields?] at h
      split at h
      · rename_i hvalue herror
        cases h
        exact .record hvalue herror
      · cases h
    | measurement =>
      cases h
      exact .measurement _ _
    | uncertain =>
      cases h
      exact .uncertain _ _
    | _ => cases h

/-! ## Verdicts -/

namespace Measurement

theorem validate_of_check {entry : Datum} {r : Except Flaw Measurement} (h : check entry = .ok r) :
    validate entry = .ok (Validation.ofChecked r) := by
  rw [validate, h]
  rfl

theorem validate_eq_ok {entry : Datum} {m : Measurement} :
    validate entry = .ok (.ok m) ↔ check entry = .ok (.ok m) := by
  refine ⟨fun h => ?_, validate_of_check⟩
  rcases hr : check entry with _ | (flaw | n) <;> rw [validate, hr] at h
  case ok.ok =>
    -- the verdict holds the measurement
    have hm : Validation.ok n = .ok m := Except.ok.inj h
    rw [Option.some.inj (congrArg Validation.measurement hm)]
  all_goals cases h

/-- Entries that give the same data have the same verdict. -/
theorem validate_of_gives {entry other value error : Datum} (h : entry.Gives value error)
    (hother : other.Gives value error) : validate other = validate entry := by
  rw [validate, validate, check_of_fields (Datum.gives_iff.1 h),
    check_of_fields (Datum.gives_iff.1 hother)]

/-- A measurement that is accepted has the two numbers of its entry as doubles. -/
theorem gives_of_check {entry : Datum} {m : Measurement} (h : check entry = .ok (.ok m)) :
    ∃ x y, entry.Gives (.number x) (.number y) ∧ x.toDouble? = some m.value ∧
      y.toDouble? = some m.error ∧ m.value.isFinite = true ∧ m.error.isFinite = true ∧
      0 ≤ m.error.value := by
  have hsign := isNegative_of_check h
  obtain ⟨v, e, hfields, hv, he, -⟩ := check_eq_ok h
  obtain ⟨x, rfl, hx⟩ := toDouble?_of_finite? hv
  obtain ⟨y, rfl, hy⟩ := toDouble?_of_finite? he
  exact ⟨x, y, Datum.gives_iff.2 hfields, hx, hy, isFinite_of_finite? hv, isFinite_of_finite? he,
    Double.value_nonneg hsign⟩

end Measurement

/-- What a verdict says about an entry. -/
structure Validation.Judges (verdict : Validation) (entry : Datum) : Prop where
  /-- valid is what gives two finite numbers of which the error is not below zero -/
  valid_iff : verdict.valid = true ↔ ∃ v e value error, entry.Gives v e ∧
    v.exactValue? = some value ∧ e.exactValue? = some error ∧ 0 ≤ error
  /-- a valid entry has no reason against it and a measurement, which consists of the two numbers as
  doubles -/
  accepted : verdict.valid = true → verdict.reason = none ∧
    ∃ x y m, entry.Gives (.number x) (.number y) ∧ verdict.measurement = some m ∧
      x.toDouble? = some m.value ∧ y.toDouble? = some m.error ∧
      m.value.isFinite = true ∧ m.error.isFinite = true ∧ 0 ≤ m.error.value
  /-- any other has a reason and no measurement -/
  refused : verdict.valid = false →
    verdict.measurement = none ∧ ∃ reason, verdict.reason = some reason

theorem Validation.judges_of_check {entry : Datum} {r : Except Flaw Measurement}
    (h : Measurement.check entry = .ok r) (hr : (∃ m, r = .ok m) ↔ entry.IsMeasurement) :
    (ofChecked r).Judges entry := by
  have hgives : entry.IsMeasurement ↔ ∃ v e value error, entry.Gives v e ∧
      v.exactValue? = some value ∧ e.exactValue? = some error ∧ 0 ≤ error := by
    simp only [Datum.IsMeasurement, Datum.gives_iff]
  rw [hgives] at hr
  cases r with
  | error flaw => exact ⟨by simpa [ofChecked, invalid] using hr, nofun, fun _ => ⟨rfl, _, rfl⟩⟩
  | ok m =>
    obtain ⟨x, y, hxy, hm⟩ := Measurement.gives_of_check h
    exact ⟨by simpa [ofChecked, ok] using hr, fun _ => ⟨rfl, x, y, m, hxy, rfl, hm⟩, nofun⟩

/-- A mapping with a note beside a whole number and a fraction. -/
def annotated : Datum :=
  .mapping [(.text "note", .text "late"), (.text "value", .number (.int 3)),
    (.text "error", .number (.fraction (1 / 2)))]

theorem annotated_gives {v e : Datum} (h : annotated.Gives v e) :
    v = .number (.int 3) ∧ e = .number (.fraction (1 / 2)) := by
  have hfields := Datum.gives_iff.1 h
  rw [annotated, Measurement.fields?] at hfields
  simpa [Datum.lookup, eq_comm] using hfields

theorem annotated_fits (v e : Datum) (h : annotated.Gives v e) : v.Fits ∧ e.Fits := by
  obtain ⟨rfl, rfl⟩ := annotated_gives h
  exact ⟨Datum.fits_number (by decide +kernel), Datum.fits_number (by decide +kernel)⟩

theorem annotated_valid : ∃ m, Measurement.validate annotated = .ok (.ok m) :=
  ⟨⟨(Double.ofInt? 3).getD .nan, (Double.ofRat? (1 / 2)).getD .nan⟩, by decide +kernel⟩

/-- An item that is read as this variable: its key is the name, and the measurement is the one that
the entry has by itself. -/
structure ReadAs (item : Datum × Datum) (v : String × Measurement) : Prop where
  /-- the key can be a name -/
  isName : item.1.IsName
  /-- it is the name of the variable -/
  name_eq : item.1 = .text v.1
  /-- the entry is valid, with this measurement -/
  validate_eq : Measurement.validate item.2 = .ok (.ok v.2)

/-- What is wrong with an item, the name coming before the entry. -/
inductive Offends (key entry : Datum) : InputFault → Prop where
  /-- the key is no text, or is empty -/
  | badName (h : ∀ s, key = .text s → s = "") : Offends key entry (.badName key)
  /-- the key is reserved -/
  | reservedName {s : String} (hkey : key = .text s) (h : s ∈ reservedWords) :
      Offends key entry (.reservedName s)
  /-- the key can be a name, but the entry is not valid -/
  | badVariable {s : String} {flaw : Flaw} (hkey : key = .text s) (hname : key.IsName)
      (h : Measurement.check entry = .ok (.error flaw)) : Offends key entry (.badVariable s flaw)

theorem readName_of_isName {s : String} (h : (Datum.text s).IsName) :
    readName (.text s) = .ok s := by
  obtain ⟨_, ⟨rfl⟩, hne, hfree⟩ := h
  simp [readName, hne, hfree]

theorem readVariable_of_readAs {item : Datum × Datum} {v : String × Measurement}
    (h : ReadAs item v) : readVariable item.1 item.2 = .ok v := by
  have hname := h.isName
  rw [h.name_eq] at hname ⊢
  simp only [readVariable, readName_of_isName hname, Measurement.validate_eq_ok.1 h.validate_eq]

theorem readVariable_of_offends {key entry : Datum} {reason : InputFault}
    (h : Offends key entry reason) : readVariable key entry = .error (.input reason) := by
  cases h with
  | badName h =>
    have hname : readName key = .error (.badName key) := by
      cases key with
      | text s => rw [h s rfl]; rfl
      | _ => rfl
    rw [readVariable, hname]
  | @reservedName s hkey hmem =>
    -- no reserved word is empty, so that nothing else is wrong with the name
    have hne : s ≠ "" := by
      rintro rfl
      exact absurd hmem (by decide +kernel)
    simp [readVariable, readName, hkey, hne, hmem]
  | badVariable hkey hname hcheck =>
    rw [hkey] at hname ⊢
    simp only [readVariable, readName_of_isName hname, hcheck]

/-- An item is read as a variable, or something is wrong with it. -/
theorem readAs_or_offends {key entry : Datum}
    (fits : ∀ v e, Measurement.fields? entry = some (v, e) → v.Fits ∧ e.Fits) :
    (∃ v, ReadAs (key, entry) v) ∨ ∃ reason, Offends key entry reason := by
  by_cases hempty : ∀ s, key = .text s → s = ""
  · exact .inr ⟨_, .badName hempty⟩
  push Not at hempty
  obtain ⟨s, hkey, hne⟩ := hempty
  by_cases hreserved : s ∈ reservedWords
  · exact .inr ⟨_, .reservedName hkey hreserved⟩
  have hname : key.IsName := ⟨s, hkey, hne, hreserved⟩
  obtain ⟨flaw | m, hcheck, -⟩ := Measurement.check_eq fits
  · exact .inr ⟨_, .badVariable hkey hname hcheck⟩
  · exact .inl ⟨(s, m), hname, hkey, Measurement.validate_of_check hcheck⟩

/-! ## All items -/

theorem readEntries_of_readAs {entries : List (Datum × Datum)} {vs : Variables}
    (h : List.Forall₂ ReadAs entries vs) : readEntries entries = .ok vs := by
  induction h with
  | nil => rfl
  | cons hitem _ ih =>
    rw [readEntries, readVariable_of_readAs hitem, ih]
    rfl

/-- Reading stops at the first item that is at fault, whatever comes behind it. -/
theorem readEntries_of_offends (front : List (Datum × Datum)) {key entry : Datum}
    {reason : InputFault} (hfront : ∀ item ∈ front, ∃ v, ReadAs item v)
    (h : Offends key entry reason) (others : List (Datum × Datum)) :
    readEntries (front ++ (key, entry) :: others) = .error (.input reason) := by
  induction front with
  | nil =>
    rw [List.nil_append, readEntries, readVariable_of_offends h]
    rfl
  | cons item front ih =>
    obtain ⟨v, hv⟩ := hfront item List.mem_cons_self
    rw [List.cons_append, readEntries, readVariable_of_readAs hv,
      ih fun other hmem => hfront other (List.mem_cons_of_mem _ hmem)]
    rfl

/-- All items are read, or there is a first that is at fault. -/
theorem readAs_or_first_offends {entries : List (Datum × Datum)}
    (fits : ∀ item ∈ entries, ∀ v e,
      Measurement.fields? item.2 = some (v, e) → v.Fits ∧ e.Fits) :
    (∃ vs, List.Forall₂ ReadAs entries vs) ∨
      ∃ front key entry rest reason, entries = front ++ (key, entry) :: rest ∧
        (∀ item ∈ front, ∃ v, ReadAs item v) ∧ Offends key entry reason := by
  induction entries with
  | nil => exact .inl ⟨[], .nil⟩
  | cons item entries ih =>
    -- an item that is at fault is the first, whatever the others are
    rcases readAs_or_offends (fits item List.mem_cons_self) with ⟨v, hv⟩ | ⟨reason, hreason⟩
    · rcases ih fun other hmem => fits other (List.mem_cons_of_mem _ hmem) with
        ⟨vs, hvs⟩ | ⟨front, key, entry, rest, reason, rfl, hfront, hreason⟩
      · exact .inl ⟨v :: vs, .cons hv hvs⟩
      · exact .inr ⟨item :: front, key, entry, rest, reason, rfl,
          List.forall_mem_cons.2 ⟨⟨v, hv⟩, hfront⟩, hreason⟩
    · exact .inr ⟨[], item.1, item.2, entries, reason, rfl, by simp, hreason⟩

theorem exists_readAs_iff (item : Datum × Datum) :
    (∃ v, ReadAs item v) ↔ item.1.IsName ∧
      ∃ m, Measurement.validate item.2 = .ok (.ok m) := by
  constructor
  · rintro ⟨v, hname, -, hv⟩
    exact ⟨hname, v.2, hv⟩
  · rintro ⟨⟨s, hs, hfree⟩, m, hm⟩
    exact ⟨(s, m), ⟨s, hs, hfree⟩, hs, hm⟩

theorem exists_readAs_of_mem {entries : List (Datum × Datum)} {vs : Variables}
    (h : List.Forall₂ ReadAs entries vs) : ∀ item ∈ entries, ∃ v, ReadAs item v :=
  ((List.forall₂_and_left _ _).1 (h.imp fun _ v hv => ⟨⟨v, hv⟩, hv⟩)).1

theorem not_readAs_of_offends {key entry : Datum} {reason : InputFault}
    (h : Offends key entry reason) (v : String × Measurement) : ¬ ReadAs (key, entry) v := by
  intro hv
  have hok := readVariable_of_readAs hv
  rw [readVariable_of_offends h] at hok
  cases hok

/-- A good item, a reserved word, an error below zero, and a key that is no text. -/
def jumbled : List (Datum × Datum) :=
  [(.text "a", annotated), (.text "lambda", annotated),
    (.text "x", .measurement (.number (.int 1)) (.number (.int (-1)))),
    (.number (.int 1), .none)]

theorem jumbled_fitting : FittingVariables (.mapping jumbled) := by
  rintro _ ⟨rfl⟩ item hmem v e hfields
  simp only [jumbled, List.mem_cons, List.not_mem_nil, or_false] at hmem
  rcases hmem with rfl | rfl | rfl | rfl
  · exact annotated_fits v e (Datum.gives_iff.2 hfields)
  · exact annotated_fits v e (Datum.gives_iff.2 hfields)
  · cases hfields
    exact ⟨Datum.fits_number (by decide +kernel), Datum.fits_number (by decide +kernel)⟩
  · cases hfields

theorem readVariables_jumbled :
    readVariables (.mapping jumbled) = .error (.input (.reservedName "lambda")) := by
  have hname : (Datum.text "a").IsName := ⟨"a", rfl, by decide, by decide +kernel⟩
  have hfirst := (exists_readAs_iff (.text "a", annotated)).2 ⟨hname, annotated_valid⟩
  exact readEntries_of_offends [_] (List.forall_mem_singleton.2 hfirst)
    (.reservedName rfl (by decide +kernel)) _

end ErrorBars
