import ErrorBars.Proofs.Calculate
import ErrorBars.Proofs.Reading
import ErrorBars.Proofs.Spare.Point

/-!
# A measurement that a formula does not need

Two calculations of one formula are compared, the second of which is given one more measurement.
One expects nothing to change.  There are three ways in which something does.

* The name may be one of those that the reading looks up although the text does not mention them,
  like `Integer`, through which all whole numbers are read (`Formula.sought`).
* The formula may have a variable of that name although the text does not mention it, as in
  `Symbol('n')`.
* The measured value may be the first that is not whole, and an integer part gives up.

`outcome_withEntry` shows that these are all.
-/

set_option autoImplicit false

namespace ErrorBars
namespace Propagator

open Watched

/-! ## The arguments -/

/-- The variables of a call with one more at the end. -/
def withEntry (inputs : Datum) (n : String) (entry : Datum) : Datum :=
  match inputs with
  | .mapping entries => .mapping (entries ++ [(.text n, entry)])
  | _ => .mapping [(.text n, entry)]

section

variable {vs : Variables} {n : String} {m : Measurement}

theorem readEntries_append {entries : List (Datum × Datum)} {key entry : Datum}
    (hvs : readEntries entries = .ok vs) (hentry : readVariable key entry = .ok (n, m)) :
    readEntries (entries ++ [(key, entry)]) = .ok (vs ++ [(n, m)]) := by
  induction entries generalizing vs with
  | nil =>
    obtain rfl := Except.ok.inj hvs
    rw [List.nil_append, readEntries, hentry]
    rfl
  | cons e entries ih =>
    rw [readEntries] at hvs
    rw [List.cons_append, readEntries]
    cases he : readVariable e.1 e.2 with
    | error fault =>
      rw [he] at hvs
      exact absurd hvs (by simp [bind, Except.bind])
    | ok v =>
      cases hrest : readEntries entries with
      | error fault =>
        rw [he, hrest] at hvs
        exact absurd hvs (by simp [bind, Except.bind])
      | ok rest =>
        rw [he, hrest] at hvs
        obtain rfl := Except.ok.inj hvs
        rw [ih hrest]
        rfl

theorem readVariables_withEntry {inputs entry : Datum} (hvs : readVariables inputs = .ok vs)
    (hentry : readVariable (.text n) entry = .ok (n, m)) :
    readVariables (withEntry inputs n entry) = .ok (vs ++ [(n, m)]) := by
  cases inputs with
  | none =>
    obtain rfl := Except.ok.inj hvs
    have hempty : readEntries [] = .ok [] := rfl
    exact readEntries_append hempty hentry
  | mapping entries => exact readEntries_append hvs hentry
  | _ => cases hvs

/-! ## The point -/

theorem find?_append {s : String} (hs : s ≠ n) :
    Variables.find? (vs ++ [(n, m)]) s = vs.find? s := by
  rw [Variables.find?, Variables.find?, List.lookup_append, List.lookup_cons,
    beq_eq_false_iff_ne.2 hs, List.lookup_nil, Option.or_none]

theorem bindings_append :
    bindings (vs ++ [(n, m)]) = bindings vs ++ [(n, doubleExpr m.value)] := by
  rw [bindings, bindings, List.map_append, List.map_singleton]

theorem over_doubleExpr {S : String → Prop} (x : Double) : Expr.Over S (doubleExpr x) := by
  unfold doubleExpr
  split
  · exact Expr.over_float _ _
  · exact Expr.over_const _
  · exact Expr.over_undefined

theorem secondsOver_bindings {S : String → Prop} (vs : Variables) :
    Expr.SecondsOver S (bindings vs) := by
  intro b hb
  obtain ⟨v, -, rfl⟩ := List.mem_map.1 hb
  exact over_doubleExpr v.2.value

end

/-! ## The setting -/

/-- The fault of a calculation that gives up on an integer part. -/
def givenUp : CallFault := .engine .unsettledInteger

namespace Setting

/-- A setting with one more measurement. -/
def withSpare (S : Setting) (n : String) (m : Measurement) : Setting :=
  { S with measured := S.measured ++ [(n, m)] }

variable {S : Setting} {n : String} {m : Measurement}

theorem settles_at {e : Expr} (he : Expr.Over (· ≠ n) e) :
    Settles givenUp (S.point.isFractional = false) ((e.evaluate S.point).mapError CallFault.engine)
      ((e.evaluate (S.withSpare n m).point).mapError CallFault.engine) := by
  rw [point, point, withSpare, bindings_append]
  exact (Expr.settles_evaluate (secondsOver_bindings S.measured) he).mapError
    fun _ h => CallFault.engine.inj h

theorem settles_slopeAt (hf : Expr.Over (· ≠ n) S.formula) {name : String} (hname : name ≠ n) :
    Settles givenUp (S.point.isFractional = false) (S.slopeAt name) ((S.withSpare n m).slopeAt name) := by
  have hfind : (S.withSpare n m).measured.find? name = S.measured.find? name :=
    find?_append hname
  have hslope : ∀ (T : Setting) (m : Measurement), T.measured.find? name = some m →
      T.slopeAt name = ((T.formula.differentiate name).evaluate T.point).mapError CallFault.engine
        >>= fun x => pure (slope x name m (T.formula.differentiate name)) := by
    intro T m hm
    rw [slopeAt, hm]
    cases (T.formula.differentiate name).evaluate T.point <;> rfl
  cases hm : S.measured.find? name with
  | none =>
    rw [slopeAt, slopeAt, hfind, hm]
    exact .of_ne fun h => by cases h
  | some m =>
    rw [hslope S m hm, hslope _ m (hfind.trans hm)]
    exact (settles_at (Expr.over_differentiate hf)).bind fun x => .of_ne fun h => by cases h

theorem settles_slopes (hf : Expr.Over (· ≠ n) S.formula) {names : List String}
    (hnames : n ∉ names) : Settles givenUp (S.point.isFractional = false) (names.mapM S.slopeAt)
      (names.mapM (S.withSpare n m).slopeAt) := by
  induction names with
  | nil => exact .of_ne nofun
  | cons name names ih =>
    rw [List.mem_cons, not_or] at hnames
    rw [List.mapM_cons, List.mapM_cons]
    refine (settles_slopeAt hf (Ne.symm hnames.1)).bind fun d => ?_
    exact (ih hnames.2).bind fun ds => .of_ne nofun

end Setting

/-- The result of a setting, with the slopes that are found on the way. -/
def account (mode : Correlation) (S : Setting) :
    Except CallFault (Outcome Double × List Differential) := do
  let ds ← S.names.mapM S.slopeAt
  let value ← S.value
  let error ← totalError mode (ds.map term)
  return (⟨value, error⟩, ds)

theorem account_eq (mode : Correlation) (S : Setting) :
    account mode S = (conclusion mode S).map fun r => (r, (S.survey S.names).1) := by
  rw [account, conclusion, expansion, S.mapM_slopeAt, surveyed]
  rcases S.survey S.names with ⟨ds, _ | fault⟩
  · simp only [bind, Except.bind]
    cases S.value with
    | error fault => rfl
    | ok value =>
      simp only [pure, Except.pure]
      cases totalError mode (ds.map term) <;> rfl
  · rfl

/-- One more measurement leaves the result of a setting as it is, unless the calculation gives up on
an integer part. -/
theorem settles_account (mode : Correlation) {S : Setting} {n : String} {m : Measurement}
    (hn : n ∉ S.formula.freeSymbols) :
    Settles givenUp (S.point.isFractional = false) (account mode S) (account mode (S.withSpare n m)) := by
  have hf : Expr.Over (· ≠ n) S.formula :=
    Expr.over_iff_freeSymbols.2 fun s hs heq => hn (heq ▸ hs)
  have hnames : n ∉ S.names := fun h => hn ((List.mergeSort_perm _ _).mem_iff.1 h)
  refine (Setting.settles_slopes hf hnames).bind fun ds => ?_
  refine (Setting.settles_at hf).bind fun value => ?_
  obtain ⟨error, herror⟩ := totalError_map_term mode ds
  rw [herror]
  exact .of_ne nofun

/-! ## The outcome -/

section

variable {ε : Type}

/-- The slope that an event reports. -/
def slopeIn? : Event → Option Differential
  | .differential d => some d
  | _ => none

/-- **The outcome of a calculation**, as its caller and its listeners get to see it: the result with
the slopes that were reported on the way, or the fault. -/
def outcome (emit : Event → Call ε Unit) (mode : Correlation) (expression inputs : Datum)
    (s : CallState ε) : Except CallFault (Outcome Double × List Differential) :=
  (calculate emit mode expression inputs s).1.map fun r =>
    (r, (emissions emit mode expression inputs s).filterMap fun e => slopeIn? e.event)

variable {emit : Event → Call ε Unit} {mode : Correlation} {expression inputs : Datum}
  {s : CallState ε}

theorem filterMap_slopeIn_reports (mode : Correlation) (expression inputs : Datum) :
    (reports mode expression inputs).filterMap slopeIn? = slopesOf expression inputs := by
  have hslopes : ∀ ds : List Differential, (ds.map .differential).filterMap slopeIn? = ds := by
    intro ds
    rw [List.filterMap_map]
    exact List.filterMap_some
  have hresult : (resultReport (reference mode expression inputs)).filterMap slopeIn? = [] := by
    cases reference mode expression inputs <;> rfl
  rw [reports, List.filterMap_cons, List.filterMap_append, hslopes, hresult, List.append_nil]
  rfl

/-- As long as the listeners are quiet, the outcome is a function of the arguments. -/
theorem outcome_eq (quiet : Quiet (emissions emit mode expression inputs s)) :
    outcome emit mode expression inputs s =
      (reference mode expression inputs).map fun r => (r, slopesOf expression inputs) := by
  obtain ⟨hreports, hanswer⟩ := emissions_calculate quiet
  rw [outcome, hanswer, hreports, List.filterMap_map]
  exact congrArg (fun ds => (reference mode expression inputs).map fun r => (r, ds))
    (filterMap_slopeIn_reports mode expression inputs)

theorem outcome_of_error (quiet : Quiet (emissions emit mode expression inputs s))
    {fault : CallFault} (h : opening expression inputs = .error fault) :
    outcome emit mode expression inputs s = .error fault := by
  rw [outcome_eq quiet, reference_eq_error mode h]
  rfl

theorem outcome_of_ok (quiet : Quiet (emissions emit mode expression inputs s)) {S : Setting}
    (h : opening expression inputs = .ok S) :
    outcome emit mode expression inputs s = account mode S := by
  rw [outcome_eq quiet, reference_eq_conclusion mode h, account_eq, slopesOf, h]

/-- Once a calculation has a setting, no measurement is missing. -/
theorem outcome_ne_missing (quiet : Quiet (emissions emit mode expression inputs s)) {S : Setting}
    (h : opening expression inputs = .ok S) (names : List String) (source : String) :
    outcome emit mode expression inputs s ≠ .error (.missing names source) := by
  have hends := ends_survey mode h
  rw [outcome_of_ok quiet h, account_eq]
  generalize conclusion mode S = answer at hends
  cases hends <;> exact nofun

end

/-! ## Two calculations -/

section

variable {vs : Variables} {n : String} {m : Measurement} {source : String} {f : Expr}

theorem setting_of_read (hf : Formula.parse source (vs.map Prod.fst) = .ok f) :
    setting source vs = match unmeasured source vs f with
      | [] => .ok ⟨source, vs, f⟩
      | missing => .error (.missing missing source) := by
  cases hm : unmeasured source vs f <;> simp only [setting, hf, hm]

theorem setting_ne_givenUp (hf : Formula.parse source (vs.map Prod.fst) = .ok f) :
    setting source vs ≠ .error givenUp := by
  rw [setting_of_read hf]
  cases unmeasured source vs f <;> exact nofun

theorem setting_of_unread {fault : Formula.ParseFault}
    (hf : Formula.parse source (vs.map Prod.fst) = .error fault) :
    setting source vs = .error (.engine (Engine.ofParseFault source fault)) := by
  rw [setting, hf]

/-- A formula that is read alike, and has no variable of that name, lacks the same measurements. -/
theorem setting_append (hn : n ∉ f.freeSymbols)
    (hf : Formula.parse source (vs.map Prod.fst) = .ok f)
    (hread : Formula.parse source ((vs ++ [(n, m)]).map Prod.fst) = .ok f) :
    setting source (vs ++ [(n, m)]) = (setting source vs).map fun S => S.withSpare n m := by
  have hmissing : unmeasured source (vs ++ [(n, m)]) f = unmeasured source vs f := by
    rw [unmeasured, unmeasured]
    refine List.filter_congr fun name hname => ?_
    have hmem : name ∈ f.freeSymbols := (List.mergeSort_perm _ _).mem_iff.1 hname
    have hne : name ≠ n := fun heq => hn (heq ▸ hmem)
    rw [find?_append hne]
  rw [setting_of_read hf, setting_of_read hread, hmissing]
  cases unmeasured source vs f <;> rfl

/-- A measurement that is missing is no longer so once it is given. -/
theorem setting_of_missing (hn : n ∈ f.freeSymbols) (hnew : n ∉ vs.map Prod.fst)
    (hf : Formula.parse source (vs.map Prod.fst) = .ok f)
    (hread : Formula.parse source ((vs ++ [(n, m)]).map Prod.fst) = .ok f) :
    ∃ missing, setting source vs = .error (.missing missing source) ∧
      setting source (vs ++ [(n, m)]) ≠ .error (.missing missing source) := by
  have hlookup : vs.find? n = none := by
    rw [Variables.find?, List.lookup_eq_none_iff]
    exact fun v hv => bne_iff_ne.2 fun heq => hnew (heq ▸ List.mem_map_of_mem hv)
  have hgiven : Variables.find? (vs ++ [(n, m)]) n = some m := by
    rw [Variables.find?] at hlookup ⊢
    rw [List.lookup_append, hlookup, List.lookup_cons_self, Option.none_or]
  have hmem : n ∈ unmeasured source vs f :=
    List.mem_filter.2 ⟨(List.mergeSort_perm _ _).mem_iff.2 hn, by rw [hlookup, Option.isNone_none]⟩
  have hnot : n ∉ unmeasured source (vs ++ [(n, m)]) f := fun h => by
    have := (List.mem_filter.1 h).2
    rw [hgiven] at this
    exact absurd this nofun
  refine ⟨unmeasured source vs f, ?_, fun h => ?_⟩
  · rw [setting_of_read hf]
    cases h : unmeasured source vs f with
    | nil => exact absurd (h ▸ hmem) List.not_mem_nil
    | cons name names => rfl
  · rw [setting_of_read hread] at h
    cases h' : unmeasured source (vs ++ [(n, m)]) f with
    | nil =>
      rw [h'] at h
      exact absurd h nofun
    | cons name names =>
      rw [h'] at h hnot
      obtain ⟨h, -⟩ := CallFault.missing.inj (Except.error.inj h)
      exact hnot (h ▸ hmem)

end

section

variable {ε : Type} {emit : Event → Call ε Unit} {mode : Correlation}
  {expression inputs entry : Datum} {vs : Variables} {n source : String} {m : Measurement}
  {f : Expr} {s s' : CallState ε}

theorem opening_eq_setting (hs : readFormula expression = .ok source)
    (hvs : readVariables inputs = .ok vs) : opening expression inputs = setting source vs := by
  rw [opening, hs, hvs]
  rfl

theorem readFormula_eq_error {fault : InputFault} (h : readFormula expression = .error fault)
    (inputs : Datum) : opening expression inputs = .error (.input fault) := by
  rw [opening, h]
  rfl

theorem name_ne_empty (hentry : readVariable (.text n) entry = .ok (n, m)) : n ≠ "" := by
  rintro rfl
  exact absurd hentry nofun

/-- The comparison of two calculations that read the same formula. -/
theorem outcome_withEntry_of_read (hvs : readVariables inputs = .ok vs)
    (hentry : readVariable (.text n) entry = .ok (n, m)) (hnew : n ∉ vs.map Prod.fst)
    (quiet : Quiet (emissions emit mode expression inputs s))
    (quiet' : Quiet (emissions emit mode expression (withEntry inputs n entry) s'))
    (hs : readFormula expression = .ok source)
    (hf : Formula.parse source (vs.map Prod.fst) = .ok f)
    (hread : Formula.parse source ((vs ++ [(n, m)]).map Prod.fst) = .ok f) :
    outcome emit mode expression (withEntry inputs n entry) s' =
        outcome emit mode expression inputs s ↔
      n ∉ f.freeSymbols ∧ ((bindings vs).isFractional = true ∨
        outcome emit mode expression (withEntry inputs n entry) s' ≠ .error givenUp) := by
  have hopen := opening_eq_setting hs hvs
  have hopen' := opening_eq_setting hs (readVariables_withEntry hvs hentry)
  by_cases hn : n ∈ f.freeSymbols
  · refine iff_of_false (fun heq => ?_) fun h => h.1 hn
    obtain ⟨missing, hmissing, hgiven⟩ := setting_of_missing hn hnew hf hread
    rw [outcome_of_error quiet (hopen.trans hmissing)] at heq
    cases hS' : setting source (vs ++ [(n, m)]) with
    | error fault =>
      rw [outcome_of_error quiet' (hopen'.trans hS')] at heq
      rw [hS', Except.error.inj heq] at hgiven
      exact hgiven rfl
    | ok S' => exact outcome_ne_missing quiet' (hopen'.trans hS') missing source heq
  · have hsetting := setting_append hn hf hread
    cases hS : setting source vs with
    | error fault =>
      rw [hS] at hopen hsetting
      have heq := outcome_of_error quiet hopen
      have heq' := outcome_of_error quiet' (hopen'.trans hsetting)
      have hfault : fault ≠ givenUp := fun h => setting_ne_givenUp hf (h ▸ hS)
      refine iff_of_true (heq'.trans heq.symm) ⟨hn, .inr fun h => hfault ?_⟩
      exact Except.error.inj (heq'.symm.trans h)
    | ok S =>
      rw [hS] at hopen hsetting
      obtain ⟨-, rfl, hformula, -⟩ := setting_eq_ok hS
      obtain rfl := Except.ok.inj (hf.symm.trans hformula)
      rw [outcome_of_ok quiet hopen, outcome_of_ok quiet' (hopen'.trans hsetting)]
      obtain ⟨hsettled, hsame⟩ := settles_account mode (S := S) (m := m) hn
      constructor
      · intro heq
        refine ⟨hn, ?_⟩
        cases hfrac : (bindings S.measured).isFractional with
        | true => exact .inl rfl
        | false => exact .inr (heq ▸ hsettled hfrac)
      · rintro ⟨-, hfrac | hne⟩
        · rcases hsame with hsame | ⟨hwhole, -⟩
          · exact hsame
          · exact absurd (hfrac.symm.trans hwhole) nofun
        · rcases hsame with hsame | ⟨-, hgivenUp⟩
          · exact hsame
          · exact absurd hgivenUp hne

/-- **A measurement that a formula does not need**, given to one of two calculations besides what
both are given.

If the reading does not look up its name, both read the same formula.  If they do, they have the
same outcome if and only if the formula has no variable of that name, and either some other value is
not whole or the calculation does not give up on an integer part. -/
theorem outcome_withEntry (hvs : readVariables inputs = .ok vs)
    (hentry : readVariable (.text n) entry = .ok (n, m)) (hnew : n ∉ vs.map Prod.fst)
    (quiet : Quiet (emissions emit mode expression inputs s))
    (quiet' : Quiet (emissions emit mode expression (withEntry inputs n entry) s')) :
    (∀ source, readFormula expression = .ok source →
      n ∉ Formula.sought source (vs.map Prod.fst) →
        Formula.parse source (vs.map Prod.fst ++ [n]) =
          Formula.parse source (vs.map Prod.fst)) ∧
    ((∀ source, readFormula expression = .ok source →
        Formula.parse source (vs.map Prod.fst ++ [n]) =
          Formula.parse source (vs.map Prod.fst)) →
      (outcome emit mode expression (withEntry inputs n entry) s' =
          outcome emit mode expression inputs s ↔
        ∀ source f, readFormula expression = .ok source →
          Formula.parse source (vs.map Prod.fst) = .ok f →
            n ∉ f.freeSymbols ∧ ((bindings vs).isFractional = true ∨
              outcome emit mode expression (withEntry inputs n entry) s' ≠ .error givenUp))) := by
  refine ⟨fun source _ hn => Formula.parse_append (name_ne_empty hentry) hn, fun hread => ?_⟩
  cases hs : readFormula expression with
  | error fault =>
    have heq := outcome_of_error quiet (readFormula_eq_error hs inputs)
    have heq' := outcome_of_error quiet' (readFormula_eq_error hs (withEntry inputs n entry))
    exact iff_of_true (heq'.trans heq.symm) fun source f h => absurd h nofun
  | ok source =>
    have hread := hread source hs
    cases hf : Formula.parse source (vs.map Prod.fst) with
    | error fault =>
      have hf' : Formula.parse source ((vs ++ [(n, m)]).map Prod.fst) = .error fault := by
        rw [List.map_append, List.map_singleton, hread, hf]
      have hopen := (opening_eq_setting hs hvs).trans (setting_of_unread hf)
      have hopen' := (opening_eq_setting hs (readVariables_withEntry hvs hentry)).trans
        (setting_of_unread hf')
      refine iff_of_true ((outcome_of_error quiet' hopen').trans
        (outcome_of_error quiet hopen).symm) fun source' f' hs' hf'' => ?_
      obtain rfl := Except.ok.inj hs'
      exact absurd (hf.symm.trans hf'') nofun
    | ok f =>
      have hf' : Formula.parse source ((vs ++ [(n, m)]).map Prod.fst) = .ok f := by
        rw [List.map_append, List.map_singleton, hread, hf]
      refine (outcome_withEntry_of_read hvs hentry hnew quiet quiet' hs hf hf').trans
        ⟨fun h source' f' hs' hf'' => ?_, fun h => h source f rfl hf⟩
      obtain rfl := Except.ok.inj hs'
      obtain rfl := Except.ok.inj (hf.symm.trans hf'')
      exact h

end

/-- Something that was measured as a whole number, give or take one. -/
def about (value : Int) : Datum :=
  .mapping [(.text "value", .number (.int value)), (.text "error", .number (.int 1))]

/-- A call to which nobody listens. -/
def unheard (_ : Event) : Call Unit Unit := pure ()

/-- A propagator to which nothing has happened yet. -/
def untouched : CallState Unit := ⟨[], Notifier.ofEvents eventNames, []⟩

/-- Nobody lets a fault escape where nobody listens. -/
theorem quiet_unheard (mode : Correlation) (expression inputs : Datum) :
    Quiet (emissions unheard mode expression inputs untouched) := by
  rcases quiet_or_fails unheard mode expression inputs untouched with h | ⟨_, _, _, hfault, -⟩
  · exact h
  · cases hfault

/-- A square is not changed by another variable. -/
theorem outcome_withEntry_square :
    ∃ vs m, readVariables (flat ["x"]) = .ok vs ∧
      readVariable (.text "y") (about 8) = .ok ("y", m) ∧ "y" ∉ vs.map Prod.fst ∧
      Quiet (emissions unheard .uncorrelated (.text "x*x") (flat ["x"]) untouched) ∧
      Quiet (emissions unheard .uncorrelated (.text "x*x") (withEntry (flat ["x"]) "y" (about 8))
        untouched) ∧
      outcome unheard .uncorrelated (.text "x*x") (withEntry (flat ["x"]) "y" (about 8))
          untouched =
        outcome unheard .uncorrelated (.text "x*x") (flat ["x"]) untouched := by
  have quiet : Quiet (emissions unheard .uncorrelated (.text "x*x") (flat ["x"]) untouched) := by
    decide +kernel
  have quiet' : Quiet (emissions unheard .uncorrelated (.text "x*x")
      (withEntry (flat ["x"]) "y" (about 8)) untouched) := by
    decide +kernel
  have hsource : readFormula (.text "x*x") = .ok "x*x" := if_neg (by decide +kernel)
  refine ⟨_, _, rfl, rfl, by decide, quiet, quiet', ?_⟩
  obtain ⟨hread, hiff⟩ := outcome_withEntry rfl rfl (by decide) quiet quiet'
  refine (hiff fun source hs => hread source hs ?_).2 fun source f hs hf => ⟨?_, .inr ?_⟩
  · obtain rfl := Except.ok.inj (hsource.symm.trans hs)
    decide +kernel
  · obtain rfl := Except.ok.inj (hsource.symm.trans hs)
    have hnames : (Formula.parse "x*x" ["x"]).toOption.map (·.freeSymbols) = some ["x"] := by
      decide +kernel
    have hf : Formula.parse "x*x" ["x"] = .ok f := hf
    rw [hf] at hnames
    have hnames : f.freeSymbols = ["x"] := Option.some.inj hnames
    rw [hnames]
    decide
  · exact fun h => absurd (congrArg (fun r => r.toOption.isSome) h) (by decide +kernel)

/-- A whole number is read through the word `Integer`: where that is a variable, `2` is read as
twice its value. -/
theorem outcome_withEntry_integer :
    (Formula.Token.scan "2").map Formula.wordsOf = some [] ∧
      readVariables (.mapping []) = .ok [] ∧
      (∃ m, readVariable (.text "Integer") (about 8) = .ok ("Integer", m)) ∧
      Quiet (emissions unheard .uncorrelated (.text "2") (.mapping []) untouched) ∧
      Quiet (emissions unheard .uncorrelated (.text "2")
        (withEntry (.mapping []) "Integer" (about 8)) untouched) ∧
      outcome unheard .uncorrelated (.text "2") (withEntry (.mapping []) "Integer" (about 8))
          untouched ≠
        outcome unheard .uncorrelated (.text "2") (.mapping []) untouched := by
  refine ⟨by decide +kernel, rfl, ⟨_, rfl⟩, by decide +kernel, by decide +kernel, fun h => ?_⟩
  exact absurd (congrArg (fun o => o.toOption.map fun r => r.1.value) h) (by decide +kernel)

end Propagator
end ErrorBars
