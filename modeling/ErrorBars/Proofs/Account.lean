import ErrorBars.Proofs.Call

/-!
# What a calculation comes to by itself

`Propagator.calculate` is interleaved with whatever its listeners do: they are told of the arguments,
of each slope and of the result, and may change the registry and the lists of listeners each time.
This file writes down what is left when nobody listens, as functions of the arguments alone.

* `opening` — all that has to go well before the first slope is looked for: a formula that can be
  read, variables that are measurements, and a measurement for each variable of the formula.
* `Setting.slopeAt` and `Setting.value` — a slope and the value at the measured point.
* `reference` — the answer.
* `Setting.survey` — the slopes up to the first that cannot be found.

That the answer and the reports of a call really are these is the content of the files behind this
one.
-/

set_option autoImplicit false

namespace ErrorBars
namespace Propagator

/-- A formula that has been read, with measurements for all of its variables. -/
structure Setting where
  /-- the text of the formula -/
  source : String
  /-- the measurements -/
  measured : Variables
  /-- the formula -/
  formula : Expr

namespace Setting

/-- The variables of the formula in the order in which slopes are taken. -/
def names (S : Setting) : List String := Formula.freeVariables S.formula S.source

/-- The measured point. -/
def point (S : Setting) : Bindings := bindings S.measured

/-- The slope in the direction of a variable. -/
def slopeAt (S : Setting) (name : String) : Except CallFault Differential :=
  match S.measured.find? name with
  | none => .error (.missing [name] "")
  | some m =>
    match (S.formula.differentiate name).evaluate S.point with
    | .ok value => .ok (slope value name m (S.formula.differentiate name))
    | .error fault => .error (.engine fault)

/-- The value at the measured point. -/
def value (S : Setting) : Except CallFault Double :=
  (S.formula.evaluate S.point).mapError CallFault.engine

/-- The slopes in the directions of some variables up to the first that cannot be found, and why it
cannot be. -/
def survey (S : Setting) : List String → List Differential × Option CallFault
  | [] => ([], none)
  | name :: names =>
    match S.slopeAt name with
    | .error fault => ([], some fault)
    | .ok d => (d :: (S.survey names).1, (S.survey names).2)

end Setting

/-- The variables of a formula that have no measurement. -/
def unmeasured (source : String) (vs : Variables) (f : Expr) : List String :=
  (Formula.freeVariables f source).filter fun name => (vs.find? name).isNone

/-- A formula that is read where these measurements are given, if they are all that it needs. -/
def setting (source : String) (vs : Variables) : Except CallFault Setting :=
  match Formula.parse source (vs.map Prod.fst) with
  | .error fault => .error (.engine (Engine.ofParseFault source fault))
  | .ok f =>
    match unmeasured source vs f with
    | [] => .ok ⟨source, vs, f⟩
    | missing => .error (.missing missing source)

/-- What has to go well before the first slope is looked for. -/
def opening (expression inputs : Datum) : Except CallFault Setting := do
  let source ← (readFormula expression).mapError CallFault.input
  let vs ← (readVariables inputs).mapError ofVariablesFault
  setting source vs

/-- **The answer of a calculation** as a function of its arguments and the correlation mode: the
slopes in the order of the variables, then the value, then the total error.  The first of these
that fails is the fault of the whole. -/
def reference (mode : Correlation) (expression inputs : Datum) :
    Except CallFault (Outcome Double) := do
  let S ← opening expression inputs
  let ds ← S.names.mapM S.slopeAt
  let value ← S.value
  let error ← totalError mode (ds.map term)
  return ⟨value, error⟩

/-! ## Surveys -/

namespace Setting

variable (S : Setting)

/-- Slopes in the directions of all variables are those of the survey, if it finds all of them. -/
theorem mapM_slopeAt (names : List String) :
    names.mapM S.slopeAt = match S.survey names with
      | (ds, none) => .ok ds
      | (_, some fault) => .error fault := by
  induction names with
  | nil => rfl
  | cons name names ih =>
    rw [List.mapM_cons, ih, survey]
    cases S.slopeAt name with
    | error fault => rfl
    | ok d =>
      rcases S.survey names with ⟨ds, _ | fault⟩ <;> rfl

/-- A slope that is found is what it should be: it belongs to the variable, comes with its
measurement, and its contribution is its magnitude times the error. -/
theorem slopeAt_eq_ok {name : String} {d : Differential} (h : S.slopeAt name = .ok d) :
    d.name = name ∧ S.measured.find? name = some d.measurement ∧
      d.expression = S.formula.differentiate name ∧ d.expression.evaluate S.point = .ok d.value ∧
      d.contribution = d.value.abs.mul d.measurement.error := by
  rw [slopeAt] at h
  cases hm : S.measured.find? name with
  | none => rw [hm] at h; exact absurd h (by simp)
  | some m =>
    rw [hm] at h
    cases he : (S.formula.differentiate name).evaluate S.point with
    | error fault => simp only [he, reduceCtorEq] at h
    | ok x =>
      simp only [he, Except.ok.injEq] at h
      subst h
      exact ⟨rfl, rfl, rfl, he, rfl⟩

/-- The survey of several variables follows their order. -/
theorem survey_names_prefix (names : List String) :
    (S.survey names).1.map (·.name) <+: names := by
  induction names with
  | nil => exact List.prefix_rfl
  | cons name names ih =>
    rw [survey]
    cases h : S.slopeAt name with
    | error fault => exact List.nil_prefix
    | ok d =>
      rw [List.map_cons, (S.slopeAt_eq_ok h).1]
      exact (List.prefix_cons_inj name).2 ih

/-- Every slope of a survey is one that was found. -/
theorem slopeAt_of_mem_survey {names : List String} {d : Differential}
    (h : d ∈ (S.survey names).1) : S.slopeAt d.name = .ok d := by
  induction names with
  | nil => exact absurd h (by simp [survey])
  | cons name names ih =>
    rw [survey] at h
    cases hs : S.slopeAt name with
    | error fault => rw [hs] at h; exact absurd h (by simp)
    | ok e =>
      rw [hs] at h
      rcases List.mem_cons.1 h with rfl | hd
      · rw [(S.slopeAt_eq_ok hs).1, hs]
      · exact ih hd

/-- A survey that ends without a fault has found the slopes of all variables. -/
theorem survey_complete {names : List String} (h : (S.survey names).2 = none) :
    (S.survey names).1.map (·.name) = names := by
  induction names with
  | nil => rfl
  | cons name names ih =>
    rw [survey] at h ⊢
    cases hs : S.slopeAt name with
    | error fault => rw [hs] at h; exact absurd h (by simp)
    | ok d =>
      rw [hs] at h
      rw [List.map_cons, (S.slopeAt_eq_ok hs).1, ih h]

/-- A survey that ends with a fault ends at the variable whose slope cannot be found. -/
theorem survey_fault {names : List String} {fault : CallFault}
    (h : (S.survey names).2 = some fault) :
    ∃ name, names[(S.survey names).1.length]? = some name ∧ S.slopeAt name = .error fault := by
  induction names with
  | nil => exact absurd h (by simp [survey])
  | cons name names ih =>
    rw [survey] at h ⊢
    cases hs : S.slopeAt name with
    | error other =>
      rw [hs] at h
      simp only [Option.some.injEq] at h
      exact ⟨name, rfl, h ▸ hs⟩
    | ok d =>
      rw [hs] at h
      obtain ⟨last, hlast, hfault⟩ := ih h
      exact ⟨last, by simpa using hlast, hfault⟩

end Setting

/-! ## The opening -/

/-- A setting is made of what it was asked for, and lacks no measurement. -/
theorem setting_eq_ok {source : String} {vs : Variables} {S : Setting}
    (h : setting source vs = .ok S) :
    S.source = source ∧ S.measured = vs ∧
      Formula.parse source (vs.map Prod.fst) = .ok S.formula ∧
      ∀ name ∈ S.names, (S.measured.find? name).isSome := by
  rw [setting] at h
  cases hf : Formula.parse source (vs.map Prod.fst) with
  | error fault => simp only [hf, reduceCtorEq] at h
  | ok f =>
    simp only [hf] at h
    split at h
    · rename_i hm
      simp only [Except.ok.injEq] at h
      subst h
      refine ⟨rfl, rfl, rfl, fun name hname => ?_⟩
      rw [unmeasured, List.filter_eq_nil_iff] at hm
      simpa [Option.isSome_iff_ne_none] using hm name hname
    · simp only [reduceCtorEq] at h

/-- What the opening has gone through when it succeeds. -/
theorem opening_eq_ok {expression inputs : Datum} {S : Setting}
    (h : opening expression inputs = .ok S) :
    readFormula expression = .ok S.source ∧ readVariables inputs = .ok S.measured ∧
      Formula.parse S.source (S.measured.map Prod.fst) = .ok S.formula ∧
      ∀ name ∈ S.names, (S.measured.find? name).isSome := by
  rw [opening] at h
  cases hs : readFormula expression with
  | error fault =>
    rw [hs] at h
    cases h
  | ok source =>
    rw [hs] at h
    cases hv : readVariables inputs with
    | error fault =>
      rw [hv] at h
      cases h
    | ok vs =>
      rw [hv] at h
      obtain ⟨rfl, rfl, hf, hm⟩ := setting_eq_ok h
      exact ⟨rfl, rfl, hf, hm⟩

/-- Once the opening has succeeded, a slope can only be missing because its derivative has no
value. -/
theorem slopeAt_eq_error {expression inputs : Datum} {S : Setting} {name : String}
    {fault : CallFault} (hS : opening expression inputs = .ok S) (hname : name ∈ S.names)
    (h : S.slopeAt name = .error fault) :
    ∃ reason, (S.formula.differentiate name).evaluate S.point = .error reason ∧
      fault = .engine reason := by
  have hm := (opening_eq_ok hS).2.2.2 name hname
  rw [Setting.slopeAt] at h
  cases hv : S.measured.find? name with
  | none => rw [hv] at hm; exact absurd hm (by simp)
  | some m =>
    cases he : (S.formula.differentiate name).evaluate S.point with
    | error reason =>
      simp only [hv, he, Except.error.injEq] at h
      exact ⟨reason, rfl, h.symm⟩
    | ok x => simp only [hv, he, reduceCtorEq] at h

end Propagator
end ErrorBars
