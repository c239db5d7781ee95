import ErrorBars.Proofs.Course

/-!
# What a calculation answers and reports

Two statements about `Propagator.calculate` that hold for arbitrary listeners, whatever the state of
the engine's registry, of the listeners and of the log, as long as no listener lets a fault escape
into the call.  `Session.emitAt` gives the listeners of a session at any depth of nesting; nothing
here is special about them.

* `calculate_eq_reference` — the answer is a function of the formula, the variables and the mode.
* `emissions_course` — the call's own reports are the arguments, then slopes along a prefix of the
  variables, then the result exactly if there is one.  `Course` says where the prefix ends.
-/

set_option autoImplicit false

namespace ErrorBars

/-! ## Variables stand in a list once -/

theorem nodup_eraseDups {α : Type} [BEq α] [LawfulBEq α] (items : List α) :
    items.eraseDups.Nodup := by
  cases items with
  | nil => simp
  | cons item items =>
    rw [List.eraseDups_cons, List.nodup_cons]
    refine ⟨fun h => ?_, nodup_eraseDups _⟩
    rw [List.mem_eraseDups, List.mem_filter] at h
    simp at h
termination_by items.length
decreasing_by
  exact Nat.lt_succ_of_le (List.length_filter_le _ _)

/-- The variables of a formula are pairwise distinct. -/
theorem Formula.nodup_freeVariables (f : Expr) (source : String) :
    (freeVariables f source).Nodup :=
  (List.mergeSort_perm _ _).nodup_iff.2 (nodup_eraseDups _)

namespace Propagator

open Watched

variable {ε : Type}

/-! ## The total error -/

/-- Contributions of slopes are doubles already, and no product of doubles is too large. -/
theorem terms?_map_term (ds : List Differential) :
    terms? (ds.map term) = some (ds.map fun d => d.value * d.measurement.error) := by
  induction ds with
  | nil => rfl
  | cons d ds ih =>
    rw [List.map_cons, List.map_cons, terms?, ih]
    rfl

/-- Slopes always have a total error. -/
theorem totalError_map_term (mode : Correlation) (ds : List Differential) :
    ∃ error, totalError mode (ds.map term) = .ok error := by
  cases ds with
  | nil => exact ⟨_, rfl⟩
  | cons d ds =>
    refine ⟨figures mode ((d :: ds).map fun d => d.value * d.measurement.error), ?_⟩
    have h := terms?_map_term (d :: ds)
    rw [List.map_cons] at h ⊢
    rw [totalError, combine?, h]
    · rfl
    · simp

/-! ## Listeners that meddle -/

/-- Variables that have all been measured as zero, give or take one. -/
def flat (names : List String) : Datum :=
  .mapping (names.map fun name =>
    (.text name, .mapping [(.text "value", .number (.int 0)), (.text "error", .number (.int 1))]))

/-- Listeners that look at the registry, take themselves off the lists, put others on them, and make
calls of their own. -/
def meddlers : Programs where
  reactions name :=
    if name = "clerk" then
      [.count, .off "input" "clerk", .on "result" "guest",
        .request (.calculate (.text "2*y") (flat ["y"])), .count]
    else [.count, .request (.calculate (.text "2") .none)]
  writesText := false

/-- A state in which the registry is in use and a meddler waits for the first two kinds of
events. -/
def disturbed : CallState LogEntry where
  registry := [.symbol "q"]
  notifier := ((Notifier.ofEvents eventNames).on "input" "clerk").on "differential" "clerk"
  log := []

/-! ## The answer -/

/-- **The answer is that of the reference.**  Listeners and the history of the propagator have no
part in it. -/
theorem calculate_eq_reference (emit : Event → Call ε Unit) (mode : Correlation)
    (expression inputs : Datum) (s : CallState ε)
    (quiet : Quiet (emissions emit mode expression inputs s)) :
    (calculate emit mode expression inputs s).1 = reference mode expression inputs := by
  obtain ⟨new, hruns, hquiet⟩ := runs_calculate emit mode expression inputs s
  refine (hquiet ?_).2
  rwa [emissions, hruns [], emissionsIn_frame, List.nil_append] at quiet

/-- In the middle of this call the registry is emptied and the lists of listeners are changed. -/
theorem calculate_eq_reference_meddlers :
    Quiet (emissions (Session.emit meddlers .uncorrelated) .uncorrelated (.text "x*x") (flat ["x"]) disturbed) ∧
      (calculate (Session.emit meddlers .uncorrelated) .uncorrelated (.text "x*x") (flat ["x"]) disturbed).1 =
        reference .uncorrelated (.text "x*x") (flat ["x"]) :=
  have quiet : Quiet
      (emissions (Session.emit meddlers .uncorrelated) .uncorrelated (.text "x*x") (flat ["x"]) disturbed) :=
    by decide +kernel
  ⟨quiet, calculate_eq_reference _ _ _ _ _ quiet⟩

/-! ## The reports -/

/-- How the slopes that are found go together with the answer. -/
inductive Ends (mode : Correlation) (S : Setting) (ds : List Differential) :
    Except CallFault (Outcome Double) → Prop where
  /-- the derivative by the next variable has no value -/
  | noSlope {name : String} {fault : EngineFault} (next : S.names[ds.length]? = some name)
      (fails : (S.formula.differentiate name).evaluate S.point = .error fault) :
      Ends mode S ds (.error (.engine fault))
  /-- all slopes are found, but the formula has no value -/
  | noValue {fault : EngineFault} (all : ds.map (·.name) = S.names)
      (fails : S.formula.evaluate S.point = .error fault) : Ends mode S ds (.error (.engine fault))
  /-- all slopes are found, and so is the value -/
  | result {value : Double} {error : Figure Double} (all : ds.map (·.name) = S.names)
      (holds : S.formula.evaluate S.point = .ok value)
      (total : totalError mode (ds.map term) = .ok error) : Ends mode S ds (.ok ⟨value, error⟩)

/-- The slopes of a calculation from its setting on. -/
structure Course (mode : Correlation) (S : Setting) (ds : List Differential)
    (answer : Except CallFault (Outcome Double)) : Prop where
  /-- they follow the order of the variables -/
  names_prefix : ds.map (·.name) <+: S.names
  /-- no variable comes twice -/
  names_nodup : (ds.map (·.name)).Nodup
  /-- each slope comes with the measurement of its variable -/
  measured : ∀ d ∈ ds, S.measured.find? d.name = some d.measurement
  /-- each slope is the value of the derivative -/
  slope : ∀ d ∈ ds, d.expression = S.formula.differentiate d.name ∧
    d.expression.evaluate S.point = .ok d.value
  /-- each slope contributes its magnitude times the error of its variable -/
  contribution : ∀ d ∈ ds, d.contribution = d.value.abs.mul d.measurement.error
  /-- they end where the answer says -/
  ends : Ends mode S ds answer

theorem ends_survey (mode : Correlation) {expression inputs : Datum} {S : Setting}
    (h : opening expression inputs = .ok S) :
    Ends mode S (S.survey S.names).1 (conclusion mode S) := by
  rw [conclusion, expansion, surveyed]
  rcases hs : S.survey S.names with ⟨ds, _ | fault⟩
  · have hnone : (S.survey S.names).2 = none := by rw [hs]
    have hall : ds.map (·.name) = S.names := by
      have hcomplete := S.survey_complete hnone
      rwa [hs] at hcomplete
    obtain ⟨error, ht⟩ := totalError_map_term mode ds
    cases he : S.formula.evaluate S.point with
    | error reason =>
      simp only [Setting.value, he, Except.mapError, bind, Except.bind]
      exact .noValue hall he
    | ok value =>
      simp only [Setting.value, he, Except.mapError, bind, Except.bind, pure, Except.pure, ht]
      exact .result hall he ht
  · have hsome : (S.survey S.names).2 = some fault := by rw [hs]
    obtain ⟨name, hnext, hfails⟩ := S.survey_fault hsome
    have hmem : name ∈ S.names := List.mem_of_getElem? hnext
    obtain ⟨reason, he, rfl⟩ := slopeAt_eq_error h hmem hfails
    rw [hs] at hnext
    exact .noSlope hnext he

theorem course_survey (mode : Correlation) {expression inputs : Datum} {S : Setting}
    (h : opening expression inputs = .ok S) :
    Course mode S (S.survey S.names).1 (conclusion mode S) := by
  have hpre := S.survey_names_prefix S.names
  refine ⟨hpre, ?_, ?_, ?_, ?_, ends_survey mode h⟩
  · exact hpre.sublist.nodup (Formula.nodup_freeVariables _ _)
  · exact fun d hd => (S.slopeAt_eq_ok (S.slopeAt_of_mem_survey hd)).2.1
  · intro d hd
    obtain ⟨-, -, hexpr, he, -⟩ := S.slopeAt_eq_ok (S.slopeAt_of_mem_survey hd)
    exact ⟨hexpr, he⟩
  · exact fun d hd => (S.slopeAt_eq_ok (S.slopeAt_of_mem_survey hd)).2.2.2.2

end Propagator
end ErrorBars
