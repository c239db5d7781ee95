import ErrorBars.Proofs.Calculate

/-!
# One calculation in the three modes

The correlation mode is consulted once, when the slopes have been found and the contributions are
put together.  So propagators that differ in their mode go the same way up to there: the same
reports, the same value, or the same fault.  They may still differ in the form of the error, and the
mode alone does not decide that: without contributions nothing is put together, and the error is
zero in every mode.

`calculate_modes` says so for propagators with listeners and histories of their own.
-/

set_option autoImplicit false

namespace ErrorBars

/-- Whether a figure is given for each of the two assumptions. -/
def Figure.isBreakdown {α : Type} : Figure α → Bool
  | .single _ => false
  | .breakdown .. => true

namespace Propagator

open Watched

/-- How the answers to one call go together that the three modes give, where `ds` are the slopes
that have been found. -/
inductive AcrossModes (expression inputs : Datum) (ds : List Differential)
    (answer : Correlation → Except CallFault (Outcome Double)) : Prop where
  /-- there is no result in any mode, for one reason -/
  | failure {fault : CallFault} (fails : ∀ mode, answer mode = .error fault)
  /-- a formula without variables has the error zero in every mode -/
  | constant {S : Setting} {value : Double} (opens : opening expression inputs = .ok S)
      (no_variables : S.names = []) (no_slopes : ds = [])
      (answers : ∀ mode, answer mode = .ok ⟨value, .single (Double.zero false)⟩)
  /-- a formula with variables has one value, and the third mode gives the errors of the two
  others -/
  | varying {S : Setting} {value correlated uncorrelated : Double}
      (opens : opening expression inputs = .ok S) (variables_exist : S.names ≠ [])
      (slopes_all : ds.map (·.name) = S.names)
      (in_correlated : answer .correlated = .ok ⟨value, .single correlated⟩)
      (in_uncorrelated : answer .uncorrelated = .ok ⟨value, .single uncorrelated⟩)
      (in_both : answer .both = .ok ⟨value, .breakdown correlated uncorrelated⟩)

/-! ## The answers of the reference -/

/-- Where there are slopes, the total error is the figure of their contributions. -/
theorem totalError_of_ne_nil (mode : Correlation) {ds : List Differential} (h : ds ≠ []) :
    totalError mode (ds.map term) =
      .ok (figures mode (ds.map fun d => d.value * d.measurement.error)) := by
  obtain ⟨d, ds, rfl⟩ := List.exists_cons_of_ne_nil h
  have hterms := terms?_map_term (d :: ds)
  rw [List.map_cons] at hterms ⊢
  rw [totalError, combine?, hterms]
  · rfl
  · simp

/-- A setting is expanded without regard to the mode, so the answers of the modes only differ in
their total errors. -/
theorem conclusion_of_expansion (mode : Correlation) {S : Setting} {value : Double}
    {ds : List Differential} (h : expansion S = .ok (value, ds)) :
    conclusion mode S = (totalError mode (ds.map term)).map fun error => ⟨value, error⟩ := by
  rw [conclusion, h]
  show (totalError mode (ds.map term) >>= fun error => pure _) = _
  cases totalError mode (ds.map term) <;> rfl

/-- An expansion has the slopes in all directions. -/
theorem expansion_eq_ok {S : Setting} {value : Double} {ds : List Differential}
    (h : expansion S = .ok (value, ds)) :
    (S.survey S.names).1 = ds ∧ ds.map (·.name) = S.names := by
  rw [expansion, surveyed] at h
  rcases hs : S.survey S.names with ⟨found, _ | fault⟩
  · have hall : (S.survey S.names).1.map (·.name) = S.names := S.survey_complete (by rw [hs])
    rw [hs] at h hall
    cases hv : S.value with
    | error fault => simp only [hv, bind, Except.bind, reduceCtorEq] at h
    | ok x =>
      simp only [hv, bind, Except.bind, pure, Except.pure, Except.ok.injEq, Prod.mk.injEq] at h
      obtain ⟨-, rfl⟩ := h
      exact ⟨rfl, hall⟩
  · simp only [hs, bind, Except.bind, reduceCtorEq] at h

/-- The answers that the arguments and the mode alone determine. -/
theorem acrossModes_reference (expression inputs : Datum) :
    AcrossModes expression inputs (slopesOf expression inputs)
      fun mode => reference mode expression inputs := by
  rw [slopesOf]
  cases hS : opening expression inputs with
  | error fault => exact .failure fun mode => reference_eq_error mode hS
  | ok S =>
    have hreference := fun mode => reference_eq_conclusion mode hS
    cases hx : expansion S with
    | error fault =>
      have hfails : ∀ mode, reference mode expression inputs = .error fault := by
        intro mode
        rw [hreference, conclusion, hx]
        rfl
      exact .failure hfails
    | ok p =>
      obtain ⟨value, ds⟩ := p
      obtain ⟨hfound, hall⟩ := expansion_eq_ok hx
      simp only [hfound]
      by_cases hds : ds = []
      · subst hds
        have hanswer : ∀ mode, reference mode expression inputs =
            .ok ⟨value, .single (Double.zero false)⟩ := by
          intro mode
          rw [hreference, conclusion_of_expansion mode hx]
          rfl
        exact .constant hS hall.symm rfl hanswer
      · have hanswer : ∀ mode, reference mode expression inputs =
            .ok ⟨value, figures mode (ds.map fun d => d.value * d.measurement.error)⟩ := by
          intro mode
          rw [hreference, conclusion_of_expansion mode hx, totalError_of_ne_nil mode hds]
          rfl
        refine .varying hS ?_ hall (hanswer .correlated) (hanswer .uncorrelated) (hanswer .both)
        rw [← hall]
        exact fun h => hds (List.map_eq_nil_iff.1 h)

/-- The error has a figure for each assumption if and only if the mode asks for both and there are
slopes. -/
theorem AcrossModes.isBreakdown_iff {expression inputs : Datum} {ds : List Differential}
    {answer : Correlation → Except CallFault (Outcome Double)}
    (h : AcrossModes expression inputs ds answer) {mode : Correlation} {r : Outcome Double}
    (hr : answer mode = .ok r) : r.error.isBreakdown ↔ mode = .both ∧ ds ≠ [] := by
  cases h with
  | failure fails => exact absurd (hr.symm.trans (fails mode)) nofun
  | constant _ _ no_slopes answers =>
    obtain rfl := Except.ok.inj (hr.symm.trans (answers mode))
    simp [Figure.isBreakdown, no_slopes]
  | varying _ variables_exist slopes_all in_correlated in_uncorrelated in_both =>
    have hds : ds ≠ [] := by
      rintro rfl
      exact variables_exist slopes_all.symm
    cases mode with
    | uncorrelated =>
      obtain rfl := Except.ok.inj (hr.symm.trans in_uncorrelated)
      simp [Figure.isBreakdown]
    | correlated =>
      obtain rfl := Except.ok.inj (hr.symm.trans in_correlated)
      simp [Figure.isBreakdown]
    | both =>
      obtain rfl := Except.ok.inj (hr.symm.trans in_both)
      simp [Figure.isBreakdown, hds]

/-! ## Three propagators -/

section

variable {ε : Type} (emit : Correlation → Event → Call ε Unit) (s : Correlation → CallState ε)

/-- **One call in the three modes.**  Three propagators, each with listeners and a history of its
own, are asked to calculate the same.  As long as no listener lets a fault escape, they report the
same slopes in the same order, and their answers go together: all fail for one reason, or all have
the same value, and the errors are zero or the third mode breaks its error down into those of the two
others.  The error is broken down if and only if the mode asks for it and a slope was reported. -/
theorem calculate_modes (expression inputs : Datum)
    (quiet : ∀ mode, Quiet (emissions (emit mode) mode expression inputs (s mode))) :
    ∃ ds,
      (∀ mode, (emissions (emit mode) mode expression inputs (s mode)).map (·.event) =
        .input expression inputs :: (ds.map .differential ++
          resultReport (calculate (emit mode) mode expression inputs (s mode)).1)) ∧
      AcrossModes expression inputs ds
        (fun mode => (calculate (emit mode) mode expression inputs (s mode)).1) ∧
      ∀ mode r, (calculate (emit mode) mode expression inputs (s mode)).1 = .ok r →
        (r.error.isBreakdown ↔ mode = .both ∧ ds ≠ []) := by
  have hrun : ∀ mode,
      emissions (emit mode) mode expression inputs (s mode) =
        (reports mode expression inputs).map told ∧
      (calculate (emit mode) mode expression inputs (s mode)).1 =
        reference mode expression inputs := by
    intro mode
    obtain ⟨new, hruns, hquiet⟩ := runs_calculate (emit mode) mode expression inputs (s mode)
    have hnew : emissions (emit mode) mode expression inputs (s mode) = new := by
      rw [emissions, hruns [], emissionsIn_frame, List.nil_append]
    rw [hnew]
    exact hquiet (hnew ▸ quiet mode)
  have hmodes : AcrossModes expression inputs (slopesOf expression inputs)
      fun mode => (calculate (emit mode) mode expression inputs (s mode)).1 := by
    simp only [fun mode => (hrun mode).2]
    exact acrossModes_reference expression inputs
  refine ⟨slopesOf expression inputs, fun mode => ?_, hmodes,
    fun mode r hr => hmodes.isBreakdown_iff hr⟩
  rw [(hrun mode).1, (hrun mode).2, List.map_map, reports]
  exact List.map_id _

end

/-- Listeners that meddle with each of the three propagators, while twice a variable is calculated. -/
theorem calculate_modes_meddlers :
    (∀ mode, Quiet (emissions (Session.emit meddlers mode) mode (.text "2*x") (flat ["x"])
        disturbed)) ∧
      ∃ ds,
        (∀ mode, (emissions (Session.emit meddlers mode) mode (.text "2*x") (flat ["x"])
            disturbed).map (·.event) =
          .input (.text "2*x") (flat ["x"]) :: (ds.map .differential ++
            resultReport (calculate (Session.emit meddlers mode) mode (.text "2*x")
              (flat ["x"]) disturbed).1)) ∧
        AcrossModes (.text "2*x") (flat ["x"]) ds
          (fun mode => (calculate (Session.emit meddlers mode) mode (.text "2*x")
            (flat ["x"]) disturbed).1) ∧
        ∀ mode r, (calculate (Session.emit meddlers mode) mode (.text "2*x") (flat ["x"])
            disturbed).1 = .ok r →
          (r.error.isBreakdown ↔ mode = .both ∧ ds ≠ []) := by
  have quiet : ∀ mode, Quiet (emissions (Session.emit meddlers mode) mode (.text "2*x")
      (flat ["x"]) disturbed) := by
    intro mode
    cases mode <;> decide +kernel
  exact ⟨quiet, calculate_modes (Session.emit meddlers) (fun _ => disturbed) _ _ quiet⟩

end Propagator
end ErrorBars
