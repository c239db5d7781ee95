import ErrorBars.Proofs.Linear
import ErrorBars.Proofs.Malformed
import ErrorBars.Proofs.Modes
import Mathlib.Algebra.BigOperators.Fin
import Mathlib.Algebra.Order.Chebyshev
import Mathlib.Analysis.Real.Sqrt

/-!
# The root of the sum of squares

The two reductions are made of few operations (`Operations`), and can be carried out without
rounding, with real numbers (`reals`).  Then the uncorrelated figure is the root of the sum of
squares, and the correlated figure the sum of magnitudes, so that the first is at most the second
and the second at most `√n` times the first.

Doubles have the same figures as long as no step is rounded (`Unrounded`, `UnroundedLegs`).

A calculation tells of each slope with what it contributes to the error, the magnitude of the slope
times the error.  The figures are made of the magnitudes of slope times error.  This is the same,
rounded or not, so the total error can be found again from what was told
(`error_of_reference`).  `figures_quadrature` puts it together.
-/

set_option autoImplicit false

namespace ErrorBars

/-! ## Reductions with any operations -/

/-- The operations that the two reductions are made of. -/
structure Operations (α : Type) where
  /-- zero -/
  zero : α
  /-- the magnitude -/
  abs : α → α
  /-- the product -/
  mul : α → α → α
  /-- the sum -/
  add : α → α → α
  /-- the length of the hypotenuse -/
  hypot : α → α → α

namespace Operations

variable {α : Type} (op : Operations α)

/-- The sum of the magnitudes, in blocks. -/
def correlated (ts : List α) : α := blockedSum op.add op.zero (ts.map op.abs)

/-- The hypotenuse over all magnitudes, one after another. -/
def uncorrelated (ts : List α) : α := foldHypot op.hypot op.zero (ts.map op.abs)

/-- The figure or figures that a mode asks for. -/
def figures (mode : Correlation) (ts : List α) : Figure α :=
  match mode with
  | .uncorrelated => .single (op.uncorrelated ts)
  | .correlated => .single (op.correlated ts)
  | .both => .breakdown (op.correlated ts) (op.uncorrelated ts)

/-- The terms of contributions, each a derivative with an error. -/
def terms (cs : List (α × α)) : List α := cs.map fun c => op.mul c.1 c.2

/-- The operations of doubles. -/
def doubles : Operations Double :=
  ⟨Double.zero false, Double.abs, Double.mul, Double.add, Double.hypot⟩

theorem figures_doubles (mode : Correlation) (ts : List Double) :
    doubles.figures mode ts = ErrorBars.figures mode ts := by
  cases mode <;> rfl

theorem terms?_eq_terms (cs : List (Double × Double)) :
    terms? (cs.map fun c => ⟨.float c.1, .float c.2⟩) = some (doubles.terms cs) := by
  induction cs with
  | nil => rfl
  | cons c cs ih =>
    rw [List.map_cons, terms?_cons, ih]
    rfl

/-- Contributions are combined with the operations of doubles. -/
theorem combine?_eq_figures (mode : Correlation) (cs : List (Double × Double)) :
    combine? mode (cs.map fun c => ⟨.float c.1, .float c.2⟩) =
      some (doubles.figures mode (doubles.terms cs)) := by
  rw [combine?, terms?_eq_terms, Option.map_some, figures_doubles]

/-- The operations of real numbers, without rounding. -/
noncomputable def reals : Operations ℝ :=
  ⟨0, fun x => |x|, (· * ·), (· + ·), fun x y => √(x ^ 2 + y ^ 2)⟩

end Operations

open Operations

/-! ## Without rounding -/

section Reals

variable {x : ℝ} {ts : List ℝ}

/-- The square of the hypotenuse so far grows by the square of each leg. -/
theorem sq_foldl_hypot (x : ℝ) (ts : List ℝ) :
    ts.foldl reals.hypot x ^ 2 = x ^ 2 + (ts.map (· ^ 2)).sum := by
  induction ts generalizing x with
  | nil => simp
  | cons t ts ih =>
    have hstep : reals.hypot x t ^ 2 = x ^ 2 + t ^ 2 := Real.sq_sqrt (by positivity)
    rw [List.foldl_cons, ih, hstep, List.map_cons, List.sum_cons, add_assoc]

theorem foldl_hypot_nonneg (hx : 0 ≤ x) : 0 ≤ ts.foldl reals.hypot x := by
  induction ts generalizing x with
  | nil => exact hx
  | cons t ts ih => exact ih (Real.sqrt_nonneg _)

theorem map_sq_map_abs (ts : List ℝ) : (ts.map reals.abs).map (· ^ 2) = ts.map (· ^ 2) := by
  rw [List.map_map]
  exact List.map_congr_left fun t _ => sq_abs t

theorem uncorrelated_nonneg (ts : List ℝ) : 0 ≤ reals.uncorrelated ts :=
  foldl_hypot_nonneg le_rfl

/-- **The uncorrelated figure** has the sum of the squares as its square. -/
theorem sq_uncorrelated (ts : List ℝ) :
    reals.uncorrelated ts ^ 2 = (ts.map (· ^ 2)).sum := by
  rw [uncorrelated, foldHypot, sq_foldl_hypot, map_sq_map_abs]
  exact (congrArg (· + _) (zero_pow two_ne_zero)).trans (zero_add _)

/-- A number that is not negative and has this square is the uncorrelated figure. -/
theorem eq_uncorrelated (hx : 0 ≤ x) (hsq : x ^ 2 = (ts.map (· ^ 2)).sum) :
    x = reals.uncorrelated ts := by
  rwa [← sq_uncorrelated, pow_left_inj₀ hx (uncorrelated_nonneg ts) two_ne_zero] at hsq

/-- **The correlated figure** is the sum of the magnitudes. -/
theorem correlated_eq_sum (ts : List ℝ) : reals.correlated ts = (ts.map fun t => |t|).sum :=
  blockedSum_eq_sum _

theorem sum_abs_nonneg (ts : List ℝ) : 0 ≤ (ts.map fun t => |t|).sum :=
  List.sum_nonneg (by simp)

theorem sum_sq_le_sq_sum (ts : List ℝ) : (ts.map (· ^ 2)).sum ≤ (ts.map fun t => |t|).sum ^ 2 := by
  induction ts with
  | nil => simp
  | cons t ts ih =>
    have hmixed : 0 ≤ |t| * (ts.map fun t => |t|).sum :=
      mul_nonneg (abs_nonneg t) (sum_abs_nonneg ts)
    rw [List.map_cons, List.map_cons, List.sum_cons, List.sum_cons, add_sq, sq_abs]
    linarith

/-- **The uncorrelated figure is at most the correlated one.** -/
theorem uncorrelated_le_correlated (ts : List ℝ) : reals.uncorrelated ts ≤ reals.correlated ts := by
  rw [correlated_eq_sum]
  refine le_of_sq_le_sq ?_ (sum_abs_nonneg ts)
  rw [sq_uncorrelated]
  exact sum_sq_le_sq_sum ts

/-- **The correlated figure is at most the root of the number of terms times the other** (the
inequality of Cauchy and Schwarz). -/
theorem sq_correlated_le (ts : List ℝ) :
    reals.correlated ts ^ 2 ≤ ts.length * reals.uncorrelated ts ^ 2 := by
  have hcauchy := sq_sum_le_card_mul_sum_sq (s := Finset.univ)
    (f := fun i : Fin ts.length => |ts[i.1]|)
  rw [correlated_eq_sum, sq_uncorrelated, ← Fin.sum_univ_fun_getElem, ← Fin.sum_univ_fun_getElem]
  simpa only [Finset.card_univ, Fintype.card_fin, sq_abs] using hcauchy

/-- The figures are made from the squares alone. -/
theorem uncorrelated_congr {us : List ℝ} (h : (us.map (· ^ 2)).sum = (ts.map (· ^ 2)).sum) :
    reals.uncorrelated us = reals.uncorrelated ts :=
  eq_uncorrelated (uncorrelated_nonneg us) ((sq_uncorrelated us).trans h)

/-- A single term has its magnitude as either figure. -/
theorem uncorrelated_singleton (t : ℝ) : reals.uncorrelated [t] = reals.correlated [t] := by
  rw [correlated_eq_sum]
  refine (eq_uncorrelated (sum_abs_nonneg [t]) ?_).symm
  simp

end Reals

/-! ## Exact steps of doubles -/

namespace Double

/-- The hypotenuse of two doubles, and whether all is exact so far: nothing was rounded in it. -/
def hypotCounted (x y : Double × Bool) : Double × Bool :=
  (x.1.hypot y.1, x.2 && y.2 && (x.1.hypot y.1).isFinite &&
    (x.1.hypot y.1).value ^ 2 == x.1.value ^ 2 + y.1.value ^ 2)

theorem isNegative_abs (x : Double) : x.abs.isNegative = false := by cases x <;> rfl

theorem isNegative_ofRatio (n d : ℕ) : (ofRatio false n d).isNegative = false := by
  rw [← abs_ofRatio true]
  exact isNegative_abs _

theorem isNegative_ofScaled (n : ℕ) (k : ℤ) : (ofScaled false n k).isNegative = false := by
  rw [← abs_ofScaled true]
  exact isNegative_abs _

/-- No hypotenuse is below zero. -/
theorem isNegative_hypot (x y : Double) : (x.hypot y).isNegative = false := by
  rcases x with _ | a | ⟨a, m, e, _⟩ <;> rcases y with _ | b | ⟨b, n, f, _⟩
  case finite.finite =>
    rw [hypot]
    split
    · rfl
    · exact isNegative_ofScaled _ _
  all_goals rfl

theorem isNegative_foldl_hypot {x : Double} (hx : x.isNegative = false) (ts : List Double) :
    (ts.foldl hypot x).isNegative = false := by
  induction ts generalizing x with
  | nil => exact hx
  | cons t ts ih => exact ih (isNegative_hypot x t)

theorem value_nonneg {x : Double} (hx : x.isNegative = false) : 0 ≤ x.value := by
  by_contra hneg
  cases hq : x.toRat? with
  | none =>
    rw [value, hq] at hneg
    exact hneg le_rfl
  | some q =>
    rw [value, hq] at hneg
    rw [(isNegative_iff hq).2 (not_le.1 hneg)] at hx
    contradiction

end Double

open Double

/-- All terms are finite, and none of the hypotenuses over them is rounded. -/
def UnroundedLegs (ts : List Double) : Prop :=
  (foldHypot hypotCounted (counted (Double.zero false)) (ts.map counted)).2 = true

instance (ts : List Double) : Decidable (UnroundedLegs ts) :=
  inferInstanceAs (Decidable (_ = true))

theorem hypotCounted_eq_true {p q : Double × Bool} (h : (hypotCounted p q).2 = true) :
    p.2 = true ∧ (p.1.hypot q.1).value ^ 2 = p.1.value ^ 2 + q.1.value ^ 2 := by
  rw [hypotCounted, Bool.and_eq_true, Bool.and_eq_true, Bool.and_eq_true, beq_iff_eq] at h
  exact ⟨h.1.1.1, h.2⟩

/-- What is counted on the way: the hypotenuses themselves, and that all was exact before; then
their squares add up. -/
theorem foldl_hypotCounted (p : Double × Bool) (ts : List Double) :
    ((ts.map counted).foldl hypotCounted p).1 = ts.foldl hypot p.1 ∧
      (((ts.map counted).foldl hypotCounted p).2 = true → p.2 = true ∧
        (ts.foldl hypot p.1).value ^ 2 = p.1.value ^ 2 + (ts.map fun t => t.value ^ 2).sum) := by
  induction ts generalizing p with
  | nil => exact ⟨rfl, fun hp => ⟨hp, by simp⟩⟩
  | cons t ts ih =>
    obtain ⟨hfirst, hvalue⟩ := ih (hypotCounted p (counted t))
    refine ⟨hfirst, fun hexact => ?_⟩
    obtain ⟨hstep, hrest⟩ := hvalue hexact
    obtain ⟨hp, hsq⟩ := hypotCounted_eq_true hstep
    have hsq : (p.1.hypot t).value ^ 2 = p.1.value ^ 2 + t.value ^ 2 := hsq
    refine ⟨hp, ?_⟩
    rw [List.foldl_cons, List.map_cons, List.sum_cons, ← add_assoc, ← hsq]
    exact hrest

theorem value_zero : (Double.zero false).value = 0 := by
  rw [value, toRat?_zero, Option.getD_some]

/-- A sum of rational numbers is their sum as real numbers. -/
theorem cast_sum_map (f : Double → ℚ) (ts : List Double) :
    (((ts.map f).sum : ℚ) : ℝ) = (ts.map fun t => (f t : ℝ)).sum := by
  induction ts with
  | nil => exact Rat.cast_zero
  | cons t ts ih =>
    rw [List.map_cons, List.map_cons, List.sum_cons, List.sum_cons, Rat.cast_add, ih]

/-- **Doubles whose hypotenuses are not rounded** have the figure of their values. -/
theorem value_uncorrelatedFigure {ts : List Double} (h : UnroundedLegs (ts.map Double.abs)) :
    ((uncorrelatedFigure ts).value : ℝ) = reals.uncorrelated (ts.map fun t => (t.value : ℝ)) := by
  have hnonneg : 0 ≤ (uncorrelatedFigure ts).value :=
    value_nonneg (isNegative_foldl_hypot rfl (ts.map Double.abs))
  have hsq := ((foldl_hypotCounted (counted (Double.zero false)) (ts.map Double.abs)).2 h).2
  have hfigure : (uncorrelatedFigure ts).value ^ 2 = (ts.map fun t => t.value ^ 2).sum := by
    refine hsq.trans ?_
    rw [counted, value_zero, zero_pow two_ne_zero, zero_add, List.map_map]
    exact congrArg List.sum (List.map_congr_left fun t _ => by
      rw [Function.comp_apply, value_abs, sq_abs])
  refine eq_uncorrelated (Rat.cast_nonneg.2 hnonneg) ?_
  rw [← Rat.cast_pow, hfigure, cast_sum_map, List.map_map]
  exact congrArg List.sum (List.map_congr_left fun t _ => Rat.cast_pow t.value 2)

/-- **Doubles whose sums are not rounded** have the figure of their values. -/
theorem value_correlatedFigure {ts : List Double} (h : Unrounded (ts.map Double.abs)) :
    ((correlatedFigure ts).value : ℝ) = reals.correlated (ts.map fun t => (t.value : ℝ)) := by
  rw [correlated_eq_sum, value, toRat?_correlatedFigure h, Option.getD_some, cast_sum_map,
    List.map_map]
  exact congrArg List.sum (List.map_congr_left fun t _ => Rat.cast_abs t.value)

/-! ## Errors and contributions are not negative -/

namespace Double

/-- A product is not negative if neither factor is. -/
theorem isNegative_mul {x y : Double} (hx : x.isNegative = false) (hy : y.isNegative = false) :
    (x * y).isNegative = false := by
  show (x.mul y).isNegative = false
  rcases x with _ | a | ⟨a, m, e, _⟩ <;> rcases y with _ | b | ⟨b, n, f, _⟩
  case infinite.infinite => simp_all [isNegative, mul]
  case infinite.finite =>
    rw [mul]
    split
    · rfl
    · simp_all [isNegative]
  case finite.infinite =>
    rw [mul]
    split
    · rfl
    · simp_all [isNegative]
  case finite.finite =>
    rw [mul]
    by_cases hzero : m * n = 0
    · rw [ofScaled, if_pos hzero]
      exact Bool.and_false _
    · have hmn := mul_ne_zero_iff.1 hzero
      have ha : a = false := by simpa [isNegative, hmn.1] using hx
      have hb : b = false := by simpa [isNegative, hmn.2] using hy
      rw [ha, hb]
      exact isNegative_ofScaled _ _
  all_goals rfl

theorem isNegative_of_ofRatio? {n d : ℕ} {x : Double} (h : ofRatio? false n d = some x) :
    x.isNegative = false := by
  have hx := isNegative_ofRatio n d
  rw [ofRatio?] at h
  split at h
  · cases h
  · exact Option.some.inj h ▸ hx

theorem isFinite_of_ofRatio? {s : Bool} {n d : ℕ} {x : Double}
    (h : ofRatio? s n d = some x) : x.isFinite = true := by
  have hcases := ofRatio_cases s n d
  rw [ofRatio?] at h
  split at h
  · cases h
  · rename_i hx
    cases h
    exact hcases.resolve_right fun h => hx _ h

end Double

/-- A number that is not below zero does not become so as a double. -/
theorem Number.isNegative_of_toDouble? {x : Number} {y : Double} (h : x.toDouble? = some y)
    (hx : x.isNegative = false) : y.isNegative = false := by
  cases x with
  | int n =>
    rw [isNegative] at hx
    rw [toDouble?, Double.ofInt?_eq, hx] at h
    exact Double.isNegative_of_ofRatio? h
  | fraction q =>
    rw [isNegative] at hx
    rw [toDouble?, Double.ofRat?_eq, hx] at h
    exact Double.isNegative_of_ofRatio? h
  | float z => exact Option.some.inj h ▸ hx

namespace Measurement

/-- The double in a field is that of the number in it. -/
theorem toDouble?_of_finite? {d : Datum} {y : Double} (h : finite? d = .ok (some y)) :
    ∃ x, d = .number x ∧ x.toDouble? = some y := by
  rcases d with _ | _ | (n | q | x) | _ | _ | _ | _ | _ | _ | _ | _
  case number.float =>
    rw [finite?, Except.ok.injEq, Option.ite_none_right_eq_some] at h
    exact ⟨_, rfl, h.2⟩
  case number.int | number.fraction =>
    rw [finite?] at h
    · split at h
      · rename_i hy
        rw [Except.ok.injEq] at h
        exact ⟨_, rfl, hy.trans h⟩
      · cases h
    · simp
  all_goals simp [finite?] at h

/-- A number in a field is finite. -/
theorem isFinite_of_finite? {d : Datum} {x : Double} (h : finite? d = .ok (some x)) :
    x.isFinite = true := by
  obtain ⟨n | q | y, rfl, hn⟩ := toDouble?_of_finite? h
  · exact Double.isFinite_of_ofRatio? hn
  · exact Double.isFinite_of_ofRatio? hn
  · rw [finite?, Except.ok.injEq, Option.ite_none_right_eq_some] at h
    exact Option.some.inj h.2 ▸ h.1

/-- Measurements have errors that are not negative. -/
theorem isNegative_of_check {d : Datum} {m : Measurement} (h : check d = .ok (.ok m)) :
    m.error.isNegative = false := by
  obtain ⟨v, e, -, -, he, hsign⟩ := check_eq_ok h
  obtain ⟨n, rfl, hn⟩ := toDouble?_of_finite? he
  exact Number.isNegative_of_toDouble? hn hsign

end Measurement

/-- **Variables have errors that are not negative.** -/
theorem isNegative_of_readVariables {inputs : Datum} {vs : Variables}
    (h : readVariables inputs = .ok vs) : ∀ v ∈ vs, v.2.error.isNegative = false :=
  of_readVariables (fun _ _ => Measurement.isNegative_of_check) h

/-! ## Figures from the reports -/

/-- What a report says that a variable contributes to the error. -/
def Event.contribution? : Event → Option Double
  | .differential d => some d.contribution
  | _ => none

namespace Propagator

open Watched

variable {ε : Type}

/-- The total error as the contributions alone determine it. -/
def errorOf (mode : Correlation) (contributions : List Double) : Figure Double :=
  match contributions with
  | [] => .single (Double.zero false)
  | ts => figures mode ts

theorem filterMap_contribution?_reports (mode : Correlation) (expression inputs : Datum) :
    (reports mode expression inputs).filterMap Event.contribution? =
      (slopesOf expression inputs).map (·.contribution) := by
  have hresult : (resultReport (reference mode expression inputs)).filterMap
      Event.contribution? = [] := by
    cases reference mode expression inputs <;> rfl
  have hslopes : Event.contribution? ∘ Event.differential = some ∘ (·.contribution) := rfl
  rw [reports, List.filterMap_cons, List.filterMap_append, hresult, List.filterMap_map, hslopes,
    List.append_nil, List.filterMap_eq_map]
  rfl

theorem mem_slopesOf_of_mem_reports {mode : Correlation} {expression inputs : Datum}
    {d : Differential} (h : .differential d ∈ reports mode expression inputs) :
    d ∈ slopesOf expression inputs := by
  rw [reports, List.mem_cons, List.mem_append, List.mem_map] at h
  rcases h with h | ⟨_, hd, h⟩ | h
  · cases h
  · cases h
    exact hd
  · cases hr : reference mode expression inputs <;> simp [hr, resultReport] at h

/-- A slope contributes the magnitude of its term, and that is not negative. -/
theorem contribution_of_mem_slopesOf {expression inputs : Datum} {d : Differential}
    (h : d ∈ slopesOf expression inputs) :
    d.contribution = d.value.abs * d.measurement.error ∧ d.contribution.isNegative = false ∧
      d.contribution.abs = (d.value * d.measurement.error).abs := by
  rw [slopesOf] at h
  cases hS : opening expression inputs with
  | error fault =>
    rw [hS] at h
    exact absurd h List.not_mem_nil
  | ok S =>
    rw [hS] at h
    obtain ⟨-, hfind, -, -, hc⟩ := S.slopeAt_eq_ok (S.slopeAt_of_mem_survey h)
    have hc : d.contribution = d.value.abs * d.measurement.error := hc
    obtain ⟨front, back, hmeasured, -⟩ := List.lookup_eq_some_iff.1 hfind
    have herror := isNegative_of_readVariables (opening_eq_ok hS).2.1 (_, d.measurement)
      (by rw [hmeasured]; exact List.mem_append_right _ List.mem_cons_self)
    refine ⟨hc, hc ▸ isNegative_mul (isNegative_abs _) herror, ?_⟩
    rw [hc, abs_mul, abs_mul, abs_abs]

/-- The figures of the slopes times errors are those of the contributions. -/
theorem figures_contribution (mode : Correlation) {ds : List Differential}
    (h : ∀ d ∈ ds, d.contribution.abs = (d.value * d.measurement.error).abs) :
    figures mode (ds.map fun d => d.value * d.measurement.error) =
      figures mode (ds.map (·.contribution)) := by
  refine figures_eq_of_map_abs ?_
  rw [List.map_map, List.map_map]
  exact List.map_congr_left fun d hd => (h d hd).symm

/-- The total error is that of the contributions that are reported. -/
theorem error_of_reference {mode : Correlation} {expression inputs : Datum} {r : Outcome Double}
    (h : reference mode expression inputs = .ok r) :
    r.error = errorOf mode ((slopesOf expression inputs).map (·.contribution)) := by
  have hcontribution (d : Differential) (hd : d ∈ slopesOf expression inputs) :=
    contribution_of_mem_slopesOf hd
  cases hS : opening expression inputs with
  | error fault =>
    rw [reference_eq_error mode hS] at h
    cases h
  | ok S =>
    have hslopes : slopesOf expression inputs = (S.survey S.names).1 := by rw [slopesOf, hS]
    rw [reference_eq_conclusion mode hS] at h
    cases hx : expansion S with
    | error fault =>
      rw [conclusion, hx] at h
      cases h
    | ok p =>
      obtain ⟨value, ds⟩ := p
      rw [hslopes, (expansion_eq_ok hx).1] at hcontribution ⊢
      rw [conclusion_of_expansion mode hx] at h
      by_cases hds : ds = []
      · subst hds
        cases h
        rfl
      · have hfigures := figures_contribution mode fun d hd => (hcontribution d hd).2.2
        rw [totalError_of_ne_nil mode hds, hfigures] at h
        cases h
        obtain ⟨d, ds, rfl⟩ := List.exists_cons_of_ne_nil hds
        rfl

/-- **The reports of a calculation that succeeds** tell of slopes, and of what each contributes: its
magnitude times the error, which is not negative and is the magnitude of slope times error.  The
total error is that of what was reported. -/
theorem reports_of_ok {emit : Event → Call ε Unit} {mode : Correlation} {expression inputs : Datum}
    {s : CallState ε} {r : Outcome Double}
    (h : (calculate emit mode expression inputs s).1 = .ok r) :
    (∀ d, .differential d ∈ (emissions emit mode expression inputs s).map (·.event) →
      d.contribution = d.value.abs * d.measurement.error ∧ d.contribution.isNegative = false ∧
        d.contribution.abs = (d.value * d.measurement.error).abs) ∧
    r.error = errorOf mode
      (((emissions emit mode expression inputs s).map (·.event)).filterMap (·.contribution?)) := by
  rw [map_event_emissions (quiet_of_ok h)]
  refine ⟨fun d hd => contribution_of_mem_slopesOf (mem_slopesOf_of_mem_reports hd), ?_⟩
  exact (error_of_reference (reference_of_ok h)).trans
    (congrArg _ (filterMap_contribution?_reports mode expression inputs).symm)

/-- Twice a variable has a result, whatever the meddlers do. -/
theorem exists_calculate_meddlers : ∃ r, (calculate (Session.emit meddlers .both) .both
    (.text "2*x") (flat ["x"]) disturbed).1 = .ok r := by
  rcases hr : (calculate (Session.emit meddlers .both) .both (.text "2*x") (flat ["x"])
    disturbed).1 with fault | r
  · have hok : (calculate (Session.emit meddlers .both) .both (.text "2*x") (flat ["x"])
        disturbed).1.toOption.isSome = true := by
      decide +kernel
    rw [hr] at hok
    cases hok
  · exact ⟨r, rfl⟩

end Propagator

/-! ## The two figures -/

/-- How the two figures of contributions go together when nothing is rounded. -/
structure Quadrature (cs : List (ℝ × ℝ)) : Prop where
  /-- the uncorrelated figure is not negative -/
  nonneg : 0 ≤ reals.uncorrelated (reals.terms cs)
  /-- its square is the sum of the squares of derivative times error -/
  square : reals.uncorrelated (reals.terms cs) ^ 2 = (cs.map fun c => (c.1 * c.2) ^ 2).sum
  /-- the order of the contributions is of no account -/
  ordered : ∀ ds, ds.Perm cs →
    reals.uncorrelated (reals.terms ds) = reals.uncorrelated (reals.terms cs)
  /-- neither are the signs of the derivatives -/
  signed : ∀ ds, cs.Forall₂ (fun c d => d.2 = c.2 ∧ (d.1 = c.1 ∨ d.1 = -c.1)) ds →
    reals.uncorrelated (reals.terms ds) = reals.uncorrelated (reals.terms cs)
  /-- it is at most the correlated figure -/
  le : reals.uncorrelated (reals.terms cs) ≤ reals.correlated (reals.terms cs)
  /-- the correlated figure is at most the root of the number of contributions times it -/
  square_le : reals.correlated (reals.terms cs) ^ 2 ≤
    cs.length * reals.uncorrelated (reals.terms cs) ^ 2
  /-- a single contribution has one figure -/
  single : cs.length = 1 → reals.correlated (reals.terms cs) = reals.uncorrelated (reals.terms cs)

theorem map_sq_terms (cs : List (ℝ × ℝ)) :
    (reals.terms cs).map (· ^ 2) = cs.map fun c => (c.1 * c.2) ^ 2 :=
  List.map_map

/-- Signs are lost in squares. -/
theorem map_sq_signed {cs ds : List (ℝ × ℝ)}
    (h : cs.Forall₂ (fun c d => d.2 = c.2 ∧ (d.1 = c.1 ∨ d.1 = -c.1)) ds) :
    (ds.map fun c => (c.1 * c.2) ^ 2) = cs.map fun c => (c.1 * c.2) ^ 2 := by
  induction h with
  | nil => rfl
  | @cons c d cs ds hhead _ ih =>
    obtain ⟨herror, hderivative | hderivative⟩ := hhead
    · rw [List.map_cons, List.map_cons, ih, herror, hderivative]
    · rw [List.map_cons, List.map_cons, ih, herror, hderivative, neg_mul, neg_sq]

/-- Contributions of real numbers have their figures in quadrature and in sum. -/
theorem quadrature (cs : List (ℝ × ℝ)) : Quadrature cs where
  nonneg := uncorrelated_nonneg _
  square := by rw [sq_uncorrelated, map_sq_terms]
  ordered ds h := by
    refine uncorrelated_congr ?_
    rw [map_sq_terms, map_sq_terms, (h.map _).sum_eq]
  signed ds h := by
    refine uncorrelated_congr ?_
    rw [map_sq_terms, map_sq_terms, map_sq_signed h]
  le := uncorrelated_le_correlated _
  square_le := by
    have h := sq_correlated_le (reals.terms cs)
    rwa [terms, List.length_map] at h
  single h := by
    obtain ⟨c, rfl⟩ := List.length_eq_one_iff.1 h
    exact (uncorrelated_singleton _).symm

open Propagator Watched in
/-- **Figures in quadrature.**

* Without rounding, the uncorrelated figure of contributions is the root of the sum of squares, and
  goes together with the correlated figure as `Quadrature` says.
* Doubles are combined with the same reductions.  Where no step of these is rounded, the figures are
  those of the values of the terms.
* Whatever its listeners do, a calculation that succeeds has reported, for each slope, the magnitude
  of slope times error, and its total error is made of what was reported. -/
theorem figures_quadrature :
    (∀ cs : List (ℝ × ℝ), Quadrature cs) ∧
    (∀ mode (cs : List (Double × Double)),
      combine? mode (cs.map fun c => ⟨.float c.1, .float c.2⟩) =
        some (doubles.figures mode (doubles.terms cs))) ∧
    (∀ ts : List Double, UnroundedLegs (ts.map Double.abs) →
      ((doubles.uncorrelated ts).value : ℝ) = reals.uncorrelated (ts.map fun t => (t.value : ℝ))) ∧
    (∀ ts : List Double, Unrounded (ts.map Double.abs) →
      ((doubles.correlated ts).value : ℝ) = reals.correlated (ts.map fun t => (t.value : ℝ))) ∧
    ∀ (ε : Type) (emit : Event → Call ε Unit) (mode : Correlation) (expression inputs : Datum)
      (s : CallState ε) (r : Outcome Double),
      (calculate emit mode expression inputs s).1 = .ok r →
      (∀ d, .differential d ∈ (emissions emit mode expression inputs s).map (·.event) →
        d.contribution = d.value.abs * d.measurement.error ∧ d.contribution.isNegative = false ∧
          d.contribution.abs = (d.value * d.measurement.error).abs) ∧
      r.error = errorOf mode
        (((emissions emit mode expression inputs s).map (·.event)).filterMap (·.contribution?)) :=
  ⟨quadrature, combine?_eq_figures, fun _ => value_uncorrelatedFigure,
    fun _ => value_correlatedFigure, fun _ _ _ _ _ _ _ => reports_of_ok⟩

/-- The doubles three and minus four. -/
def legs : List Double := [.ofRatio false 3 1, .ofRatio true 4 1]

open Propagator Watched in
/-- Three and minus four make five and seven; and a calculation in which listeners meddle reports
what its two figures are made of. -/
theorem figures_quadrature_legs :
    reals.uncorrelated (reals.terms [(1, 3), (-1, 4)]) = 5 ∧
    reals.correlated (reals.terms [(1, 3), (-1, 4)]) = 7 ∧
    (UnroundedLegs (legs.map Double.abs) ∧ ((doubles.uncorrelated legs).value : ℝ) =
      reals.uncorrelated (legs.map fun t => (t.value : ℝ))) ∧
    (Unrounded (legs.map Double.abs) ∧ ((doubles.correlated legs).value : ℝ) =
      reals.correlated (legs.map fun t => (t.value : ℝ))) ∧
    ∃ r, (calculate (Session.emit meddlers .both) .both (.text "2*x") (flat ["x"]) disturbed).1 =
        .ok r ∧
      r.error = errorOf .both (((emissions (Session.emit meddlers .both) .both (.text "2*x")
        (flat ["x"]) disturbed).map (·.event)).filterMap (·.contribution?)) := by
  obtain ⟨hreals, -, hlegs, hsums, hreports⟩ := figures_quadrature
  have hquadrature := hreals [(1, 3), (-1, 4)]
  have hsquare := hquadrature.square
  have hexact : UnroundedLegs (legs.map Double.abs) := by decide +kernel
  have hsum : Unrounded (legs.map Double.abs) := by decide +kernel
  refine ⟨?_, ?_, ⟨hexact, hlegs legs hexact⟩, ⟨hsum, hsums legs hsum⟩, ?_⟩
  · rw [← pow_left_inj₀ hquadrature.nonneg (by norm_num) two_ne_zero, hsquare]
    norm_num
  · rw [correlated_eq_sum, terms]
    norm_num [reals]
  · obtain ⟨r, hr⟩ := exists_calculate_meddlers
    exact ⟨r, hr, (hreports _ _ _ _ _ _ _ hr).2⟩

end ErrorBars
