import ErrorBars.Proofs.Poles.Promise
import ErrorBars.Proofs.Quadrature

/-!
# Calculations and what the engine promises

The measured values at which a calculation evaluates are finite (`Setting.isSpecial_point`).  A
calculation that has a result has evaluated the formula and all of its derivatives there, so that it
fails if one of them has no value (`evaluates_of_ok`).  Its value is finite unless the formula
breaks the promise at the measured point.

`evaluate_promise` puts together what holds of the promise, and `evaluate_at_poles` shows how it is
broken.
-/

set_option autoImplicit false

namespace ErrorBars

open Expr Evaluation

/-! ## The measured point -/

/-- **Variables have finite values.** -/
theorem isFinite_of_readVariables {inputs : Datum} {vs : Variables}
    (h : readVariables inputs = .ok vs) : ∀ v ∈ vs, v.2.value.isFinite = true := by
  have hcheck (d : Datum) (m : Measurement) (hm : Measurement.check d = .ok (.ok m)) :
      m.value.isFinite = true := by
    obtain ⟨v, e, -, hv, -⟩ := Measurement.check_eq_ok hm
    exact Measurement.isFinite_of_finite? hv
  exact of_readVariables hcheck h

namespace Propagator

open Watched

variable {ε : Type}

theorem isSpecial_doubleExpr {x : Double} (h : x.isFinite = true) :
    Bindings.isSpecial (doubleExpr x) = false := by
  cases x with
  | finite => rfl
  | _ => cases h

/-- The values at the measured point are finite numbers. -/
theorem Setting.isSpecial_point {expression inputs : Datum} {S : Setting}
    (h : opening expression inputs = .ok S) : ∀ b ∈ S.point, Bindings.isSpecial b.2 = false := by
  refine List.forall_mem_map.2 fun v hv => isSpecial_doubleExpr ?_
  exact isFinite_of_readVariables (opening_eq_ok h).2.1 v hv

/-! ## Calculations with a result -/

/-- What has been evaluated where there is a result. -/
structure Evaluates (S : Setting) (r : Outcome Double) : Prop where
  /-- the measured values are finite numbers -/
  point : ∀ b ∈ S.point, Bindings.isSpecial b.2 = false
  /-- the value is that of the formula -/
  value : S.formula.evaluate S.point = .ok r.value
  /-- it is finite if the formula keeps the promise -/
  value_finite : ¬ Breaks S.point S.formula → r.value.isFinite = true
  /-- each derivative has a value, which is finite if the derivative keeps the promise -/
  slope : ∀ name ∈ S.names, ∃ x, (S.formula.differentiate name).evaluate S.point = .ok x ∧
    (¬ Breaks S.point (S.formula.differentiate name) → x.isFinite = true)

/-- An expression that keeps the promise has a finite value, if any. -/
theorem isFinite_of_not_breaks {bs : Bindings} {e : Expr} {x : Double}
    (hx : e.evaluate bs = .ok x) (h : ¬ Breaks bs e) : x.isFinite = true := by
  have hkept := (promised_iff bs e).2 h
  rwa [hx] at hkept

/-- **A calculation with a result** has evaluated the formula and its derivatives. -/
theorem evaluates_of_ok {emit : Event → Call ε Unit} {mode : Correlation}
    {expression inputs : Datum} {s : CallState ε} {r : Outcome Double}
    (h : (calculate emit mode expression inputs s).1 = .ok r) :
    ∃ S, opening expression inputs = .ok S ∧ Evaluates S r := by
  have hr := reference_of_ok h
  cases hS : opening expression inputs with
  | error fault =>
    rw [reference_eq_error mode hS] at hr
    cases hr
  | ok S =>
    have hcourse := course_survey mode hS
    rw [← reference_eq_conclusion mode hS, hr] at hcourse
    refine ⟨S, rfl, ?_⟩
    cases hcourse.ends with
    | result all holds _ =>
      refine ⟨S.isSpecial_point hS, holds, isFinite_of_not_breaks holds, fun name hname => ?_⟩
      rw [← all] at hname
      obtain ⟨d, hd, rfl⟩ := List.mem_map.1 hname
      obtain ⟨hexpression, hslope⟩ := hcourse.slope d hd
      rw [hexpression] at hslope
      exact ⟨d.value, hslope, isFinite_of_not_breaks hslope⟩

end Propagator

/-! ## The promise as a whole -/

open Propagator in
/-- **What becomes of the promise.**

* An evaluation ends with a finite real number, or with a fault of the expression, exactly if none
  of the things in `Breaks` happens.
* None of them does where an expression keeps away from poles, but that the value may be too large
  for a double, and the expression too long for a fault to be worded.
* Whatever its listeners do, a calculation has a result only if the formula and all its derivatives
  have values at the measured point. -/
theorem evaluate_promise {ε : Type} (bs : Bindings) (e : Expr) (emit : Event → Call ε Unit)
    (mode : Correlation) (expression inputs : Datum) (s : CallState ε) :
    (Promised (e.evaluate bs) ↔ ¬ Breaks bs e) ∧
    (PoleFree bs e → PoleFreeAnswer e (e.evaluate bs)) ∧
    ∀ r, (calculate emit mode expression inputs s).1 = .ok r →
      ∃ S, opening expression inputs = .ok S ∧ Evaluates S r :=
  ⟨promised_iff bs e, fun h => h.answer, fun _ => evaluates_of_ok⟩

/-- A reciprocal, a logarithm and a wave. -/
def swell : Expr :=
  .app .add [.app .pow [.symbol "x", .rat (-1)], .app (.fn .log) [.symbol "x"],
    .app .mul [.app (.fn .exp) [.symbol "x"], .app (.fn .sin) [.symbol "y"]]]

/-- Two as a double, and one. -/
def offshore : Bindings := [("x", .float ⟨1, 1⟩ 53), ("y", .rat 1)]

theorem poleFree_swell : PoleFree offshore swell := by
  have hx : PoleFree offshore (.symbol "x") := .symbol rfl rfl
  have hy : PoleFree offshore (.symbol "y") := .symbol rfl rfl
  have hreciprocal : PoleFree offshore (.app .pow [.symbol "x", .rat (-1)]) :=
    .reciprocal (n := -1) rfl (hasNumberAs_float 53 one_ne_zero)
  have hlogarithm : PoleFree offshore (.app (.fn .log) [.symbol "x"]) :=
    .logarithm (moderate_float 53 one_pos (by decide) (by decide))
  have hwave : PoleFree offshore
      (.app .mul [.app (.fn .exp) [.symbol "x"], .app (.fn .sin) [.symbol "y"]]) := by
    refine .product ?_
    simp only [List.forall_mem_cons, List.not_mem_nil, false_implies, implies_true, and_true]
    exact ⟨.function (by decide) hx, .function (by decide) hy⟩
  refine .sum ?_
  simp only [List.forall_mem_cons, List.not_mem_nil, false_implies, implies_true, and_true]
  exact ⟨hreciprocal, hlogarithm, hwave⟩

open Propagator Watched in
/-- Out there the promise is kept, and a calculation in which listeners meddle has a result. -/
theorem evaluate_promise_swell :
    ¬ Breaks offshore swell ∧
    (PoleFree offshore swell ∧ PoleFreeAnswer swell (swell.evaluate offshore)) ∧
    ∃ r, (calculate (Session.emit meddlers .both) .both (.text "2*x") (flat ["x"]) disturbed).1 =
        .ok r ∧
      ∃ S, opening (.text "2*x") (flat ["x"]) = .ok S ∧ Evaluates S r := by
  obtain ⟨hkept, hfree, hcalculate⟩ := evaluate_promise offshore swell
    (Session.emit meddlers .both) .both (.text "2*x") (flat ["x"]) disturbed
  refine ⟨hkept.1 (by decide +kernel), ⟨poleFree_swell, hfree poleFree_swell⟩, ?_⟩
  obtain ⟨r, hr⟩ := exists_calculate_meddlers
  exact ⟨r, hr, hcalculate r hr⟩

open Propagator in
/-- **How the promise is broken.**  The logarithm of zero is minus infinity, the reciprocal of a
double that is zero a division by zero, and the quotient of zero by zero has a calculation with a
result. -/
theorem evaluate_at_poles :
    (app (.fn .log) [.symbol "x"]).evaluate [("x", .rat 0)] = .ok (.infinite true) ∧
    (app .pow [.symbol "x", .rat (-1)]).evaluate [("x", .float Binary.zero 53)] =
      .error .divisionByZero ∧
    (calculate (Session.emit meddlers .both) .both (.text "0/0") .none disturbed).1.toOption.map
      (·.value) = some .nan ∧
    ¬ ∀ (bs : Bindings) (e : Expr), (∀ b ∈ bs, Bindings.isSpecial b.2 = false) →
      Promised (e.evaluate bs) := by
  have hlog : (app (.fn .log) [.symbol "x"]).evaluate [("x", .rat 0)] = .ok (.infinite true) :=
    evaluate_log_of_vanishes fun _ _ => ⟨none, rfl, rfl⟩
  have hreciprocal : (app .pow [.symbol "x", .rat (-1)]).evaluate [("x", .float Binary.zero 53)] =
      .error .divisionByZero :=
    evaluate_power_of_double_zero (n := -1) rfl (by decide) (hasNumberAs_float 53 rfl)
  refine ⟨hlog, hreciprocal, by decide +kernel, fun h => ?_⟩
  have hkept := h [("x", .rat 0)] (app (.fn .log) [.symbol "x"])
    (List.forall_mem_singleton.2 rfl)
  rw [hlog] at hkept
  cases hkept

end ErrorBars
