import ErrorBars.Proofs.Poles.Logarithm

/-!
# Expressions away from their poles

`PoleFree` says of an expression that nothing in it comes upon a pole at a point: whatever is
divided by, or taken the logarithm of, keeps away from zero there.  By induction along the
expression, each part of which brings in the evaluator that it is evaluated with, such an expression
evaluates to a number (`PoleFree.hasNumber`), and this is what it comes to (`PoleFree.reach`).
-/

set_option autoImplicit false

namespace ErrorBars

open Evaluation Evaluated Extended

namespace Expr

/-! ## Evaluators at a point -/

/-- The evaluator of an expression at a point. -/
def evaluatorAt (bs : Bindings) (e : Expr) : Evaluator := e.evaluatorIn (environmentAt bs)

attribute [local simp] evaluatorIn evaluatorsIn

variable {bs : Bindings} {e : Expr}

theorem evaluatorAt_symbol {s : String} {v : Expr} (h : bs.lookup s = some v) :
    evaluatorAt bs (.symbol s) = leaf v := by
  simp [evaluatorAt, environmentAt, h]

theorem evaluatorsIn_eq_map (env : Environment) (as : List Expr) :
    evaluatorsIn env as = as.map (evaluatorIn env) := by
  induction as with
  | nil => simp
  | cons a as ih => simp [ih]

theorem evaluatorAt_sum (as : List Expr) :
    evaluatorAt bs (.app .add as) = Evaluation.sum (as.map (evaluatorAt bs)) := by
  rw [evaluatorAt, evaluatorIn, evaluatorsIn_eq_map]
  rfl

theorem evaluatorAt_product (as : List Expr) :
    evaluatorAt bs (.app .mul as) = Evaluation.product (as.map (evaluatorAt bs)) := by
  rw [evaluatorAt, evaluatorIn, evaluatorsIn_eq_map]
  rfl

section Powers

variable {b : Expr}

theorem evaluatorAt_power {n : ℤ} (he : e.int? = some n) :
    evaluatorAt bs (.app .pow [b, e]) = powerInt (evaluatorAt bs b) n := by
  rw [evaluatorAt, evaluatorIn, he]
  rfl

theorem evaluatorAt_root : evaluatorAt bs (.app .pow [b, half]) = squareRoot (evaluatorAt bs b) := by
  have hint : half.int? = none := by decide +kernel
  have hhalf : (half == half) = true := by decide +kernel
  rw [evaluatorAt, evaluatorIn, hint]
  exact if_pos hhalf

theorem evaluatorAt_exponential (he : e.int? = none) (hhalf : (e == half) = false) :
    evaluatorAt bs (.app .pow [euler, e]) = Evaluation.exponential (evaluatorAt bs e) := by
  have heuler : (euler == euler) = true := rfl
  rw [evaluatorAt, evaluatorIn, he]
  simp only [hhalf, heuler, Bool.false_eq_true, if_false, if_true]
  rfl

theorem evaluatorAt_broken (he : e.int? = none) (hhalf : (e == half) = false)
    (heuler : (b == euler) = false) :
    evaluatorAt bs (.app .pow [b, e]) =
      powerGeneral (evaluatorAt bs b) (evaluatorAt bs e) e.isRational (e.rat?.any (· < 0)) := by
  rw [evaluatorAt, evaluatorIn, he]
  simp only [hhalf, heuler, Bool.false_eq_true, if_false]
  rfl

end Powers

section Functions

variable {f : Func} {a : Expr}

/-- These functions have a number for every number. -/
theorem hasNumber_function (hf : f ∈ [.exp, .sin, .cos, .abs, .re, .im])
    (h : HasNumber (evaluatorAt bs a)) : HasNumber (evaluatorAt bs (.app (.fn f) [a])) := by
  simp only [List.mem_cons, List.not_mem_nil, or_false] at hf
  rcases hf with rfl | rfl | rfl | rfl | rfl | rfl
  · exact hasNumber_exponential h
  · exact hasNumber_circular false h
  · exact hasNumber_circular true h
  · exact hasNumber_absolute h
  · exact fun bits limit => yields_partFrom (fun v => IsNumber.re?) h bits limit 8
  · exact fun bits limit => yields_partFrom (fun v => IsNumber.im?) h bits limit 8

theorem evaluatorAt_integerPart (hf : f ∈ [.floor, .ceiling]) : ∃ up,
    evaluatorAt bs (.app (.fn f) [a]) =
      Evaluation.integerPart up bs.isFractional (evaluatorAt bs a) := by
  simp only [List.mem_cons, List.not_mem_nil, or_false] at hf
  rcases hf with rfl | rfl
  · exact ⟨false, rfl⟩
  · exact ⟨true, rfl⟩

end Functions

/-! ## Expressions without poles at a point -/

/-- An expression has no poles at a point if it is built from numbers and from variables with finite
values by operations that are defined there: no negative power of zero, no power with a broken
exponent except of what is positive, no logarithm except of what is positive and of moderate size,
and no integer part while a variable has a value that is not whole. -/
inductive PoleFree (bs : Bindings) : Expr → Prop where
  | rational (q : Rat) : PoleFree bs (.rat q)
  | float (x : Binary) (b : ℕ) : PoleFree bs (.float x b)
  | constant {c : Const} (h : c.isFinite = true) : PoleFree bs (.const c)
  | symbol {s : String} {v : Expr} (h : bs.lookup s = some v) (hv : Bindings.isSpecial v = false) :
      PoleFree bs (.symbol s)
  | sum {as : List Expr} (h : ∀ a ∈ as, PoleFree bs a) : PoleFree bs (.app .add as)
  | product {as : List Expr} (h : ∀ a ∈ as, PoleFree bs a) : PoleFree bs (.app .mul as)
  | power {b e : Expr} {n : ℤ} (he : e.int? = some n) (hn : 0 ≤ n) (h : PoleFree bs b) :
      PoleFree bs (.app .pow [b, e])
  | reciprocal {b e : Expr} {n : ℤ} (he : e.int? = some n) (h : Nonzero (evaluatorAt bs b)) :
      PoleFree bs (.app .pow [b, e])
  | root {b : Expr} (h : PoleFree bs b) : PoleFree bs (.app .pow [b, half])
  | exponential {e : Expr} (he : e.int? = none) (hhalf : (e == half) = false) (h : PoleFree bs e) :
      PoleFree bs (.app .pow [euler, e])
  | broken {b e : Expr} (he : e.int? = none) (hhalf : (e == half) = false)
      (heuler : (b == euler) = false) (h : Positive (evaluatorAt bs b))
      (hline : OnLine (evaluatorAt bs e)) : PoleFree bs (.app .pow [b, e])
  | function {f : Func} {a : Expr} (hf : f ∈ [.exp, .sin, .cos, .abs, .re, .im])
      (h : PoleFree bs a) : PoleFree bs (.app (.fn f) [a])
  | logarithm {a : Expr} (h : Moderate (evaluatorAt bs a)) : PoleFree bs (.app (.fn .log) [a])
  | arcTangent {a : Expr} (h : OnLine (evaluatorAt bs a)) : PoleFree bs (.app (.fn .atan) [a])
  | integerPart {f : Func} {a : Expr} (hf : f ∈ [.floor, .ceiling])
      (hwhole : bs.isFractional = false) (h : PoleFree bs a) : PoleFree bs (.app (.fn f) [a])

theorem hasNumber_leaf {v : Expr} (h : Bindings.isSpecial v = false) : HasNumber (leaf v) := by
  cases v with
  | rat q => exact hasNumber_rational q
  | float x b => exact hasNumber_float x b
  | _ => cases h

/-- **An expression without poles evaluates to a number**, to whatever bits. -/
theorem PoleFree.hasNumber (h : PoleFree bs e) : HasNumber (evaluatorAt bs e) := by
  induction h with
  | rational q => exact hasNumber_rational q
  | float x b => exact hasNumber_float x b
  | constant h => exact hasNumber_constant h
  | symbol h hv => exact evaluatorAt_symbol h ▸ hasNumber_leaf hv
  | sum _ ih => exact evaluatorAt_sum _ ▸ hasNumber_sum (List.forall_mem_map.2 ih)
  | product _ ih => exact evaluatorAt_product _ ▸ hasNumber_product (List.forall_mem_map.2 ih)
  | power he hn _ ih => exact evaluatorAt_power he ▸ hasNumber_powerInt ih hn
  | reciprocal he h => exact evaluatorAt_power he ▸ hasNumber_powerInt_of_nonzero h _
  | root _ ih => exact evaluatorAt_root ▸ hasNumber_squareRoot ih
  | exponential he hhalf _ ih => exact evaluatorAt_exponential he hhalf ▸ hasNumber_exponential ih
  | broken he hhalf heuler h hline =>
    rw [evaluatorAt_broken he hhalf heuler]
    exact hasNumber_powerGeneral h hline _ _
  | function hf _ ih => exact hasNumber_function hf ih
  | logarithm h => exact hasNumber_logarithm h
  | arcTangent h => exact hasNumber_arcTangent h
  | integerPart hf hwhole _ ih =>
    obtain ⟨up, hup⟩ := evaluatorAt_integerPart hf
    rw [hup, hwhole]
    exact hasNumber_integerPart up ih

/-- Followed down to the variables, an expression comes to what its evaluator gives. -/
theorem reachPlainly_of_ok {v : Evaluated}
    (h : evaluatorAt bs e pointBits.1 pointBits.2 = .ok v) :
    reachPlainly bs e = .ok (.value v) := by
  rw [evaluatorAt] at h
  rw [reachPlainly, h]

/-- What an expression without poles comes to is what it evaluates to. -/
theorem PoleFree.reach (h : PoleFree bs e) : ∃ v, e.reach bs = .ok (.value v) ∧ v.IsNumber := by
  obtain ⟨v, hv, hnumber⟩ := h.hasNumber pointBits.1 pointBits.2 le_rfl
  refine ⟨v, ?_, hnumber⟩
  rw [← reachPlainly_of_ok hv]
  cases h with
  | function hf _ =>
    simp only [List.mem_cons, List.not_mem_nil, or_false] at hf
    rcases hf with rfl | rfl | rfl | rfl | rfl | rfl <;> rfl
  | integerPart hf _ _ =>
    simp only [List.mem_cons, List.not_mem_nil, or_false] at hf
    rcases hf with rfl | rfl <;> rfl
  | _ => rfl

end Expr
end ErrorBars
