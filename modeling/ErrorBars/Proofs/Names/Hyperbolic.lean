import ErrorBars.Expr.Canonical.Hyperbolic
import ErrorBars.Expr.Canonical.Reciprocal
import ErrorBars.Proofs.Names.Circular

/-!
# Hyperbolic functions and reciprocals are over the variables of their arguments

The hyperbolic functions with their inverses, and the inverses of the reciprocals of circular and
hyperbolic functions.
-/

set_option autoImplicit false

namespace ErrorBars.Canonical

open Expr (Over OverAll PairsOver)

variable {S : String → Prop} {A : Arith}

/-! ## Hyperbolic functions -/

@[grind ←] theorem over_imaginaryTurn (r : Rat) (hA : A.Preserves S) :
    Over S (imaginaryTurn A r) :=
  Arith.over_product_triple hA (Expr.over_rat r) Expr.over_imaginary Expr.over_pi

theorem over_peelImaginaryTurn {e v : Expr} {m : Rat}
    (h : peelImaginaryTurn A e = some (v, m)) (hA : A.Preserves S) (he : Over S e) : Over S v := by
  unfold peelImaginaryTurn at h
  grind -ring -linarith -lia

grind_pattern over_peelImaginaryTurn => peelImaginaryTurn A e, some (v, m), Over S e

@[grind ←] theorem over_conjugateRoots {x : Expr} (hA : A.Preserves S) (hx : Over S x) :
    Over S (A.mul (A.sqrt (A.add x Expr.minusOne)) (A.sqrt (A.add x Expr.one))) := by
  grind

@[grind →] theorem over_sinh {e v : Expr} (h : sinh A e = some v) (hA : A.Preserves S)
    (he : Over S e) : Over S v := by
  unfold sinh at h
  grind -ring -linarith -lia

@[grind →] theorem over_cosh {e v : Expr} (h : cosh A e = some v) (hA : A.Preserves S)
    (he : Over S e) : Over S v := by
  unfold cosh at h
  grind -ring -linarith -lia

@[grind →] theorem over_tanhOfInverse {e v : Expr} (h : tanhOfInverse A e = some v)
    (hA : A.Preserves S) (he : Over S e) : Over S v := by
  unfold tanhOfInverse at h
  grind -ring -linarith -lia

@[grind →] theorem over_tanh {e v : Expr} (h : tanh A e = some v) (hA : A.Preserves S)
    (he : Over S e) : Over S v := by
  unfold tanh at h
  grind -ring -linarith -lia

@[grind →] theorem over_coth {e v : Expr} (h : coth A e = some v) (hA : A.Preserves S)
    (he : Over S e) : Over S v := by
  unfold coth at h
  grind -ring -linarith -lia

@[grind →] theorem over_sech {e v : Expr} (h : sech A e = some v) (hA : A.Preserves S)
    (he : Over S e) : Over S v := by
  unfold sech at h
  grind -ring -linarith -lia

@[grind →] theorem over_csch {e v : Expr} (h : csch A e = some v) (hA : A.Preserves S)
    (he : Over S e) : Over S v := by
  unfold csch at h
  grind -ring -linarith -lia

/-! ## Inverse hyperbolic functions -/

theorem over_hyperbolicArgument? {e v : Expr} {f : Func} (h : hyperbolicArgument? f e = some v)
    (he : Over S e) : Over S v := by
  unfold hyperbolicArgument? at h
  grind -ring -linarith -lia

grind_pattern over_hyperbolicArgument? => hyperbolicArgument? f e, some v, Over S v

@[grind →] theorem over_nonreal? {e : Expr} {z : Cartesian} (h : nonreal? A e = some z)
    (hA : A.Preserves S) (he : Over S e) : Over S z.re ∧ Over S z.im :=
  over_cartesian? (Option.filter_eq_some_iff.1 h).1 hA he

@[grind ←] theorem over_withoutTurns {x : Expr} {r : Rat} (hA : A.Preserves S) (hx : Over S x) :
    Over S (withoutTurns A x r) := by
  unfold withoutTurns
  grind -ring -linarith -lia

@[grind →] theorem over_sinhArgument {x v : Expr} (h : sinhArgument A x = some v)
    (hA : A.Preserves S) (hx : Over S x) : Over S v := by
  unfold sinhArgument at h
  grind -ring -linarith -lia

@[grind →] theorem over_coshArgument {x v : Expr} (h : coshArgument A x = some v)
    (hA : A.Preserves S) (hx : Over S x) : Over S v := by
  unfold coshArgument at h
  grind -ring -linarith -lia

@[grind →] theorem over_tanhArgument {x v : Expr} (h : tanhArgument A x = some v)
    (hA : A.Preserves S) (hx : Over S x) : Over S v := by
  unfold tanhArgument at h
  grind -ring -linarith -lia

@[grind →] theorem over_asinh {e v : Expr} (h : asinh A e = some v) (hA : A.Preserves S)
    (he : Over S e) : Over S v := by
  unfold asinh at h
  grind -ring -linarith -lia

@[grind →] theorem over_acoshOfInfinite? {e v : Expr} (h : acoshOfInfinite? A e = some v)
    (hA : A.Preserves S) : Over S v := by
  unfold acoshOfInfinite? at h
  grind -ring -linarith -lia

@[grind →] theorem over_acosh {e v : Expr} (h : acosh A e = some v) (hA : A.Preserves S)
    (he : Over S e) : Over S v := by
  unfold acosh at h
  simp only at h
  repeat' split at h
  all_goals grind -ring -linarith -lia

@[grind →] theorem over_atanh {e v : Expr} (h : atanh A e = some v) (hA : A.Preserves S)
    (he : Over S e) : Over S v := by
  unfold atanh at h
  grind -ring -linarith -lia

/-! ## Inverses of reciprocals -/

@[grind →] theorem over_acot {e v : Expr} (h : acot A e = some v) (hA : A.Preserves S)
    (he : Over S e) : Over S v := by
  unfold acot at h
  grind -ring -linarith -lia

@[grind →] theorem over_arcSecantOfReciprocal {e v : Expr} (h : arcSecantOfReciprocal A e = some v)
    (hA : A.Preserves S) (he : Over S e) : Over S v := by
  unfold arcSecantOfReciprocal at h
  grind -ring -linarith -lia

@[grind →] theorem over_asec {e v : Expr} (h : asec A e = some v) (hA : A.Preserves S)
    (he : Over S e) : Over S v := by
  unfold asec at h
  grind -ring -linarith -lia

@[grind →] theorem over_acsc {e v : Expr} (h : acsc A e = some v) (hA : A.Preserves S)
    (he : Over S e) : Over S v := by
  unfold acsc at h
  grind -ring -linarith -lia

@[grind →] theorem over_acoth {e v : Expr} (h : acoth A e = some v) (hA : A.Preserves S)
    (he : Over S e) : Over S v := by
  unfold acoth at h
  grind -ring -linarith -lia

@[grind →] theorem over_asech {e v : Expr} (h : asech A e = some v) (hA : A.Preserves S)
    (he : Over S e) : Over S v := by
  unfold asech at h
  simp only at h
  repeat' split at h
  all_goals grind -ring -linarith -lia

@[grind →] theorem over_acsch {e v : Expr} (h : acsch A e = some v) (hA : A.Preserves S)
    (he : Over S e) : Over S v := by
  unfold acsch at h
  grind -ring -linarith -lia

end ErrorBars.Canonical
