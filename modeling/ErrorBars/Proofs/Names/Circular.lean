import ErrorBars.Expr.Canonical.Circular
import ErrorBars.Proofs.Names.Sum
import ErrorBars.Proofs.Names.Turn

/-!
# Circular functions are over the variables of their arguments

Values at simple fractions of a turn hold no variables; all other results are put together from the
argument.
-/

set_option autoImplicit false

namespace ErrorBars.Canonical

open Expr (Over OverAll PairsOver)

variable {S : String → Prop} {A : Arith}

/-! ## Remainders -/

@[simp, grind ←] theorem over_modApprox (x y : Binary) (bits : Nat) :
    Over S (modApprox x y bits) := by
  unfold modApprox
  grind -ring -linarith -lia

theorem over_modFinite {p q v : Expr} (h : modFinite p q = some v) : Over S v := by
  unfold modFinite at h
  grind -ring -linarith -lia

grind_pattern over_modFinite => modFinite p q, some v, Over S v

@[grind →] theorem over_modNumbers {p q v : Expr} (h : modNumbers A p q = some v)
    (hA : A.Preserves S) (hp : Over S p) (hq : Over S q) : Over S v := by
  unfold modNumbers at h
  grind -ring -linarith -lia

@[grind →] theorem over_modNested {p q v : Expr} (h : modNested A p q = some v) (hA : A.Preserves S)
    (hp : Over S p) (hq : Over S q) : Over S v := by
  unfold modNested at h
  grind -ring -linarith -lia

@[grind →] theorem over_modulo {p q v : Expr} (h : modulo A p q = some v) (hA : A.Preserves S)
    (hp : Over S p) (hq : Over S q) : Over S v := by
  unfold modulo at h
  grind -ring -linarith -lia

/-! ## Circular functions -/

@[grind ←] theorem over_oneWithSquare {x : Expr} {minus : Bool} (hA : A.Preserves S)
    (hx : Over S x) : Over S (oneWithSquare A minus x) := by
  unfold oneWithSquare
  grind -ring -linarith -lia

@[grind ←] theorem over_oneWithInverseSquare {x : Expr} {minus : Bool} (hA : A.Preserves S)
    (hx : Over S x) : Over S (oneWithInverseSquare A minus x) := by
  unfold oneWithInverseSquare
  grind -ring -linarith -lia

@[grind →] theorem over_sinOfInverse {e v : Expr} (h : sinOfInverse A e = some v)
    (hA : A.Preserves S) (he : Over S e) : Over S v := by
  unfold sinOfInverse at h
  split at h <;> grind -ring -linarith -lia

@[grind →] theorem over_cosOfInverse {e v : Expr} (h : cosOfInverse A e = some v)
    (hA : A.Preserves S) (he : Over S e) : Over S v := by
  unfold cosOfInverse at h
  split at h <;> grind -ring -linarith -lia

@[grind →] theorem over_tanOfInverse {e v : Expr} (h : tanOfInverse A e = some v)
    (hA : A.Preserves S) (he : Over S e) : Over S v := by
  unfold tanOfInverse at h
  grind -ring -linarith -lia

@[grind ←] theorem over_everything : Over S everything :=
  Expr.over_bounds.2 ⟨Expr.over_const _, Expr.over_infinity⟩

@[grind ←] theorem over_withinPeriod {period : Expr} {s : Ends} (hA : A.Preserves S)
    (hperiod : Over S period) (hs : s.Over S) : (withinPeriod A period s).Over S := by
  unfold withinPeriod
  grind -ring -linarith -lia

@[grind ←] theorem over_sinBounds {s : Ends} (hA : A.Preserves S) (hs : s.Over S) : Over S
    (sinBounds A s) := by
  unfold sinBounds
  simp only
  have hwithin := over_withinPeriod hA (over_turn 2 hA) hs
  generalize withinPeriod A (turn A 2) s = t at hwithin
  have hends : (Ends.around A [A.apply .sin [t.lower], A.apply .sin [t.upper]]).Over S := by grind
  refine over_interval ⟨?_, ?_⟩
  · show Over S (if _ then _ else _)
    split
    · exact Expr.over_minusOne
    · exact hends.1
  · show Over S (if _ then _ else _)
    split
    · exact Expr.over_one
    · exact hends.2

@[grind ←] theorem over_tanBounds {s : Ends} (hA : A.Preserves S) (hs : s.Over S) : Over S
    (tanBounds A s) := by
  unfold tanBounds
  simp only
  have hwithin := over_withinPeriod hA Expr.over_pi hs
  generalize withinPeriod A Expr.pi s = t at hwithin
  grind -ring -linarith -lia

@[grind ←] theorem over_quarterTurned {s : Ends} (hA : A.Preserves S) (hs : s.Over S) :
    (quarterTurned A s).Over S := by
  unfold quarterTurned
  grind -ring -linarith -lia

@[grind →] theorem over_sin {e v : Expr} (h : sin A e = some v) (hA : A.Preserves S)
    (he : Over S e) : Over S v := by
  unfold sin at h
  grind -ring -linarith -lia

@[grind →] theorem over_cos {e v : Expr} (h : cos A e = some v) (hA : A.Preserves S)
    (he : Over S e) : Over S v := by
  unfold cos at h
  grind -ring -linarith -lia

@[grind ←] theorem over_tanTenth (n : Int) (hA : A.Preserves S) : Over S (tanTenth A n) := by
  unfold tanTenth
  grind -ring -linarith -lia

@[grind ←] theorem over_tanTenths (n : Int) (hA : A.Preserves S) : Over S (tanTenths A n) := by
  unfold tanTenths
  grind -ring -linarith -lia

@[grind ←] theorem over_tanSixths (n : Int) (hA : A.Preserves S) : Over S (tanSixths A n) := by
  unfold tanSixths
  grind -ring -linarith -lia

@[grind ←] theorem over_tanTurn (r : Rat) (hA : A.Preserves S) : Over S (tanTurn A r) := by
  unfold tanTurn
  grind -ring -linarith -lia

@[grind →] theorem over_tan {e v : Expr} (h : tan A e = some v) (hA : A.Preserves S)
    (he : Over S e) : Over S v := by
  unfold tan at h
  grind -ring -linarith -lia

@[grind ←] theorem over_cotTurn (r : Rat) (hA : A.Preserves S) : Over S (cotTurn A r) := by
  unfold cotTurn
  grind -ring -linarith -lia

@[grind →] theorem over_cot {e v : Expr} (h : cot A e = some v) (hA : A.Preserves S)
    (he : Over S e) : Over S v := by
  unfold cot at h
  grind -ring -linarith -lia

theorem over_reciprocalOf? {e v : Expr} (h : reciprocalOf? e = some v) (he : Over S e) :
    Over S v := by
  unfold reciprocalOf? at h
  grind -ring -linarith -lia

grind_pattern over_reciprocalOf? => reciprocalOf? e, some v, Over S v

theorem over_firstQuarter? {odd minus : Bool} {e v : Expr}
    (h : firstQuarter? A odd e = some (v, minus)) (hA : A.Preserves S) : Over S v := by
  unfold firstQuarter? at h
  grind -ring -linarith -lia

grind_pattern over_firstQuarter? => firstQuarter? A odd e, some (v, minus), Over S v

@[grind →] theorem over_reciprocal {e v : Expr} {f : Func} {odd : Bool}
    (h : reciprocal A f odd e = some v) (hA : A.Preserves S) (he : Over S e) : Over S v := by
  unfold reciprocal at h
  split at h
  · grind
  · split at h
    · grind
    · split at h
      · grind
      · split at h
        · grind
        · have hv : ∀ w, (if odd then sin A e else cos A e) = some w → Over S w := by grind
          grind

@[grind →] theorem over_sinc {e v : Expr} (h : sinc A e = some v) (hA : A.Preserves S)
    (he : Over S e) : Over S v := by
  unfold sinc at h
  grind -ring -linarith -lia

/-! ## Inverse circular functions -/

theorem over_angleOf? {e v : Expr} {f : Func} (h : angleOf? f e = some v) (he : Over S e) :
    Over S v := by
  unfold angleOf? at h
  grind -ring -linarith -lia

grind_pattern over_angleOf? => angleOf? f e, some v, Over S v

@[grind ←] theorem over_reduced {e period : Expr} (hA : A.Preserves S) (he : Over S e)
    (hperiod : Over S period) : Over S (reduced A e period) := by
  unfold reduced
  grind -ring -linarith -lia

@[grind ←] theorem over_sineAngle {x : Expr} (hA : A.Preserves S) (hx : Over S x) : Over S
    (sineAngle A x) := by
  unfold sineAngle
  grind -ring -linarith -lia

@[grind ←] theorem over_cosineAngle {x : Expr} (hA : A.Preserves S) (hx : Over S x) : Over S
    (cosineAngle A x) := by
  unfold cosineAngle
  grind -ring -linarith -lia

@[grind ←] theorem over_belowQuarter {x : Expr} (hA : A.Preserves S) (hx : Over S x) : Over S
    (belowQuarter A x) := by
  unfold belowQuarter
  grind -ring -linarith -lia

@[grind ←] theorem over_tangentAngle {x : Expr} (hA : A.Preserves S) (hx : Over S x) : Over S
    (tangentAngle A x) := by
  unfold tangentAngle
  grind -ring -linarith -lia

@[grind →] theorem over_asin {e v : Expr} (h : asin A e = some v) (hA : A.Preserves S)
    (he : Over S e) : Over S v := by
  unfold asin at h
  grind -ring -linarith -lia

@[grind →] theorem over_arcCosineOfCircular {e v : Expr} (h : arcCosineOfCircular A e = some v)
    (hA : A.Preserves S) (he : Over S e) : Over S v := by
  unfold arcCosineOfCircular at h
  grind -ring -linarith -lia

@[grind →] theorem over_acos {e v : Expr} (h : acos A e = some v) (hA : A.Preserves S)
    (he : Over S e) : Over S v := by
  unfold acos at h
  grind -ring -linarith -lia

@[grind →] theorem over_atan {e v : Expr} (h : atan A e = some v) (hA : A.Preserves S)
    (he : Over S e) : Over S v := by
  unfold atan at h
  grind -ring -linarith -lia

@[grind →] theorem over_realAngle {y x v : Expr} (h : realAngle A y x = some v) (hA : A.Preserves S)
    (hy : Over S y) (hx : Over S x) : Over S v := by
  unfold realAngle at h
  grind -ring -linarith -lia

@[grind →] theorem over_axisAngle {x v : Expr} (h : axisAngle A x = some v) (hA : A.Preserves S)
    (hx : Over S x) : Over S v := by
  unfold axisAngle at h
  grind -ring -linarith -lia

@[grind →] theorem over_atan2 {y x v : Expr} (h : atan2 A y x = some v) (hA : A.Preserves S)
    (hy : Over S y) (hx : Over S x) : Over S v := by
  unfold atan2 at h
  simp only at h
  split at h
  · grind
  · split at h
    · grind
    · generalize (x.isConstant && x.facts.imaginary == some true &&
        (y.isConstant && y.facts.imaginary == some true)) = turning at h
      have hpair : Over S (if turning then (A.apply .im [y], A.apply .im [x]) else (y, x)).1 ∧
          Over S (if turning then (A.apply .im [y], A.apply .im [x]) else (y, x)).2 := by grind
      generalize (if turning = true then (A.apply .im [y], A.apply .im [x]) else (y, x)) = p
        at h hpair
      obtain ⟨hy, hx⟩ := hpair
      obtain ⟨y, x⟩ := p
      simp only at h hy hx
      split at h
      · grind
      · split at h
        · grind
        · have hsize : Over S (A.sqrt (A.add (A.power x (Expr.int 2)) (A.power y (Expr.int 2)))) := by
            grind
          generalize A.sqrt (A.add (A.power x (Expr.int 2)) (A.power y (Expr.int 2))) = size
            at h hsize
          grind -ring -linarith -lia

end ErrorBars.Canonical
