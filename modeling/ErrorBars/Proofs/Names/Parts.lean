import ErrorBars.Expr.Canonical.Separation
import ErrorBars.Expr.Canonical.Parts
import ErrorBars.Proofs.Names.Circular

/-!
# Parts of numbers are over the variables of the number

Real and imaginary parts are pairs of expressions (`Cartesian.Over`), found term by term.  Angles,
absolute values, signs and roundings are made from them.
-/

set_option autoImplicit false

namespace ErrorBars.Canonical

open Expr (Over OverAll PairsOver)

variable {S : String → Prop} {A : Arith}

/-! ## Real and imaginary parts -/

/-- Both parts are over these variables. -/
@[grind =] def Cartesian.Over (S : String → Prop) (z : Cartesian) : Prop :=
  Expr.Over S z.re ∧ Expr.Over S z.im

@[grind ←] theorem over_partsOf {e : Expr} (hA : A.Preserves S) (he : Over S e) :
    Cartesian.Over S (partsOf A e) :=
  ⟨Arith.over_apply_single hA he, Arith.over_apply_single hA he⟩

@[grind ←] theorem over_partsOf_re {e : Expr} (hA : A.Preserves S) (he : Over S e) :
    Over S (partsOf A e).re := Arith.over_apply_single hA he

@[grind ←] theorem over_partsOf_im {e : Expr} (hA : A.Preserves S) (he : Over S e) :
    Over S (partsOf A e).im := Arith.over_apply_single hA he

@[grind ←] theorem over_cartesianMul {z w : Cartesian} (hA : A.Preserves S) (hz : z.Over S)
    (hw : w.Over S) : (z.mul A w).Over S := by
  unfold Cartesian.mul
  grind -ring -linarith -lia

/-- Factors told apart by their parts are over these variables. -/
@[grind =] def SeparatedFactors.Over (S : String → Prop) (s : SeparatedFactors) : Prop :=
  OverAll S s.real ∧ OverAll S s.imaginary ∧ OverAll S s.sums ∧ OverAll S s.others

theorem over_separateFactors {fs : List Expr} (hA : A.Preserves S) (h : OverAll S fs) :
    (separateFactors A fs).Over S := by
  unfold separateFactors
  induction fs with
  | nil => grind
  | cons f fs ih => grind

@[grind →] theorem over_separateProduct? {whole : Expr} {fs : List Expr} {z : Cartesian}
    (h : separateProduct? A whole fs = some z) (hA : A.Preserves S) (hfs : OverAll S fs) :
    z.Over S := by
  have hs := over_separateFactors hA hfs
  unfold separateProduct? at h
  grind -ring -linarith -lia

@[grind ←] theorem over_separatePower {z : Cartesian} {n : Nat} (hA : A.Preserves S)
    (hz : z.Over S) : (separatePower A z n).Over S := by
  unfold separatePower
  grind -ring -linarith -lia

@[grind ←] theorem over_cartesianInv {z : Cartesian} (hA : A.Preserves S) (hz : z.Over S) :
    (z.inv A).Over S := by
  unfold Cartesian.inv
  grind -ring -linarith -lia

@[grind ←] theorem over_separateRoot {z : Cartesian} {e : Expr} (hA : A.Preserves S)
    (hz : z.Over S) (he : Over S e) : (separateRoot A z e).Over S := by
  unfold separateRoot
  grind -ring -linarith -lia

@[grind →] theorem over_separateExponent? {b x : Expr} {z : Cartesian}
    (h : separateExponent? A b x = some z) (hA : A.Preserves S) (hb : Over S b) (hx : Over S x) :
    z.Over S := by
  unfold separateExponent? at h
  grind -ring -linarith -lia

@[grind ←] theorem over_openTerms {e : Expr} (hA : A.Preserves S) (he : Over S e) :
    Over S (openTerms A e) := by
  unfold openTerms
  grind -ring -linarith -lia

@[grind →] theorem over_separateFunction? {f : Func} {x : Expr} {z : Cartesian}
    (h : separateFunction? A f x = some z) (hA : A.Preserves S) (hx : Over S x) : z.Over S := by
  have hparts := over_partsOf hA (over_openTerms hA hx)
  unfold separateFunction? at h
  grind -ring -linarith -lia

@[grind →] theorem over_separate? {whole term : Expr} {z : Cartesian}
    (h : separate? A whole term = some z) (hA : A.Preserves S) (hterm : Over S term) :
    z.Over S := by
  unfold separate? at h
  grind -ring -linarith -lia

/-- What a term gives to a part is over these variables. -/
@[grind =] def PartOfTerm.Over (S : String → Prop) : PartOfTerm → Prop
  | .found e => Expr.Over S e
  | .turned e => Expr.Over S e
  | .kept e => Expr.Over S e

@[grind ←] theorem over_partOfTerm {imaginary : Bool} {whole t : Expr} (hA : A.Preserves S)
    (ht : Over S t) : (partOfTerm A imaginary whole t).Over S := by
  unfold partOfTerm
  grind -ring -linarith -lia

@[grind →] theorem over_partByTerms {e v : Expr} {imaginary : Bool}
    (h : partByTerms A imaginary e = some v) (hA : A.Preserves S) (he : Over S e) : Over S v := by
  have hparts : ∀ p ∈ e.terms.map (partOfTerm A imaginary e), p.Over S :=
    List.forall_mem_map.2 fun t ht => over_partOfTerm hA (Expr.overAll_terms he t ht)
  unfold partByTerms at h
  simp only at h
  generalize e.terms.map (partOfTerm A imaginary e) = parts at h hparts
  have hpick : ∀ f : PartOfTerm → Option Expr, (∀ p t, p.Over S → f p = some t → Over S t) →
      OverAll S (parts.filterMap f) := fun f hf =>
    Expr.overAll_filterMap fun p hp t ht => hf p t (hparts p hp) ht
  split at h
  · simp at h
  · obtain rfl := Option.some.inj h
    refine Arith.over_sum_triple hA (Arith.over_apply_single hA (hA.sum ?_)) ?_ (hA.sum ?_)
    · exact hpick _ fun p t hp ht => by cases p <;> grind
    · have hturned : ∀ (g : Func) (f : PartOfTerm → Option Expr),
          (∀ p t, p.Over S → f p = some t → Over S t) →
            Over S (A.apply g [A.sum (parts.filterMap f)]) := fun _ f hf =>
        Arith.over_apply_single hA (hA.sum (hpick f hf))
      split
      · exact hturned _ _ fun p t hp ht => by cases p <;> grind
      · exact Arith.over_neg hA (hturned _ _ fun p t hp ht => by cases p <;> grind)
    · exact hpick _ fun p t hp ht => by cases p <;> grind

@[grind →] theorem over_re {e v : Expr} (h : re A e = some v) (hA : A.Preserves S) (he : Over S e) :
    Over S v := by
  unfold re at h
  grind -ring -linarith -lia

@[grind →] theorem over_im {e v : Expr} (h : im A e = some v) (hA : A.Preserves S) (he : Over S e) :
    Over S v := by
  unfold im at h
  grind -ring -linarith -lia

/-! ## Angles -/

@[grind ←] theorem over_withoutSize {e : Expr} (hA : A.Preserves S) (he : Over S e) : Over S
    (withoutSize A e) := by
  have hscaled : ∀ q : Rat, Over S (A.sum (e.terms.map fun t => A.mul (.rat q) t)) := fun q =>
    hA.sum (Expr.overAll_map fun t ht =>
      Arith.over_mul hA (Expr.over_rat q) (Expr.overAll_terms he t ht))
  unfold withoutSize
  split
  · exact he
  · simp only
    generalize List.foldl _ _ _ = content
    have hscaled : Over S (if e.isAdd && content ≠ 0 then
        A.sum (e.terms.map fun t => A.mul (.rat (1 / content)) t) else e) := by
      split
      · exact hscaled _
      · exact he
    generalize (if e.isAdd && content ≠ 0 then
        A.sum (e.terms.map fun t => A.mul (.rat (1 / content)) t) else e) = scaled at hscaled
    have hrest := (Expr.over_coeffMul hscaled).2
    have hsign : OverAll S (scaled.coeffMul.2.factors.map fun f =>
        if f.isPositive then Expr.one else if f.isNegative then Expr.minusOne else f) := by
      refine Expr.overAll_map fun f hf => ?_
      have := Expr.overAll_factors hrest f hf
      grind
    grind -ring -linarith -lia

@[grind →] theorem over_angle {e v : Expr} (h : angle A e = some v) (hA : A.Preserves S)
    (he : Over S e) : Over S v := by
  unfold angle at h
  grind -ring -linarith -lia

/-! ## Absolute value, sign and rounding -/

@[grind ←] theorem over_absOfProduct {fs : List Expr} (hA : A.Preserves S) (h : OverAll S fs) :
    Over S (absOfProduct A fs) := by
  have hsize : ∀ t, Over S t → ∀ s, (if (A.apply .abs [t]).isFnOf .abs then none
      else some (A.apply .abs [t])) = some s → Over S s := by grind
  unfold absOfProduct
  extract_lets size sized known rest unknown
  have hsized : ∀ p ∈ sized, Over S p.1 ∧ ∀ s, p.2 = some s → Over S s := by
    refine List.forall_mem_map.2 fun t ht => ⟨h t ht, fun s hs => ?_⟩
    have ht := h t ht
    grind
  have hknown : OverAll S known := Expr.overAll_filterMap fun p hp s hs => (hsized p hp).2 s hs
  have hrest : OverAll S rest := Expr.overAll_map fun p hp => (hsized p (List.mem_filter.1 hp).1).1
  have hunknown : Over S unknown := by grind
  exact hA.product (by simp [hknown, hunknown])

@[grind →] theorem over_absOfPower {b x v : Expr} (h : absOfPower A b x = some v)
    (hA : A.Preserves S) (hb : Over S b) (hx : Over S x) : Over S v := by
  have hparts := over_partsOf hA (Arith.over_apply_single (f := .log) hA hb)
  unfold absOfPower at h
  simp only at h
  generalize partsOf A (A.apply .log [b]) = z at h hparts
  have hexponent : Over S (A.mul x (A.add z.re (A.mul Expr.imaginary z.im))) := by grind
  have hangle : Over S (A.neg (A.mul Expr.pi (A.apply .im [x]))) := by grind
  repeat' split at h
  all_goals grind -ring -linarith -lia

@[grind →] theorem over_absOfKnown {e v : Expr} (h : absOfKnown A e = some v) (hA : A.Preserves S)
    (he : Over S e) : Over S v := by
  unfold absOfKnown at h
  grind -ring -linarith -lia

@[grind →] theorem over_abs {e v : Expr} (h : abs A e = some v) (hA : A.Preserves S)
    (he : Over S e) : Over S v := by
  unfold abs at h
  grind -ring -linarith -lia

@[grind →] theorem over_sign {e v : Expr} (h : sign A e = some v) (hA : A.Preserves S)
    (he : Over S e) : Over S v := by
  unfold sign at h
  grind -ring -linarith -lia

theorem over_wholeTerm? {e v : Expr} (h : wholeTerm? e = some v) (he : Over S e) : Over S v := by
  unfold wholeTerm? at h
  grind -ring -linarith -lia

grind_pattern over_wholeTerm? => wholeTerm? e, some v, Over S v

@[grind →] theorem over_gaussianTerm? {e v : Expr} (h : gaussianTerm? A e = some v)
    (hA : A.Preserves S) (he : Over S e) : Over S v := by
  unfold gaussianTerm? at h
  grind -ring -linarith -lia

@[grind →] theorem over_rounding {e v : Expr} {up : Bool} (h : rounding A up e = some v)
    (hA : A.Preserves S) (he : Over S e) : Over S v := by
  have hwhole : OverAll S (e.terms.filterMap (gaussianTerm? A)) :=
    Expr.overAll_filterMap fun t ht s hs => over_gaussianTerm? hs hA (Expr.overAll_terms he t ht)
  have hrest : OverAll S (e.terms.filter fun t => (gaussianTerm? A t).isNone) :=
    Expr.overAll_filter (Expr.overAll_terms he)
  unfold rounding at h
  simp only at h
  generalize e.terms.filterMap (gaussianTerm? A) = whole at h hwhole
  generalize e.terms.filter (fun t => (gaussianTerm? A t).isNone) = rest at h hrest
  have hsum := hA.sum hrest
  split at h
  · grind
  · split at h
    · grind
    · split at h
      · grind
      · split at h
        · grind
        · grind -ring -linarith -lia

end ErrorBars.Canonical
