import ErrorBars.Expr.Canonical.Power
import ErrorBars.Proofs.Names.Sum
import ErrorBars.Proofs.Names.Turn

/-!
# Powers are over the variables of base and exponent

Roots and powers of numbers hold no variables, whatever is taken out of them.  A power of a product
is over the variables of the factors, however these are told apart by sign.
-/

set_option autoImplicit false

namespace ErrorBars.Canonical

open Expr (Over OverAll)

variable {S : String → Prop} {A : Arith}

/-! ## Powers of numbers -/

@[grind →] theorem over_naturalRoot {n : Nat} {r : Rat} {v : Expr}
    (h : naturalRoot A n r = some v) (hA : A.Preserves S) : Over S v := by
  unfold naturalRoot at h
  simp only at h
  generalize splitRoot _ _ _ = s at h
  generalize s.inside.foldl (fun acc f => Nat.gcd acc f.2) 0 = g at h
  generalize s.inside.foldl (fun acc f => acc * f.1 ^ (f.2 / g)) 1 = inside at h
  grind -ring -linarith -lia

@[grind ←] theorem over_minusOnePower (r : Rat) (hA : A.Preserves S) :
    Over S (minusOnePower A r) := by
  unfold minusOnePower
  grind -ring -linarith -lia

@[grind →] theorem over_integerRoot {n : Int} {r : Rat} {v : Expr}
    (h : integerRoot A n r = some v) (hA : A.Preserves S) : Over S v := by
  unfold integerRoot at h
  grind -ring -linarith -lia

@[grind ←] theorem over_fractionRoot (b r : Rat) (hA : A.Preserves S) :
    Over S (fractionRoot A b r) := by
  unfold fractionRoot
  grind -ring -linarith -lia

@[grind ←] theorem over_ofPair (bits : Nat) (p : Extended × Extended) (hA : A.Preserves S) :
    Over S (ofPair A bits p) := by
  unfold ofPair
  grind -ring -linarith -lia

@[grind →] theorem over_approxPower {x : Binary} {bits : Nat} {e v : Expr}
    (h : approxPower A x bits e = some v) (hA : A.Preserves S) (he : Over S e) : Over S v := by
  unfold approxPower at h
  grind [approxPower.general]

@[grind →] theorem over_zeroPower {e v : Expr} (h : zeroPower A e = some v) (hA : A.Preserves S)
    (he : Over S e) : Over S v := by
  unfold zeroPower at h
  grind -ring -linarith -lia

theorem over_infinityPower {e v : Expr} (h : infinityPower A e = some v) :
    Over S v := by
  unfold infinityPower at h
  grind -ring -linarith -lia

grind_pattern over_infinityPower => infinityPower A e, some v, Over S v

@[grind →] theorem over_negInfinityPower {e v : Expr} (h : negInfinityPower A e = some v)
    (hA : A.Preserves S) (he : Over S e) : Over S v := by
  unfold negInfinityPower at h
  grind -ring -linarith -lia

theorem over_complexInfinityPower {e v : Expr} (h : complexInfinityPower e = some v) :
    Over S v := by
  unfold complexInfinityPower at h
  grind -ring -linarith -lia

grind_pattern over_complexInfinityPower => complexInfinityPower e, some v, Over S v

@[grind →] theorem over_rationalPower {b : Rat} {e v : Expr} (h : rationalPower A b e = some v)
    (hA : A.Preserves S) (he : Over S e) : Over S v := by
  unfold rationalPower at h
  grind -ring -linarith -lia

/-! ## Powers of composed expressions -/

@[grind →] theorem over_imaginaryPower {e v : Expr} (h : imaginaryPower A e = some v)
    (hA : A.Preserves S) : Over S v := by
  unfold imaginaryPower at h
  grind -ring -linarith -lia

/-- Factors told apart by sign are over these variables. -/
@[grind =] def BaseFactors.Over (S : String → Prop) (s : BaseFactors) : Prop :=
  Expr.OverAll S s.nonnegative ∧ OverAll S s.negative ∧
    OverAll S s.other

theorem over_splitBase {fs : List Expr} (h : OverAll S fs) : (splitBase fs).Over S := by
  unfold splitBase
  induction fs with
  | nil => grind
  | cons f fs ih => grind

theorem over_pairNegatives {s : BaseFactors} (hA : A.Preserves S) (h : s.Over S) :
    (pairNegatives A s).Over S := by
  obtain ⟨hnonnegative, hnegative, hother⟩ := h
  unfold pairNegatives
  split
  · exact ⟨hnonnegative, hnegative, hother⟩
  · rename_i n hs
    rw [hs] at hnegative
    split
    · exact ⟨hnonnegative, Expr.overAll_nil, hnegative⟩
    · grind -ring -linarith -lia
  · rename_i n rest _ hs
    rw [hs] at hnegative
    have hpair : ∀ c : Bool,
        Over S (if c then (n, rest) else (Expr.one, n :: rest)).1 ∧
          OverAll S (if c then (n, rest) else (Expr.one, n :: rest)).2 := by grind
    generalize hq : (if s.other.isEmpty && n.isNumber then (n, rest) else (Expr.one, n :: rest)) = q
    obtain ⟨hfirst, hrest⟩ : Over S q.1 ∧ OverAll S q.2 := hq ▸ hpair _
    have hfirst : Over S (if q.2.length % 2 = 1 then A.neg q.1 else q.1) := by grind
    generalize (if q.2.length % 2 = 1 then A.neg q.1 else q.1) = first at hfirst
    refine ⟨?_, Expr.overAll_nil, ?_⟩ <;> grind

@[grind ←] theorem over_expandBase {fs : List Expr} {e : Expr} (hA : A.Preserves S)
    (h : OverAll S fs) (he : Over S e) : Over S (expandBase A fs e) := by
  have hs := over_pairNegatives hA (over_splitBase h)
  unfold expandBase
  grind -ring -linarith -lia

@[grind →] theorem over_productPower {fs : List Expr} {e v : Expr}
    (h : productPower A fs e = some v) (hA : A.Preserves S) (hfs : OverAll S fs)
    (he : Over S e) : Over S v := by
  unfold productPower at h
  split at h
  · rename_i q
    split at h
    · grind
    · simp only at h
      generalize (if q.den = 2 then _ else _ : Option (Rat × Rat)) = gaussian at h
      split at h
      · rename_i a r
        have hunit : Over S (if a < 0 then A.neg Expr.imaginary else Expr.imaginary) := by
          split <;> grind
        grind -ring -linarith -lia
      · grind
  · grind
  · simp at h

@[grind →] theorem over_complexPower {a b q : Rat} {v : Expr} (h : complexPower A a b q = some v)
    (hA : A.Preserves S) : Over S v := by
  unfold complexPower at h
  split at h
  · obtain ⟨d, -, rfl⟩ := Expr.exists_of_map_eq_some h
    simp only
    generalize gaussianPower _ _ _ = p
    obtain ⟨c, s⟩ := p
    have hexpanded : Over S (A.sum [.rat c, A.product [.rat s, Expr.imaginary]]) := by grind
    grind -ring -linarith -lia
  · grind -ring -linarith -lia

theorem over_complexNumber? {ts : List Expr} {a b : Expr} (h : complexNumber? ts = some (a, b))
    (hts : OverAll S ts) : Over S a ∧ Over S b := by
  unfold complexNumber? at h
  grind -ring -linarith -lia

@[grind ←] theorem over_approximateInverse {a b : Expr} (hA : A.Preserves S) (ha : Over S a)
    (hb : Over S b) : Over S (approximateInverse A a b) := by
  unfold approximateInverse
  grind -ring -linarith -lia

theorem over_infiniteSumPower {a b e v : Expr}
    (h : infiniteSumPower a b e = some v) : Over S v := by
  unfold infiniteSumPower at h
  grind -ring -linarith -lia

grind_pattern over_infiniteSumPower => infiniteSumPower a b e, some v, Over S v

@[grind →] theorem over_sumPower {ts : List Expr} {e v : Expr} (h : sumPower A ts e = some v)
    (hA : A.Preserves S) (hts : OverAll S ts) : Over S v := by
  unfold sumPower at h
  have hnumber := fun a b (h : complexNumber? ts = some (a, b)) => over_complexNumber? h hts
  grind -ring -linarith -lia

@[grind →] theorem over_turnedPower {b x e v : Expr} (h : turnedPower A b x e = some v)
    (hA : A.Preserves S) (hb : Over S b) (hx : Over S x) (he : Over S e) : Over S v := by
  unfold turnedPower at h
  grind -ring -linarith -lia

@[grind →] theorem over_powerPower {b x e v : Expr} (h : powerPower A b x e = some v)
    (hA : A.Preserves S) (hb : Over S b) (hx : Over S x) (he : Over S e) : Over S v := by
  unfold powerPower at h
  grind -ring -linarith -lia

@[grind →] theorem over_withoutLog? {b e v : Expr} (h : withoutLog? A b e = some v)
    (hA : A.Preserves S) (he : Over S e) : Over S v := by
  unfold withoutLog? at h
  grind -ring -linarith -lia

/-! ## The power -/

@[grind →] theorem over_powerByBase {b e v : Expr} (h : powerByBase A b e = some v)
    (hA : A.Preserves S) (hb : Over S b) (he : Over S e) : Over S v := by
  unfold powerByBase at h
  grind -ring -linarith -lia

theorem over_infiniteExponent? {b v : Expr} (h : infiniteExponent? b = some v) :
    Over S v := by
  unfold infiniteExponent? at h
  grind -ring -linarith -lia

grind_pattern over_infiniteExponent? => infiniteExponent? b, some v, Over S v

@[grind ←] theorem over_generalPower {b e : Expr} (hA : A.Preserves S) (hb : Over S b)
    (he : Over S e) : Over S (generalPower A b e) := by
  unfold generalPower
  grind -ring -linarith -lia

/-- **A canonical power is over the variables of its base and its exponent.** -/
@[grind ←] theorem over_power {b e : Expr} (hA : A.Preserves S) (hb : Over S b) (he : Over S e) :
    Over S (power A b e) := by
  unfold power
  grind -ring -linarith -lia

end ErrorBars.Canonical
