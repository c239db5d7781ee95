import Mathlib.Algebra.Algebra.Rat
import Mathlib.Algebra.BigOperators.Group.List.Lemmas
import Mathlib.Algebra.Group.Units.Basic
import Mathlib.Algebra.GroupWithZero.Commute
import Mathlib.Algebra.GroupWithZero.Units.Lemmas

/-!
# Whole powers in a ring

Expressions are given values in a commutative ring over the rational numbers: in the rational
numbers themselves, and in pairs of a value and a slope.  A power with a negative exponent has a
value where the base has an inverse, so `wholePow` is written for rings, and `Regular` says when it
means what it should.  Where an exponent may be added to another one, or multiplied by it, the
lemmas ask for that and for nothing else.
-/

set_option autoImplicit false

namespace ErrorBars

variable {R S : Type} [CommRing R] [CommRing S]

/-- A power with a whole exponent; below zero it is a power of the inverse, which is zero where
there is none. -/
noncomputable def wholePow (u : R) : ℤ → R
  | .ofNat n => u ^ n
  | .negSucc n => Ring.inverse u ^ (n + 1)

/-- A base may be taken to an exponent: the exponent is not below zero, or the base has an
inverse. -/
def Regular (u : R) (n : ℤ) : Prop := 0 ≤ n ∨ IsUnit u

section

variable {u v : R} {m n : ℤ}

@[simp] theorem wholePow_natCast (u : R) (n : ℕ) : wholePow u n = u ^ n := rfl

@[simp] theorem wholePow_zero (u : R) : wholePow u 0 = 1 := pow_zero u

@[simp] theorem wholePow_one (u : R) : wholePow u 1 = u := pow_one u

theorem wholePow_neg_one (u : R) : wholePow u (-1) = Ring.inverse u := pow_one _

theorem wholePow_of_nonneg (u : R) (h : 0 ≤ n) : wholePow u n = u ^ n.toNat := by
  obtain ⟨k, rfl⟩ := Int.eq_ofNat_of_zero_le h
  rfl

/-- The powers of an invertible element are those of the group of units. -/
theorem wholePow_units (w : Rˣ) (n : ℤ) : wholePow (w : R) n = ((w ^ n : Rˣ) : R) := by
  cases n with
  | ofNat n => rw [Int.ofNat_eq_natCast, wholePow_natCast, zpow_natCast, Units.val_pow_eq_pow_val]
  | negSucc n =>
    rw [wholePow, Ring.inverse_unit, zpow_negSucc, ← Units.val_pow_eq_pow_val, inv_pow]

@[simp] theorem one_wholePow (n : ℤ) : wholePow (1 : R) n = 1 := by
  rw [← Units.val_one, wholePow_units, one_zpow]

theorem mul_wholePow (u v : R) (n : ℤ) : wholePow (u * v) n = wholePow u n * wholePow v n := by
  cases n with
  | ofNat n => exact mul_pow u v n
  | negSucc n => rw [wholePow, wholePow, wholePow, Ring.mul_inverse_rev, mul_comm, mul_pow]

theorem prod_wholePow (l : List R) (n : ℤ) :
    wholePow l.prod n = (l.map fun u => wholePow u n).prod := by
  induction l with
  | nil => exact one_wholePow n
  | cons u l ih => rw [List.prod_cons, mul_wholePow, ih, List.map_cons, List.prod_cons]

theorem wholePow_neg_mul (h : IsUnit u) (n : ℤ) : wholePow u (-n) * wholePow u n = 1 := by
  obtain ⟨w, rfl⟩ := h
  rw [wholePow_units, wholePow_units, ← Units.val_mul, zpow_neg, inv_mul_cancel, Units.val_one]

/-! ## Adding and multiplying exponents -/

theorem regular_of_nonneg (h : 0 ≤ n) : Regular u n := .inl h

theorem Regular.isUnit (h : Regular u n) (hn : n < 0) : IsUnit u :=
  h.resolve_left (by omega)

theorem Regular.add (hm : Regular u m) (hn : Regular u n) : Regular u (m + n) := by
  rcases hm with hm | hm
  · rcases hn with hn | hn
    · exact .inl (by omega)
    · exact .inr hn
  · exact .inr hm

theorem wholePow_add (hm : Regular u m) (hn : Regular u n) :
    wholePow u (m + n) = wholePow u m * wholePow u n := by
  by_cases hu : IsUnit u
  · obtain ⟨w, rfl⟩ := hu
    rw [wholePow_units, wholePow_units, wholePow_units, zpow_add, Units.val_mul]
  · have hm : 0 ≤ m := hm.resolve_right hu
    have hn : 0 ≤ n := hn.resolve_right hu
    rw [wholePow_of_nonneg u hm, wholePow_of_nonneg u hn, wholePow_of_nonneg u (by omega),
      Int.toNat_add hm hn, pow_add]

/-- **An exponent over an exponent.**  If a power that is not trivial may be taken to an exponent,
its base may be taken to the product. -/
theorem Regular.mul (hm : Regular u m) (hn : Regular (wholePow u m) n) (h0 : m ≠ 0) :
    Regular u (m * n) := by
  by_cases hu : IsUnit u
  · exact .inr hu
  · have hm : 0 ≤ m := hm.resolve_right hu
    refine .inl (Int.mul_nonneg hm ?_)
    refine hn.resolve_right fun hunit => hu ?_
    rw [wholePow_of_nonneg u hm] at hunit
    exact (isUnit_pow_iff (by omega)).1 hunit

theorem wholePow_mul (hm : Regular u m) (hn : Regular (wholePow u m) n) :
    wholePow (wholePow u m) n = wholePow u (m * n) := by
  by_cases hu : IsUnit u
  · obtain ⟨w, rfl⟩ := hu
    rw [wholePow_units, wholePow_units, wholePow_units, zpow_mul]
  · have hm : 0 ≤ m := hm.resolve_right hu
    by_cases h0 : m = 0
    · rw [h0, wholePow_zero, one_wholePow, zero_mul, wholePow_zero]
    · have hn : 0 ≤ n := by
        refine hn.resolve_right fun hunit => hu ?_
        rw [wholePow_of_nonneg u hm] at hunit
        exact (isUnit_pow_iff (by omega)).1 hunit
      rw [wholePow_of_nonneg u hm, wholePow_of_nonneg _ hn,
        wholePow_of_nonneg u (Int.mul_nonneg hm hn), ← pow_mul, Int.toNat_mul hm hn]

/-- A power of a product may be taken factor by factor. -/
theorem Regular.of_mem_prod {l : List R} (h : Regular l.prod n) (hu : u ∈ l) : Regular u n := by
  rcases h with h | h
  · exact .inl h
  · exact .inr (List.prod_isUnit_iff.1 h u hu)

/-! ## Maps between rings -/

theorem Regular.map (f : R →+* S) (h : Regular u n) : Regular (f u) n :=
  h.imp_right fun hu => hu.map f

theorem map_wholePow (f : R →+* S) (h : Regular u n) : f (wholePow u n) = wholePow (f u) n := by
  rcases h with h | ⟨w, rfl⟩
  · rw [wholePow_of_nonneg _ h, wholePow_of_nonneg _ h, map_pow]
  · rw [wholePow_units]
    have hmap : f (w : R) = ((Units.map (f : R →* S) w : Sˣ) : S) := rfl
    rw [hmap, wholePow_units, ← map_zpow, Units.coe_map]
    rfl

end

/-! ## Rational numbers -/

theorem wholePow_rat (q : ℚ) (n : ℤ) : wholePow q n = q ^ n := by
  cases n with
  | ofNat n => rw [Int.ofNat_eq_natCast, wholePow_natCast, zpow_natCast]
  | negSucc n => rw [wholePow, Ring.inverse_eq_inv', zpow_negSucc, inv_pow]

variable [Algebra ℚ R] [Nontrivial R] {q : ℚ} {n : ℤ}

@[simp] theorem isUnit_algebraMap : IsUnit (algebraMap ℚ R q) ↔ q ≠ 0 := by
  constructor
  · rintro h rfl
    rw [map_zero] at h
    exact not_isUnit_zero h
  · intro h
    exact (IsUnit.mk0 q h).map (algebraMap ℚ R)

theorem algebraMap_zpow (h : Regular (algebraMap ℚ R q) n) :
    algebraMap ℚ R (q ^ n) = wholePow (algebraMap ℚ R q) n := by
  have hq : Regular q n := h.imp_right fun hu => IsUnit.mk0 q (isUnit_algebraMap.1 hu)
  rw [← wholePow_rat, map_wholePow _ hq]

end ErrorBars
