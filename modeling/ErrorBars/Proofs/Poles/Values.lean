import ErrorBars.Proofs.Doubles
import ErrorBars.Proofs.Poles.Numbers

/-!
# The values of binary numbers

A binary number has a rational number for its value.  Normal forms and sums are exact; cutting a
number to some bits changes it by no more than a half of the last of them, so that a number cannot
get across one in this way unless it comes close to it.
-/

set_option autoImplicit false

namespace ErrorBars
namespace Binary

variable {x y : Binary} {bits : ℕ}

/-- The value of a binary number. -/
def value (x : Binary) : ℚ := x.mantissa * 2 ^ x.exponent

theorem value_pos_iff : 0 < x.value ↔ 0 < x.mantissa := by
  have hscale : (0 : ℚ) < 2 ^ x.exponent := by positivity
  rw [value, mul_pos_iff_of_pos_right hscale, Int.cast_pos]

theorem value_ne_zero_iff : x.value ≠ 0 ↔ x.mantissa ≠ 0 := by
  have hscale : (2 : ℚ) ^ x.exponent ≠ 0 := zpow_ne_zero _ two_ne_zero
  rw [value, mul_ne_zero_iff_right hscale, Int.cast_ne_zero]

/-! ## Normal forms -/

theorem stripTwos_value (fuel m : ℕ) (e : ℤ) :
    ((stripTwos fuel m e).1 : ℚ) * 2 ^ (stripTwos fuel m e).2 = m * 2 ^ e := by
  induction fuel generalizing m e with
  | zero => rfl
  | succ fuel ih =>
    rw [stripTwos_succ]
    split
    · rename_i hm
      rw [hm, Nat.cast_zero, zero_mul, zero_mul]
    · split
      · rename_i hdvd
        have hm : m / 2 ^ 2 ^ fuel * 2 ^ 2 ^ fuel = m :=
          Nat.div_mul_cancel (Nat.dvd_of_mod_eq_zero hdvd)
        rw [ih, Nat.shiftRight_eq_div_pow, add_comm e, zpow_add₀ two_ne_zero, ← mul_assoc,
          zpow_natCast]
        conv_rhs => rw [← hm]
        push_cast
        rfl
      · exact ih m e

/-- The normal form has the same value. -/
theorem value_normal (m e : ℤ) : (normal m e).value = m * 2 ^ e := by
  rw [normal]
  split
  · rename_i hm
    rw [hm, Int.cast_zero, zero_mul, value, zero, Int.cast_zero, zero_mul]
  · have hk : (((if m.natAbs % 2 = 1 then (m.natAbs, e)
        else stripTwos (bitLength (bitLength m.natAbs) + 1) m.natAbs e).1 : ℕ) : ℚ) *
        2 ^ (if m.natAbs % 2 = 1 then (m.natAbs, e)
        else stripTwos (bitLength (bitLength m.natAbs) + 1) m.natAbs e).2 = m.natAbs * 2 ^ e := by
      split
      · rfl
      · exact stripTwos_value _ _ _
    dsimp only
    rw [value]
    dsimp only
    split
    · rename_i hneg
      rw [Int.cast_neg, Int.cast_natCast, neg_mul, hk, ← neg_mul, ← Int.cast_natCast,
        ← Int.cast_neg, Int.ofNat_natAbs_of_nonpos hneg.le, neg_neg]
    · rename_i hpos
      rw [Int.cast_natCast, hk, ← Int.cast_natCast, Int.natAbs_of_nonneg (not_lt.1 hpos)]

/-- Sums are exact. -/
theorem value_add (x y : Binary) : (x.add y).value = x.value + y.value := by
  have hzero {z : Binary} (h : z.isZero = true) : z.value = 0 := by
    rw [value, eq_of_beq h, Int.cast_zero, zero_mul]
  have hscale {z : Binary} {e : ℤ} (h : e ≤ z.exponent) :
      ((z.mantissa * 2 ^ (z.exponent - e).toNat : ℤ) : ℚ) * 2 ^ e = z.value := by
    rw [value, Int.cast_mul, Int.cast_pow, Int.cast_ofNat, ← zpow_natCast,
      Int.toNat_of_nonneg (sub_nonneg.2 h), mul_assoc, ← zpow_add₀ two_ne_zero, sub_add_cancel]
  rw [add]
  split
  · rename_i hx
    rw [hzero hx, zero_add]
  · split
    · rename_i hy
      rw [hzero hy, add_zero]
    · rw [value_normal, Int.cast_add, add_mul, hscale (min_le_left _ _), hscale (min_le_right _ _)]

/-! ## Sizes -/

theorem bitLength_bounds {n : ℕ} (hn : n ≠ 0) : 2 ^ bitLength n ≤ 2 * n ∧ n < 2 ^ bitLength n := by
  rw [bitLength, if_neg hn]
  have hlow := Nat.log2_self_le hn
  exact ⟨by rw [Nat.pow_succ]; omega, Nat.lt_log2_self⟩

/-- The place above the first bit of a number bounds it. -/
theorem magnitude_bounds (hx : x.mantissa ≠ 0) :
    2 ^ (x.magnitude - 1) ≤ |x.value| ∧ |x.value| < 2 ^ x.magnitude := by
  obtain ⟨hlow, hhigh⟩ := bitLength_bounds (Int.natAbs_ne_zero.2 hx)
  have hscale : (0 : ℚ) < 2 ^ x.exponent := by positivity
  have habs : |x.value| = x.mantissa.natAbs * 2 ^ x.exponent := by
    rw [value, abs_mul, abs_of_pos hscale, Nat.cast_natAbs, Int.cast_abs]
  have hmagnitude : (2 : ℚ) ^ x.magnitude = 2 ^ x.bits * 2 ^ x.exponent := by
    rw [magnitude, add_comm, zpow_add₀ two_ne_zero, zpow_natCast]
  rw [zpow_sub_one₀ two_ne_zero, hmagnitude, habs]
  constructor
  · have hlow : (2 : ℚ) ^ x.bits ≤ 2 * x.mantissa.natAbs := by exact_mod_cast hlow
    have := mul_le_mul_of_nonneg_right hlow hscale.le
    linarith
  · have hhigh : (x.mantissa.natAbs : ℚ) < 2 ^ x.bits := by exact_mod_cast hhigh
    exact mul_lt_mul_of_pos_right hhigh hscale

/-! ## Rounding -/

/-- Division to nearest adds no more than a half. -/
theorem shiftNearest_le (n : ℕ) {k : ℕ} (hk : 0 < k) :
    shiftNearest n k * 2 ^ k ≤ n + 2 ^ (k - 1) := by
  have hpow : 2 ^ k = 2 * 2 ^ (k - 1) := by
    rw [← Nat.pow_succ', Nat.succ_eq_add_one, Nat.sub_add_cancel hk]
  have hdiv : n / 2 ^ k * 2 ^ k ≤ n := Nat.div_mul_le_self n _
  rw [shiftNearest, if_neg hk.ne']
  dsimp only
  rw [Nat.shiftRight_eq_div_pow, Nat.shiftLeft_eq, Nat.shiftLeft_eq, one_mul]
  split
  · rw [Nat.add_mul, one_mul]
    omega
  · omega

/-- The value of a number that is cut to some bits. -/
theorem value_round_cases (bits : ℕ) (x : Binary) :
    (x.round bits).value = x.value ∨ ∃ k, 0 < k ∧ bitLength x.mantissa.natAbs = bits + k ∧
      (x.round bits).value = (if x.mantissa < 0 then -(shiftNearest x.mantissa.natAbs k : ℚ)
        else shiftNearest x.mantissa.natAbs k) * 2 ^ k * 2 ^ x.exponent := by
  rw [round]
  dsimp only
  split
  · exact .inl rfl
  · refine .inr ⟨bitLength x.mantissa.natAbs - bits, by omega, by omega, ?_⟩
    rw [value_normal, add_comm x.exponent, zpow_add₀ two_ne_zero, zpow_natCast, ← mul_assoc]
    split
    · rw [Int.cast_neg, Int.cast_natCast]
    · rw [Int.cast_natCast]

/-- Cutting a number to some bits adds no more than a half of the last of them. -/
theorem abs_value_round_le (bits : ℕ) (x : Binary) :
    |(x.round bits).value| ≤ |x.value| * (1 + (2 ^ bits)⁻¹) := by
  have hinv : (0 : ℚ) < (2 ^ bits)⁻¹ := by positivity
  rcases value_round_cases bits x with h | ⟨k, hk, hlength, h⟩
  · rw [h]
    exact le_mul_of_one_le_right (abs_nonneg _) (by linarith)
  · have hscale : (0 : ℚ) < 2 ^ x.exponent := by positivity
    have hn : x.mantissa.natAbs ≠ 0 := by
      intro hzero
      rw [hzero, bitLength, if_pos rfl] at hlength
      omega
    have hround : (shiftNearest x.mantissa.natAbs k : ℚ) * 2 ^ k ≤
        x.mantissa.natAbs + 2 ^ (k - 1) := by
      exact_mod_cast shiftNearest_le x.mantissa.natAbs hk
    -- the half of the last bit, next to the first bit of the number
    have hhalf : (2 : ℚ) ^ (k - 1) ≤ x.mantissa.natAbs * (2 ^ bits)⁻¹ := by
      rw [← div_eq_mul_inv, le_div_iff₀ (by positivity)]
      have hlow := (bitLength_bounds hn).1
      have hpow : 2 ^ (bits + k) = 2 * (2 ^ (k - 1) * 2 ^ bits) := by
        rw [← Nat.pow_add, ← Nat.pow_succ']
        congr 1
        omega
      rw [hlength, hpow] at hlow
      exact_mod_cast Nat.le_of_mul_le_mul_left hlow Nat.two_pos
    have habs : |(x.round bits).value| =
        shiftNearest x.mantissa.natAbs k * 2 ^ k * 2 ^ x.exponent := by
      rw [h, abs_mul, abs_mul, abs_of_pos hscale, abs_of_pos (by positivity : (0 : ℚ) < 2 ^ k)]
      split <;> simp
    have hvalue : |x.value| = x.mantissa.natAbs * 2 ^ x.exponent := by
      rw [value, abs_mul, abs_of_pos hscale, Nat.cast_natAbs, Int.cast_abs]
    calc |(x.round bits).value|
        = shiftNearest x.mantissa.natAbs k * 2 ^ k * 2 ^ x.exponent := habs
      _ ≤ (x.mantissa.natAbs + x.mantissa.natAbs * (2 ^ bits)⁻¹) * 2 ^ x.exponent :=
          mul_le_mul_of_nonneg_right (hround.trans (by linarith)) hscale.le
      _ = |x.value| * (1 + (2 ^ bits)⁻¹) := by rw [hvalue]; ring

theorem value_round_nonneg (bits : ℕ) (hx : 0 ≤ x.value) : 0 ≤ (x.round bits).value := by
  rcases value_round_cases bits x with h | ⟨k, -, -, h⟩
  · rwa [h]
  · have hsign : ¬ x.mantissa < 0 := by
      intro hneg
      have hscale : (0 : ℚ) < 2 ^ x.exponent := by positivity
      have := mul_neg_of_neg_of_pos (Int.cast_lt_zero.2 hneg) hscale
      exact absurd hx (not_le.2 this)
    rw [h, if_neg hsign]
    positivity

end Binary
end ErrorBars
