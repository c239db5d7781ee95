import ErrorBars.Number
import Mathlib.Algebra.Field.Rat
import Mathlib.Algebra.Order.Ring.Unbundled.Rat
import Mathlib.Algebra.Order.Field.Power
import Mathlib.Tactic.FieldSimp
import Mathlib.Tactic.Linarith
import Mathlib.Tactic.NormNum
import Mathlib.Tactic.Positivity
import Mathlib.Tactic.Ring

/-!
# Values of doubles, and which numbers have none

A finite double has an exact value (`Double.value`).  A number that is to become a double is rounded
to the nearest one, and the rounding knows no bound; what lies too far out becomes an infinity.
Where that begins is `Double.threshold`: half way from the greatest double to the power of two that
would be the next one (`ofRatio_eq_infinite_iff`).  A tie is among what is too large, because the
greatest double is odd.

So a whole number or a fraction has no double exactly if its magnitude reaches the threshold
(`Number.toDouble?_eq_none_iff`).
-/

set_option autoImplicit false

namespace ErrorBars

namespace Double

/-! ## Exact values -/

/-- The exact value of a finite double, and zero otherwise. -/
def value (x : Double) : ℚ := x.toRat?.getD 0

theorem toRat?_zero (s : Bool) : (zero s).toRat? = some 0 := by
  cases s <;> decide +kernel

theorem toRat?_of_isFinite {x : Double} (h : x.isFinite = true) : x.toRat? = some x.value := by
  cases x with
  | nan => cases h
  | infinite _ => cases h
  | finite s m e hc => rfl

/-- The value of a double is its mantissa times a power of two, with its sign. -/
theorem value_finite (s : Bool) (m : ℕ) (e : ℤ) (hc : Canonical m e) :
    (finite s m e hc).value = (if s then -(m : ℚ) else m) * 2 ^ e := by
  have hscaled (n : ℤ) : (if 0 ≤ e then ((n * 2 ^ e.toNat : ℤ) : ℚ)
      else mkRat n (2 ^ (-e).toNat)) = n * 2 ^ e := by
    split
    · rename_i he
      rw [Int.cast_mul, Int.cast_pow, Int.cast_ofNat, ← zpow_natCast, Int.toNat_of_nonneg he]
    · rename_i he
      rw [Rat.mkRat_eq_div, Nat.cast_pow, Nat.cast_ofNat, ← zpow_natCast,
        Int.toNat_of_nonneg (by omega), zpow_neg, div_inv_eq_mul]
  rw [value, toRat?, Option.getD_some, hscaled]
  cases s <;> simp

/-! ## Magnitudes -/

theorem value_abs (x : Double) : x.abs.value = |x.value| := by
  cases x with
  | nan => rfl
  | infinite _ => rfl
  | finite s m e hc =>
    have hscale : (0 : ℚ) ≤ 2 ^ e := by positivity
    rw [abs, value_finite, value_finite, abs_mul, abs_of_nonneg hscale]
    cases s <;> simp

theorem abs_neg (x : Double) : x.neg.abs = x.abs := by cases x <;> rfl

theorem abs_abs (x : Double) : x.abs.abs = x.abs := by cases x <;> rfl

/-! ## Rounding -/

/-- What is at least this large is too large for a double: half way from the greatest double,
`(2 ^ 53 - 1) * 2 ^ 971`, to `2 ^ 1024`. -/
def threshold : ℚ := (2 ^ 53 - 1 / 2) * 2 ^ (971 : ℤ)

variable {s : Bool} {m n d a b : ℕ} {e k : ℤ}

theorem scaleRatio_eq (hd : 0 < d) (k : ℤ) :
    0 < (scaleRatio n d k).2 ∧
      ((scaleRatio n d k).1 : ℚ) / (scaleRatio n d k).2 = n / d * 2 ^ k := by
  have hd' : (d : ℚ) ≠ 0 := Nat.cast_ne_zero.2 hd.ne'
  unfold scaleRatio
  split
  · rename_i hk
    refine ⟨hd, ?_⟩
    rw [Nat.shiftLeft_eq, Nat.cast_mul, Nat.cast_pow, Nat.cast_ofNat, ← zpow_natCast,
      Int.toNat_of_nonneg hk]
    ring
  · rename_i hk
    refine ⟨by rw [Nat.shiftLeft_eq]; positivity, ?_⟩
    rw [Nat.shiftLeft_eq, Nat.cast_mul, Nat.cast_pow, Nat.cast_ofNat, ← zpow_natCast,
      Int.toNat_of_nonneg (by omega), zpow_neg]
    field_simp

/-- The nearest whole number is one of the two that a quotient lies between, the upper one exactly
if the quotient is nearer to it or a tie makes it even. -/
theorem nearestQuotient_eq_succ_iff : nearestQuotient a b = a / b + 1 ↔
    b < 2 * (a % b) ∨ (2 * (a % b) = b ∧ a / b % 2 = 1) := by
  unfold nearestQuotient
  dsimp only
  split <;> rename_i h
  · exact ⟨fun _ => h, fun _ => rfl⟩
  · exact ⟨fun h' => absurd h' (by omega), fun h' => absurd h' h⟩

theorem nearestQuotient_cases (a b : ℕ) :
    nearestQuotient a b = a / b ∨ nearestQuotient a b = a / b + 1 := by
  unfold nearestQuotient
  dsimp only
  split
  · exact .inr rfl
  · exact .inl rfl

/-- A mantissa of at most `2 ^ 53`, full or with the least exponent, makes a finite double unless
the exponent is too large; the mantissa `2 ^ 53` counts as `2 ^ 52` with the next exponent. -/
theorem assemble_isFinite_iff (hm : m ≤ 2 ^ 53) (he : -1074 ≤ e)
    (hfull : 2 ^ 52 ≤ m ∨ e = -1074) :
    (assemble s m e).isFinite = true ↔ e < 971 ∨ (e = 971 ∧ m ≠ 2 ^ 53) := by
  unfold assemble
  split
  · rename_i h53
    have hiff : Canonical (2 ^ 52) (e + 1) ↔ e < 971 ∨ (e = 971 ∧ m ≠ 2 ^ 53) := by
      simp only [Canonical]
      omega
    rw [← hiff]
    split <;> rename_i hc <;> simp only [isFinite, hc, Bool.false_eq_true]
  · rename_i h53
    have hiff : Canonical m e ↔ e < 971 ∨ (e = 971 ∧ m ≠ 2 ^ 53) := by
      simp only [Canonical]
      omega
    rw [← hiff]
    split <;> rename_i hc <;> simp only [isFinite, hc, Bool.false_eq_true]

/-- An even number is reached from below exactly by what is at most half a unit short of it. -/
theorem nearestQuotient_eq_iff {t : ℕ} (hb : 0 < b) (hlt : a / b < t) (ht : t % 2 = 0) :
    nearestQuotient a b = t ↔ 2 * (t * b) ≤ 2 * a + b := by
  have hdiv := Nat.div_add_mod a b
  have hmod := Nat.mod_lt a hb
  obtain ⟨k, rfl⟩ := Nat.exists_eq_add_one_of_ne_zero (Nat.ne_zero_of_lt hlt)
  rw [Nat.succ_mul k b, Nat.mul_comm k b]
  by_cases htop : a / b = k
  · have hsucc := @nearestQuotient_eq_succ_iff a b
    rw [htop] at hdiv hsucc
    rw [hsucc]
    omega
  · have hbelow : b * (a / b + 1) ≤ b * k := Nat.mul_le_mul_left b (by omega)
    rw [Nat.mul_succ] at hbelow
    rcases nearestQuotient_cases a b with h | h <;> omega

/-- **Rounding one quotient**: it stays finite exactly below the threshold. -/
theorem assemble_nearestQuotient_iff (hb : 0 < b) (he : -1074 ≤ e) (hlt : a / b < 2 ^ 53)
    (hfull : 2 ^ 52 ≤ a / b ∨ e = -1074) :
    (assemble s (nearestQuotient a b) e).isFinite = true ↔ (a : ℚ) / b * 2 ^ e < threshold := by
  have hb' : (0 : ℚ) < b := Nat.cast_pos.2 hb
  have hcases := nearestQuotient_cases a b
  rw [assemble_isFinite_iff (by omega) he (by omega)]
  rcases lt_trichotomy e 971 with h | rfl | h
  · have hquotient : (a : ℚ) / b < 2 ^ 53 := by
      rw [div_lt_iff₀ hb']
      exact_mod_cast (Nat.div_lt_iff_lt_mul hb).1 hlt
    have hpower : (2 : ℚ) ^ e ≤ 2 ^ (970 : ℤ) := zpow_le_zpow_right₀ one_le_two (by omega)
    refine ⟨fun _ => ?_, fun _ => .inl h⟩
    calc (a : ℚ) / b * 2 ^ e ≤ 2 ^ 53 * 2 ^ (970 : ℤ) := by gcongr
      _ < threshold := by
        have hscale (p : ℚ) (hp : 0 < p) : 2 ^ 53 * p < (2 ^ 53 - 1 / 2) * (p * 2) := by linarith
        rw [threshold, show (971 : ℤ) = 970 + 1 from rfl, zpow_add_one₀ two_ne_zero]
        exact hscale _ (by positivity)
  · have hpower : (0 : ℚ) < 2 ^ (971 : ℤ) := by positivity
    rw [threshold, mul_lt_mul_iff_left₀ hpower, div_lt_iff₀ hb', ne_eq,
      nearestQuotient_eq_iff hb hlt (by norm_num), not_le, ← @Nat.cast_lt ℚ]
    simp only [lt_self_iff_false, true_and, false_or]
    push_cast
    constructor <;> intro <;> linarith
  · have hquotient : (2 : ℚ) ^ 52 ≤ (a : ℚ) / b := by
      rw [le_div_iff₀ hb']
      exact_mod_cast (Nat.le_div_iff_mul_le hb).1 (hfull.resolve_right (by omega))
    have hpower : (2 : ℚ) ^ (972 : ℤ) ≤ 2 ^ e := zpow_le_zpow_right₀ one_le_two (by omega)
    refine ⟨fun h => absurd h (by omega), fun hlt => absurd hlt (not_lt.2 ?_)⟩
    calc threshold ≤ 2 ^ 52 * 2 ^ (972 : ℤ) := by
          have hscale (p : ℚ) (hp : 0 < p) : (2 ^ 53 - 1 / 2) * p ≤ 2 ^ 52 * (p * 2) := by linarith
          rw [threshold, show (972 : ℤ) = 971 + 1 from rfl, zpow_add_one₀ two_ne_zero]
          exact hscale _ (by positivity)
      _ ≤ (a : ℚ) / b * 2 ^ e := by gcongr

theorem ratio_bounds (hn : n ≠ 0) (hd : d ≠ 0) :
    (2 : ℚ) ^ ((Nat.log2 n : ℤ) - Nat.log2 d - 1) ≤ n / d ∧
      (n : ℚ) / d < 2 ^ ((Nat.log2 n : ℤ) - Nat.log2 d + 1) := by
  have hlow {k : ℕ} (h : k ≠ 0) : (2 : ℚ) ^ (Nat.log2 k : ℤ) ≤ k := by
    rw [zpow_natCast]
    exact_mod_cast Nat.log2_self_le h
  have hhigh (k : ℕ) : (k : ℚ) < 2 ^ ((Nat.log2 k : ℤ) + 1) := by
    rw [← Nat.cast_succ, zpow_natCast]
    exact_mod_cast Nat.lt_log2_self
  have hd' : (0 : ℚ) < d := Nat.cast_pos.2 (Nat.pos_of_ne_zero hd)
  constructor
  · rw [le_div_iff₀ hd', sub_sub, zpow_sub₀ two_ne_zero, div_mul_eq_mul_div,
      div_le_iff₀ (by positivity)]
    exact mul_le_mul (hlow hn) (hhigh d).le hd'.le (Nat.cast_nonneg n)
  · rw [div_lt_iff₀ hd', sub_add_eq_add_sub, zpow_sub₀ two_ne_zero, div_mul_eq_mul_div,
      lt_div_iff₀ (by positivity)]
    exact mul_lt_mul (hhigh n) (hlow hd) (by positivity) (by positivity)

theorem natDiv_lt_iff (hb : 0 < b) (t : ℕ) : a / b < t ↔ (a : ℚ) / b < t := by
  rw [Nat.div_lt_iff_lt_mul hb, div_lt_iff₀ (Nat.cast_pos.2 hb)]
  exact_mod_cast Iff.rfl

theorem le_natDiv_iff (hb : 0 < b) (t : ℕ) : t ≤ a / b ↔ (t : ℚ) ≤ a / b := by
  rw [Nat.le_div_iff_mul_le hb, le_div_iff₀ (Nat.cast_pos.2 hb)]
  exact_mod_cast Iff.rfl

/-- A quotient that has been scaled down by a power of two is scaled back by the exponent. -/
theorem scaleRatio_back (hd : 0 < d) (e : ℤ) :
    ((scaleRatio n d (-e)).1 : ℚ) / (scaleRatio n d (-e)).2 * 2 ^ e = n / d := by
  rw [(scaleRatio_eq hd _).2, mul_assoc, ← zpow_add₀ two_ne_zero, neg_add_cancel, zpow_zero,
    mul_one]

/-- A ratio is rounded as a quotient with a full mantissa, or with the least exponent. -/
theorem ofRatio_eq_assemble (s : Bool) (hn : n ≠ 0) (hd : d ≠ 0) :
    ∃ a b : ℕ, ∃ e : ℤ, 0 < b ∧ -1074 ≤ e ∧ a / b < 2 ^ 53 ∧ (2 ^ 52 ≤ a / b ∨ e = -1074) ∧
      (a : ℚ) / b * 2 ^ e = n / d ∧ ofRatio s n d = assemble s (nearestQuotient a b) e := by
  have hd' := Nat.pos_of_ne_zero hd
  obtain ⟨hlow, hhigh⟩ := ratio_bounds hn hd
  unfold ofRatio
  rw [if_neg (by simp [hn, hd])]
  dsimp only
  generalize (Nat.log2 n : ℤ) - Nat.log2 d = size at hlow hhigh
  generalize he : max (size - 53) (-1074) = e
  have hpower (t k : ℤ) : (2 : ℚ) ^ t * 2 ^ k = 2 ^ (t + k) := (zpow_add₀ two_ne_zero t k).symm
  obtain ⟨hb, hratio⟩ := @scaleRatio_eq n d hd' (-e)
  split
  · rename_i hlt
    refine ⟨_, _, e, hb, by omega, hlt, ?_, scaleRatio_back hd' e, rfl⟩
    by_cases hleast : e = -1074
    · exact .inr hleast
    · refine .inl ((le_natDiv_iff hb _).2 ?_)
      calc ((2 ^ 52 : ℕ) : ℚ) = 2 ^ (size - 1) * 2 ^ (-e) := by
            rw [hpower, show size - 1 + -e = (52 : ℕ) by omega, zpow_natCast, Nat.cast_pow,
              Nat.cast_ofNat]
        _ ≤ n / d * 2 ^ (-e) := by gcongr
        _ = _ := hratio.symm
  · rename_i hge
    obtain ⟨hb', hratio'⟩ := @scaleRatio_eq n d hd' (-(e + 1))
    have hfull : (2 : ℚ) ^ (53 : ℤ) ≤ n / d * 2 ^ (-e) := by
      rw [← hratio]
      exact_mod_cast (le_natDiv_iff hb _).1 (not_lt.1 hge)
    have hsize : e = size - 53 := by
      have hlt : (2 : ℚ) ^ (53 : ℤ) < 2 ^ (size + 1 + -e) := by
        calc (2 : ℚ) ^ (53 : ℤ) ≤ n / d * 2 ^ (-e) := hfull
          _ < 2 ^ (size + 1) * 2 ^ (-e) := by gcongr
          _ = 2 ^ (size + 1 + -e) := hpower _ _
      have := (zpow_lt_zpow_iff_right₀ one_lt_two).1 hlt
      omega
    refine ⟨_, _, e + 1, hb', by omega, (natDiv_lt_iff hb' _).2 ?_,
      .inl ((le_natDiv_iff hb' _).2 ?_), scaleRatio_back hd' (e + 1), rfl⟩
    · calc _ = (n : ℚ) / d * 2 ^ (-(e + 1)) := hratio'
        _ < 2 ^ (size + 1) * 2 ^ (-(e + 1)) := by gcongr
        _ = ((2 ^ 53 : ℕ) : ℚ) := by
          rw [hpower, show size + 1 + -(e + 1) = (53 : ℕ) by omega, zpow_natCast, Nat.cast_pow,
            Nat.cast_ofNat]
    · calc ((2 ^ 52 : ℕ) : ℚ) = 2 ^ (53 : ℤ) * 2 ^ (-1 : ℤ) := by
            rw [hpower, show (53 : ℤ) + -1 = (52 : ℕ) from rfl, zpow_natCast, Nat.cast_pow,
              Nat.cast_ofNat]
        _ ≤ n / d * 2 ^ (-e) * 2 ^ (-1 : ℤ) := by gcongr
        _ = n / d * 2 ^ (-(e + 1)) := by rw [mul_assoc, hpower, neg_add]
        _ = _ := hratio'.symm

theorem threshold_pos : 0 < threshold := by
  unfold threshold
  positivity

/-- **Rounding a ratio**: it stays finite exactly below the threshold. -/
theorem ofRatio_isFinite_iff (hd : d ≠ 0) :
    (ofRatio s n d).isFinite = true ↔ (n : ℚ) / d < threshold := by
  by_cases hn : n = 0
  · rw [hn, ofRatio, if_pos (.inl rfl), Nat.cast_zero, zero_div]
    exact iff_of_true rfl threshold_pos
  · obtain ⟨a, b, e, hb, he, hlt, hfull, hratio, heq⟩ := ofRatio_eq_assemble s hn hd
    rw [heq, assemble_nearestQuotient_iff hb he hlt hfull, hratio]

theorem assemble_cases (s : Bool) (m : ℕ) (e : ℤ) :
    (assemble s m e).isFinite = true ∨ assemble s m e = .infinite s := by
  unfold assemble
  split_ifs <;> simp [isFinite]

/-- What is not finite after rounding is an infinity. -/
theorem ofRatio_cases (s : Bool) (n d : ℕ) :
    (ofRatio s n d).isFinite = true ∨ ofRatio s n d = .infinite s := by
  by_cases h : n = 0 ∨ d = 0
  · rw [ofRatio, if_pos h]
    exact .inl rfl
  · obtain ⟨a, b, e, -, -, -, -, -, heq⟩ :=
      ofRatio_eq_assemble s (fun hn => h (.inl hn)) (fun hd => h (.inr hd))
    rw [heq]
    exact assemble_cases s _ e

/-! ## What is too large -/

/-- The double nearest to `± n / d`, unless it is too large for one. -/
def ofRatio? (negative : Bool) (n d : ℕ) : Option Double :=
  match ofRatio negative n d with
  | .infinite _ => none
  | x => some x

theorem ofInt?_eq (n : ℤ) : ofInt? n = ofRatio? (n < 0) n.natAbs 1 := rfl

theorem ofRat?_eq (q : ℚ) : ofRat? q = ofRatio? (q.num < 0) q.num.natAbs q.den := rfl

theorem ofRatio?_eq_none_iff (hd : d ≠ 0) :
    ofRatio? s n d = none ↔ threshold ≤ (n : ℚ) / d := by
  rw [← not_lt, ← @ofRatio_isFinite_iff s n d hd, ofRatio?]
  rcases ofRatio_cases s n d with h | h
  · cases hx : ofRatio s n d with
    | infinite => rw [hx] at h; cases h
    | _ => simp [hx ▸ h]
  · rw [h]
    simp [isFinite]

theorem ofInt?_eq_none_iff {n : ℤ} : ofInt? n = none ↔ threshold ≤ |(n : ℚ)| := by
  rw [ofInt?_eq, ofRatio?_eq_none_iff one_ne_zero, Nat.cast_one, div_one, Nat.cast_natAbs,
    Int.cast_abs]

theorem ofRat?_eq_none_iff {q : ℚ} : ofRat? q = none ↔ threshold ≤ |q| := by
  rw [ofRat?_eq, ofRatio?_eq_none_iff q.den_nz, Nat.cast_natAbs, Int.cast_abs, ← Nat.abs_cast q.den,
    ← abs_div, Rat.num_div_den]

/-! ## Magnitudes of what is rounded -/

theorem abs_assemble (s : Bool) (m : ℕ) (e : ℤ) : (assemble s m e).abs = assemble false m e := by
  unfold assemble
  split_ifs <;> rfl

theorem abs_ofRatio (s : Bool) (n d : ℕ) : (ofRatio s n d).abs = ofRatio false n d := by
  unfold ofRatio
  split
  · rfl
  · dsimp only
    split <;> exact abs_assemble s _ _

theorem abs_ofScaled (s : Bool) (n : ℕ) (k : ℤ) : (ofScaled s n k).abs = ofScaled false n k := by
  unfold ofScaled
  dsimp only
  split_ifs
  · rfl
  · rfl
  · rfl
  · exact abs_ofRatio s _ _
  · exact abs_ofRatio s _ _

/-- The magnitude of a product is the product of the magnitudes, rounded or not. -/
theorem abs_mul (x y : Double) : (x * y).abs = x.abs * y.abs := by
  rcases x with _ | a | ⟨a, m, e, _⟩ <;> rcases y with _ | b | ⟨b, n, f, _⟩
  case infinite.finite =>
    show (if n = 0 then nan else infinite (a != b)).abs = if n = 0 then nan else infinite false
    split_ifs <;> rfl
  case finite.infinite =>
    show (if m = 0 then nan else infinite (a != b)).abs = if m = 0 then nan else infinite false
    split_ifs <;> rfl
  case finite.finite => exact abs_ofScaled _ _ _
  all_goals rfl

theorem map_abs_ofRatio? (s : Bool) (n d : ℕ) :
    (ofRatio? s n d).map abs = ofRatio? false n d := by
  have h := abs_ofRatio s n d
  rw [ofRatio?, ofRatio?]
  cases hx : ofRatio s n d <;> rw [hx] at h <;> rw [← h] <;> rfl

end Double

/-- A whole number or a fraction that is too large for a double. -/
def Number.TooLarge : Number → Prop
  | .int n => Double.threshold ≤ |(n : ℚ)|
  | .fraction q => Double.threshold ≤ |q|
  | .float _ => False

theorem Number.toDouble?_eq_none_iff (x : Number) : x.toDouble? = none ↔ x.TooLarge := by
  cases x with
  | int n => exact Double.ofInt?_eq_none_iff
  | fraction q => exact Double.ofRat?_eq_none_iff
  | float x => exact iff_of_false (Option.some_ne_none x) id

end ErrorBars
