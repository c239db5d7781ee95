import ErrorBars.Proofs.Poles.Evaluators
import ErrorBars.Proofs.Poles.Values

/-!
# Logarithms away from zero

The logarithm of a number close to one is computed from what the number exceeds one by: one is
subtracted, with as many bits as are needed, and then added again.  What comes out of this could be
zero, which has no logarithm, if the number were so small that nothing is left of it beside one.
A positive number of moderate size is not, to whatever bits it is evaluated.
-/

set_option autoImplicit false

namespace ErrorBars

open Evaluation Evaluated Extended Expr

/-- The part is a positive number, between the fiftieth powers of a half and of two or thereabouts,
and not made up of bits that cannot be trusted. -/
def ModeratePart (p : Part) : Prop :=
  ∃ x : Binary, p.value = .number x ∧ 0 < x.mantissa ∧ -50 ≤ x.magnitude ∧ x.magnitude ≤ 50 ∧
    0 ≤ p.accuracy

/-- The evaluator succeeds with a positive number of moderate size. -/
def Moderate (ev : Evaluator) : Prop :=
  ∀ bits limit, pointBits.1 ≤ bits →
    Yields (fun v => ∃ p, v = .parts (some p) none ∧ ModeratePart p) (ev bits limit)

/-- A double of moderate size stands for itself. -/
theorem moderate_float {x : Binary} (b : ℕ) (hpos : 0 < x.mantissa) (hlow : -50 ≤ x.magnitude)
    (hhigh : x.magnitude ≤ 50) : Moderate (leaf (.float x b)) :=
  fun bits _ _ => .ok ⟨_, rfl, x, rfl, hpos, hlow, hhigh, Int.natCast_nonneg bits⟩

/-- The part is a number other than zero, above minus one and of moderate size. -/
def AboveMinusOne (p : Part) : Prop :=
  ∃ z : Binary, p.value = .number z ∧ z.mantissa ≠ 0 ∧ -1 < z.value ∧ z.magnitude ≤ 60

namespace Evaluation

/-! ## One less -/

theorem addTerm_one (wp : ℕ) : addTerm wp (0, 0) (Binary.ofInt (-1)) = (-1, 0) := by
  have hone : Binary.ofInt (-1) = ⟨-1, 0⟩ := rfl
  rw [hone, addTerm]
  simp

/-- One is subtracted exactly from a number of moderate size. -/
theorem addTerm_minusOne {wp : ℕ} {x : Binary} (hx : x.mantissa ≠ 0)
    (hlow : -(wp : ℤ) ≤ x.magnitude) (hhigh : x.magnitude ≤ wp) :
    ((addTerm wp (-1, 0) x).1 : ℚ) * 2 ^ (addTerm wp (-1, 0) x).2 = x.value - 1 := by
  have hbits : 0 < x.bits := by
    rw [Binary.bits, bitLength, if_neg (Int.natAbs_ne_zero.2 hx)]
    exact Nat.succ_pos _
  rw [Binary.magnitude] at hlow hhigh
  rw [addTerm]
  dsimp only
  split
  · rename_i hexp
    rw [if_neg (by omega), zpow_zero, mul_one, sub_zero, Int.cast_add, Int.cast_mul, Int.cast_pow,
      Int.cast_ofNat, ← zpow_natCast, Int.toNat_of_nonneg hexp, Binary.value]
    push_cast
    ring
  · rename_i hexp
    rw [if_neg (by omega), zero_sub, Int.cast_add, Int.cast_mul, Int.cast_pow, Int.cast_ofNat,
      add_mul, mul_assoc, ← zpow_natCast, Int.toNat_of_nonneg (by omega), ← zpow_add₀ two_ne_zero,
      Binary.value]
    push_cast
    rw [neg_add_cancel, zpow_zero]
    ring

/-- Rounding does not take a number of moderate size to minus one. -/
theorem aboveMinusOne_round {y : Binary} {target : ℕ} (ht : 57 ≤ target) (hy : y.mantissa ≠ 0)
    (hlow : 2 ^ (-51 : ℤ) - 1 ≤ y.value) (hhigh : y.value ≤ 2 ^ (50 : ℤ)) (accuracy : ℤ) :
    AboveMinusOne ⟨.number (y.round target), accuracy⟩ := by
  have hround := Binary.mantissa_round_ne_zero (by omega : 1 ≤ target) hy
  have hle := Binary.abs_value_round_le target y
  have hlast : ((2 : ℚ) ^ target)⁻¹ ≤ (2 ^ 57)⁻¹ := by
    gcongr
    exact one_le_two
  have hsize : |(y.round target).value| ≤ |y.value| * (1 + (2 ^ 57)⁻¹) :=
    hle.trans (mul_le_mul_of_nonneg_left (by linarith) (abs_nonneg _))
  refine ⟨_, rfl, hround, ?_, ?_⟩
  · rcases le_or_gt 0 y.value with hpos | hneg
    · linarith [Binary.value_round_nonneg target hpos]
    · rw [abs_of_neg hneg] at hsize
      have hfar : -y.value * (1 + (2 ^ 57)⁻¹) < 1 := by
        norm_num at hlow ⊢
        linarith
      exact neg_lt.1 ((neg_le_abs _).trans_lt (hsize.trans_lt hfar))
  · have hbound : |y.value| ≤ 2 ^ (50 : ℤ) := abs_le.2 ⟨by norm_num at hlow ⊢; linarith, hhigh⟩
    have hlt : (2 : ℚ) ^ ((y.round target).magnitude - 1) < 2 ^ (52 : ℤ) := by
      refine ((Binary.magnitude_bounds hround).1.trans hsize).trans_lt ?_
      norm_num at hbound ⊢
      linarith
    rw [zpow_lt_zpow_iff_right₀ one_lt_two] at hlt
    omega

/-- What is left of a number of moderate size when one is subtracted from it. -/
theorem aboveMinusOne_addParts {p : Part} {b bits target : ℕ} (hp : ModeratePart p)
    (hbits : 57 ≤ bits) (ht : 57 ≤ target) :
    ∃ r, addParts [⟨.number (Binary.ofInt (-1)), b⟩, p] bits target = some r ∧ AboveMinusOne r := by
  obtain ⟨x, hx, hpos, hlow, hhigh, haccuracy⟩ := hp
  obtain ⟨hbelow, habove⟩ := Binary.magnitude_bounds hpos.ne'
  rw [abs_of_pos (Binary.value_pos_iff.2 hpos)] at hbelow habove
  have hzero : (Extended.number (Binary.ofInt (-1))).isZero = false ∧ p.value.isZero = false := by
    rw [hx]
    exact ⟨rfl, Binary.isZero_eq_false_iff.2 hpos.ne'⟩
  have hworst : worstPlace [⟨.number (Binary.ofInt (-1)), b⟩, p] ≤ 50 := by
    have hone : errorPlace ⟨.number (Binary.ofInt (-1)), b⟩ = 1 - b := rfl
    have hp : errorPlace p = x.magnitude - p.accuracy := by
      rw [errorPlace, hx, Extended.magnitude, Binary.isZero_eq_false_iff.2 hpos.ne']
      rfl
    show max (errorPlace ⟨.number (Binary.ofInt (-1)), b⟩) (errorPlace p) ≤ 50
    rw [hone, hp]
    omega
  have hdifference := @addTerm_minusOne (2 * bits) x hpos.ne' (by omega) (by omega)
  rw [addParts, List.filter_cons_of_pos (by simp [hzero.1]), List.filter_cons_of_pos
    (by simp [hzero.2]), List.filter_nil]
  simp only [List.filter_cons, List.filter_nil, List.filterMap_cons, List.filterMap_nil,
    Extended.isNumber, number?, hx, List.foldl_cons, List.foldl_nil, addTerm_one, Bool.not_true,
    Bool.false_eq_true, if_false, List.isEmpty_nil]
  generalize worstPlace [⟨.number (Binary.ofInt (-1)), b⟩, p] = worst at hworst
  split
  · have hvalue : (0 : ℚ) < (⟨1, worst⟩ : Binary).value := Binary.value_pos_iff.2 one_pos
    have hmagnitude : (⟨1, worst⟩ : Binary).magnitude = worst + 1 := rfl
    exact ⟨_, rfl, _, rfl, one_ne_zero, by linarith, by omega⟩
  · rename_i hm
    have hlow : (2 : ℚ) ^ (-51 : ℤ) ≤ 2 ^ (x.magnitude - 1) :=
      zpow_le_zpow_right₀ one_le_two (by omega)
    have hhigh : (2 : ℚ) ^ x.magnitude ≤ 2 ^ (50 : ℤ) := zpow_le_zpow_right₀ one_le_two hhigh
    refine ⟨_, rfl, aboveMinusOne_round ht (Binary.mantissa_normal_ne_zero _ hm) ?_ ?_ _⟩
    · rw [Binary.value_normal, hdifference]
      linarith
    · rw [Binary.value_normal, hdifference]
      linarith

/-- One is subtracted with more and more bits. -/
theorem yields_sumFrom_minusOne {ev : Evaluator} (h : Moderate ev) {target : ℕ} (limit fuel : ℕ)
    (ht : pointBits.1 ≤ target) {bits : ℕ} (round : ℕ) (hbits : pointBits.1 ≤ bits) :
    Yields (fun v => ∃ r, v = .parts (some r) none ∧ AboveMinusOne r)
      (sumFrom [fun b _ => .ok (.real b (.number (Binary.ofInt (-1)))), ev] target limit fuel bits
        round) := by
  have hleast : pointBits.1 = 57 := rfl
  have honce {vs : List Evaluated} (bits : ℕ) {b : ℕ} (hbits : pointBits.1 ≤ bits)
      (hvs : ∃ p, vs = [.real b (.number (Binary.ofInt (-1))), .parts (some p) none] ∧
        ModeratePart p) :
      countInfinite vs = 0 ∧ ∃ r, sumOnce vs bits target = .parts (some r) none ∧
        AboveMinusOne r := by
    obtain ⟨p, rfl, hp⟩ := hvs
    obtain ⟨r, hr, habove⟩ := aboveMinusOne_addParts (b := b) hp (hleast ▸ hbits) (hleast ▸ ht)
    refine ⟨rfl, r, ?_, habove⟩
    rw [← hr]
    rfl
  have hrun (bits limit : ℕ) (hbits : pointBits.1 ≤ bits) :
      Yields (fun vs => ∃ p, vs = [.real bits (.number (Binary.ofInt (-1))), .parts (some p) none] ∧
          ModeratePart p)
        (runAll bits limit [fun b _ => .ok (.real b (.number (Binary.ofInt (-1)))), ev]) := by
    obtain ⟨_, hv, p, rfl, hp⟩ := h bits limit hbits
    refine ⟨_, ?_, p, rfl, hp⟩
    simp only [runAll, hv, bind, Except.bind, pure, Except.pure]
  induction fuel generalizing bits round with
  | zero =>
    refine (hrun _ _ (by omega)).bind fun vs hvs => .pure ?_
    exact (honce bits hbits hvs).2
  | succ fuel ih =>
    refine (hrun _ _ (by omega)).bind fun vs hvs => ?_
    obtain ⟨hcount, hsum⟩ := honce bits hbits hvs
    rw [hcount, if_neg (not_not.2 rfl)]
    dsimp only
    split
    · exact .pure hsum
    · exact ih _ (by omega)

/-- What is above minus one has a logarithm when one is added to it. -/
theorem log_add_one {z : Binary} (hz : z.mantissa ≠ 0) (habove : -1 < z.value) {prec : ℕ}
    (hprec : 1 ≤ prec) (bits : ℕ) :
    ((((Extended.number z).add prec .one).abs).log bits).isNumber = true := by
  have hone : Binary.one.mantissa ≠ 0 := one_ne_zero
  have hsum : (z.addTo prec Binary.one).mantissa ≠ 0 := by
    rw [Binary.addTo, Binary.isZero_eq_false_iff.2 hz, Binary.isZero_eq_false_iff.2 hone]
    simp only [Bool.false_eq_true, if_false]
    split_ifs
    · exact Binary.mantissa_round_ne_zero hprec hz
    · exact Binary.mantissa_round_ne_zero hprec hone
    · refine Binary.mantissa_round_ne_zero hprec (Binary.value_ne_zero_iff.1 ?_)
      have hvalue : Binary.one.value = 1 := by
        rw [Binary.value, Binary.one, Int.cast_one, zpow_zero, mul_one]
      rw [Binary.value_add, hvalue]
      linarith
  have habs : ((z.addTo prec Binary.one).abs).isZero = false := by
    rw [Binary.isZero_eq_false_iff]
    exact Nat.cast_ne_zero.2 (Int.natAbs_ne_zero.2 hsum)
  rw [Extended.one, Extended.add, Extended.abs, Extended.log, habs]
  rfl

/-- **The logarithm of a positive number of moderate size is a number.** -/
theorem hasNumber_logarithm {ev : Evaluator} (h : Moderate ev) : HasNumber (logarithm ev) := by
  intro bits limit hbits
  refine (h _ limit (by omega)).bind ?_
  rintro _ ⟨p, rfl, x, hx, hpos, -, -, -⟩
  have hl : p.value.log bits = .number (Elementary.log bits x.abs) := by
    rw [hx, Extended.log, Binary.isZero_eq_false_iff.2 hpos.ne']
    rfl
  dsimp only [valueOr]
  rw [hl]
  dsimp only
  have hend : ∀ l : Extended, l.isNumber = true → IsNumber
      (if p.value.isNegative = true then
        .parts (some ⟨l, bits⟩) (some ⟨.number (Elementary.pi bits), bits⟩) else .real bits l) := by
    intro l hl
    split
    · exact isNumber_parts hl rfl
    · exact isNumber_real hl
  split
  · refine (yields_sumFrom_minusOne h limit 12 hbits 0 hbits).bind ?_
    rintro _ ⟨r, rfl, z, hz, hne, habove, hsize⟩
    have hmagnitude : r.value.magnitude = z.magnitude := by
      rw [hz, Extended.magnitude, Binary.isZero_eq_false_iff.2 hne]
      rfl
    have hleast : pointBits.1 = 57 := rfl
    refine .pure (hend _ ?_)
    simp only [Evaluated.values, valueOr_some]
    rw [hmagnitude, hz]
    exact log_add_one hne habove (by omega) bits
  · exact .pure (hend _ rfl)

end Evaluation
end ErrorBars
