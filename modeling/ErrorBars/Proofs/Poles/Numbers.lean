import ErrorBars.Expr.Evaluate
import Mathlib.Algebra.Order.Ring.Int

/-!
# Results that are numbers

An evaluation may end without a result, and a result may be infinite or no number.  Most of what an
evaluation does to numbers gives numbers again: only a reciprocal, a negative power and a logarithm
need to know that they are not given zero.

* `Yields P r` — the computation `r` succeeds, with a result of which `P` holds.
* `Binary.mantissa_*_ne_zero` — what keeps a number from becoming zero when it is cut to some bits.
* `Evaluated.IsNumber` — a result whose parts are numbers.
-/

set_option autoImplicit false

namespace ErrorBars

/-! ## Computations that succeed -/

/-- The computation succeeds, with a result of this kind. -/
def Yields {ε α : Type} (P : α → Prop) (r : Except ε α) : Prop := ∃ x, r = .ok x ∧ P x

namespace Yields

variable {ε α β : Type} {P : α → Prop} {Q : β → Prop} {r : Except ε α}

theorem ok {x : α} (h : P x) : Yields P (.ok x : Except ε α) := ⟨x, rfl, h⟩

theorem pure {x : α} (h : P x) : Yields P (Pure.pure x : Except ε α) := ⟨x, rfl, h⟩

theorem bind {f : α → Except ε β} (h : Yields P r) (hf : ∀ x, P x → Yields Q (f x)) :
    Yields Q (r >>= f) := by
  obtain ⟨x, rfl, hx⟩ := h
  exact hf x hx

end Yields

/-! ## Numbers that do not become zero -/

namespace Binary

variable {x y : Binary} {bits n : ℕ}

theorem stripTwos_succ (fuel m : ℕ) (e : ℤ) : stripTwos (fuel + 1) m e =
    if m = 0 then (0, 0)
    else if m % 2 ^ 2 ^ fuel = 0 then stripTwos fuel (m >>> 2 ^ fuel) (e + (2 ^ fuel : ℕ))
    else stripTwos fuel m e :=
  rfl

theorem stripTwos_ne_zero (fuel : ℕ) {m : ℕ} (e : ℤ) (hm : m ≠ 0) :
    (stripTwos fuel m e).1 ≠ 0 := by
  induction fuel generalizing m e with
  | zero => exact hm
  | succ fuel ih =>
    rw [stripTwos_succ, if_neg hm]
    split
    · rename_i hdvd
      refine ih _ ?_
      rw [Nat.shiftRight_eq_div_pow]
      have hle := Nat.le_of_dvd (Nat.pos_of_ne_zero hm) (Nat.dvd_of_mod_eq_zero hdvd)
      exact (Nat.div_pos hle (Nat.two_pow_pos _)).ne'
    · exact ih _ hm

theorem mantissa_normal_ne_zero {m : ℤ} (e : ℤ) (hm : m ≠ 0) : (normal m e).mantissa ≠ 0 := by
  have hk : (if m.natAbs % 2 = 1 then (m.natAbs, e)
      else stripTwos (bitLength (bitLength m.natAbs) + 1) m.natAbs e).1 ≠ 0 := by
    split
    · exact Int.natAbs_ne_zero.2 hm
    · exact stripTwos_ne_zero _ _ (Int.natAbs_ne_zero.2 hm)
  rw [normal, if_neg hm]
  dsimp only
  split
  · exact neg_ne_zero.2 (Nat.cast_ne_zero.2 hk)
  · exact Nat.cast_ne_zero.2 hk

theorem shiftNearest_ne_zero {k : ℕ} (h : k < bitLength n) : shiftNearest n k ≠ 0 := by
  have hn : n ≠ 0 := by
    rintro rfl
    exact absurd h (Nat.not_lt_zero k)
  rw [bitLength, if_neg hn] at h
  have hquotient : n >>> k ≠ 0 := by
    rw [Nat.shiftRight_eq_div_pow]
    refine (Nat.div_pos ?_ (Nat.two_pow_pos _)).ne'
    exact (Nat.pow_le_pow_right Nat.two_pos (Nat.le_of_lt_succ h)).trans (Nat.log2_self_le hn)
  rw [shiftNearest]
  split
  · exact hn
  · dsimp only
    split
    · exact Nat.succ_ne_zero _
    · exact hquotient

/-- Cutting a number to at least one bit does not make it zero. -/
theorem mantissa_round_ne_zero (hbits : 1 ≤ bits) (hx : x.mantissa ≠ 0) :
    (x.round bits).mantissa ≠ 0 := by
  have hn : x.mantissa.natAbs ≠ 0 := Int.natAbs_ne_zero.2 hx
  have hlength : 0 < bitLength x.mantissa.natAbs := by
    rw [bitLength, if_neg hn]
    exact Nat.succ_pos _
  rw [round]
  dsimp only
  split
  · exact hx
  · have hm : shiftNearest x.mantissa.natAbs (bitLength x.mantissa.natAbs - bits) ≠ 0 :=
      shiftNearest_ne_zero (by omega)
    refine mantissa_normal_ne_zero _ ?_
    split
    · exact neg_ne_zero.2 (Nat.cast_ne_zero.2 hm)
    · exact Nat.cast_ne_zero.2 hm

theorem mantissa_mul_ne_zero (hx : x.mantissa ≠ 0) (hy : y.mantissa ≠ 0) :
    (x.mul y).mantissa ≠ 0 :=
  mantissa_normal_ne_zero _ (mul_ne_zero hx hy)

theorem mantissa_powNat_ne_zero (hbits : 1 ≤ bits) (hx : x.mantissa ≠ 0) (n : ℕ) :
    (powNat bits x n).mantissa ≠ 0 := by
  fun_induction powNat bits x n with
  | case1 => exact one_ne_zero
  | case2 n hn half square heven ih =>
    exact mantissa_round_ne_zero hbits (mantissa_mul_ne_zero ih ih)
  | case3 n hn half square hodd ih =>
    have hsquare := mantissa_round_ne_zero hbits (mantissa_mul_ne_zero ih ih)
    exact mantissa_round_ne_zero hbits (mantissa_mul_ne_zero hsquare hx)

/-- A natural power of a number other than zero is not zero. -/
theorem mantissa_powInt_ne_zero (hbits : 1 ≤ bits) (hx : x.mantissa ≠ 0) (n : ℕ) :
    (powInt bits x n).mantissa ≠ 0 := by
  rw [powInt, if_pos (Int.natCast_nonneg n)]
  exact mantissa_round_ne_zero hbits (mantissa_powNat_ne_zero (by omega) hx _)

theorem round_of_zero (bits : ℕ) (hx : x.mantissa = 0) : x.round bits = x := by
  have hlength : bitLength (Int.natAbs 0) = 0 := rfl
  rw [round, hx, hlength]
  exact if_pos (Nat.zero_sub bits)

theorem mantissa_mul_eq_zero (h : x.mantissa = 0 ∨ y.mantissa = 0) : (x.mul y).mantissa = 0 := by
  rw [mul, normal, if_pos (mul_eq_zero.2 h)]
  rfl

theorem mantissa_powNat_eq_zero (bits : ℕ) (hx : x.mantissa = 0) (hn : n ≠ 0) :
    (powNat bits x n).mantissa = 0 := by
  fun_induction powNat bits x n with
  | case1 => contradiction
  | case2 n hn half square heven ih =>
    have hsquare := mantissa_mul_eq_zero (.inl (ih (by omega)) : _ ∨ half.mantissa = 0)
    show (round bits (half.mul half)).mantissa = 0
    rwa [round_of_zero bits hsquare]
  | case3 n hn half square hodd ih =>
    have hproduct := mantissa_mul_eq_zero (.inr hx : square.mantissa = 0 ∨ _)
    rwa [round_of_zero bits hproduct]

/-- A natural power of zero is zero, unless there are no factors. -/
theorem mantissa_powInt_eq_zero (bits : ℕ) (hx : x.mantissa = 0) (hn : n ≠ 0) :
    (powInt bits x n).mantissa = 0 := by
  have hpower := mantissa_powNat_eq_zero (bits + 2 * bitLength n + 10) hx hn
  rw [powInt, if_pos (Int.natCast_nonneg n)]
  rwa [Int.natAbs_natCast, round_of_zero bits hpower]

theorem shiftLeft_pos (k : ℕ) (h : 0 < n) : 0 < n <<< k := by
  rw [Nat.shiftLeft_eq]
  exact Nat.mul_pos h (Nat.two_pow_pos k)

theorem mantissa_sqrt_ne_zero (hbits : 1 ≤ bits) (hx : 0 < x.mantissa) :
    (sqrt bits x).mantissa ≠ 0 := by
  rw [sqrt, if_neg (not_le.2 hx)]
  refine mantissa_round_ne_zero hbits (mantissa_normal_ne_zero _ (Nat.cast_ne_zero.2 ?_))
  -- the root of a number other than zero is not zero, whatever its last bit
  refine Nat.ne_of_gt (Nat.add_pos_left (Nat.mul_pos Nat.two_pos (Nat.sqrt_pos.2 ?_)) _)
  exact shiftLeft_pos _ (shiftLeft_pos _ (Int.natAbs_pos.2 hx.ne'))

theorem isZero_eq_false_iff : x.isZero = false ↔ x.mantissa ≠ 0 := by
  rw [isZero, beq_eq_false_iff_ne]

end Binary

/-! ## Numbers among extended ones -/

namespace Extended

variable {x y : Extended} {bits n : ℕ}

theorem isNumber_iff : x.isNumber = true ↔ ∃ b, x = .number b := by
  cases x <;> simp [isNumber]

theorem isNumber_neg (hx : x.isNumber = true) : x.neg.isNumber = true := by
  obtain ⟨b, rfl⟩ := isNumber_iff.1 hx
  rfl

theorem isNumber_abs (hx : x.isNumber = true) : x.abs.isNumber = true := by
  obtain ⟨b, rfl⟩ := isNumber_iff.1 hx
  rfl

theorem isNumber_round (bits : ℕ) (hx : x.isNumber = true) : (x.round bits).isNumber = true := by
  obtain ⟨b, rfl⟩ := isNumber_iff.1 hx
  rfl

theorem isNumber_sqrt (bits : ℕ) (hx : x.isNumber = true) : (x.sqrt bits).isNumber = true := by
  obtain ⟨b, rfl⟩ := isNumber_iff.1 hx
  rfl

theorem isNumber_exp (bits : ℕ) (hx : x.isNumber = true) : (x.exp bits).isNumber = true := by
  obtain ⟨b, rfl⟩ := isNumber_iff.1 hx
  rfl

theorem isNumber_arctan (bits : ℕ) (hx : x.isNumber = true) : (x.arctan bits).isNumber = true := by
  obtain ⟨b, rfl⟩ := isNumber_iff.1 hx
  rfl

theorem isNumber_add (bits : ℕ) (hx : x.isNumber = true) (hy : y.isNumber = true) :
    (x.add bits y).isNumber = true := by
  obtain ⟨a, rfl⟩ := isNumber_iff.1 hx
  obtain ⟨b, rfl⟩ := isNumber_iff.1 hy
  rfl

theorem isNumber_mul (bits : ℕ) (hx : x.isNumber = true) (hy : y.isNumber = true) :
    (mul bits x y).isNumber = true := by
  obtain ⟨a, rfl⟩ := isNumber_iff.1 hx
  obtain ⟨b, rfl⟩ := isNumber_iff.1 hy
  rfl

/-- A natural power is a number. -/
theorem powInt_of_nonneg (bits : ℕ) (b : Binary) {n : ℤ} (hn : 0 ≤ n) :
    Yields (fun z : Extended => z.isNumber = true) (powInt bits (.number b) n) := by
  rw [powInt, if_pos hn]
  exact .ok rfl

/-- Any whole power of a number other than zero is a number. -/
theorem powInt_of_ne_zero (bits : ℕ) {b : Binary} (hb : b.mantissa ≠ 0) (n : ℤ) :
    Yields (fun z : Extended => z.isNumber = true) (powInt bits (.number b) n) := by
  by_cases hn : 0 ≤ n
  · exact powInt_of_nonneg bits b hn
  · have hpower : (Binary.powInt (bits + 5) b n.natAbs).isZero = false :=
      Binary.isZero_eq_false_iff.2 (Binary.mantissa_powInt_ne_zero (by omega) hb _)
    rw [powInt, if_neg hn, powNat, inverse, hpower]
    exact .ok rfl

/-- A negative power of zero is a division by zero. -/
theorem powInt_of_zero (bits : ℕ) {b : Binary} (hb : b.mantissa = 0) {n : ℤ} (hn : n < 0) :
    powInt bits (.number b) n = .error .divisionByZero := by
  have hpower : (Binary.powInt (bits + 5) b n.natAbs).mantissa = 0 :=
    Binary.mantissa_powInt_eq_zero _ hb (by omega)
  rw [powInt, if_neg (not_le.2 hn), powNat, inverse, if_pos]
  rw [Binary.isZero, hpower]
  rfl

end Extended

namespace Evaluation

open Extended

/-! ## Pairs of numbers -/

/-- Both parts are numbers. -/
def NumberPair (x : Pair) : Prop := x.1.isNumber = true ∧ x.2.isNumber = true

namespace NumberPair

variable {x y : Pair}

theorem one_zero : NumberPair (.one, .zero) := ⟨rfl, rfl⟩

theorem mul (bits : ℕ) (hx : NumberPair x) (hy : NumberPair y) : NumberPair (mulPair bits x y) :=
  ⟨isNumber_add bits (isNumber_mul bits hx.1 hy.1) (isNumber_neg (isNumber_mul bits hx.2 hy.2)),
    isNumber_add bits (isNumber_mul bits hx.1 hy.2) (isNumber_mul bits hx.2 hy.1)⟩

theorem turn (n : ℕ) (hx : NumberPair x) : NumberPair (turn n x) := by
  unfold Evaluation.turn
  split
  · exact hx
  · exact ⟨isNumber_neg hx.2, hx.1⟩
  · exact ⟨isNumber_neg hx.1, isNumber_neg hx.2⟩
  · exact ⟨hx.2, isNumber_neg hx.1⟩

theorem isNumber_absPair (bits : ℕ) (hx : NumberPair x) : (absPair bits x).isNumber = true :=
  isNumber_sqrt bits (isNumber_add _ (isNumber_mul _ hx.1 hx.1) (isNumber_mul _ hx.2 hx.2))

theorem powNat (bits : ℕ) (hx : NumberPair x) (n : ℕ) : NumberPair (powNatPair bits x n) := by
  fun_induction powNatPair bits x n with
  | case1 => exact one_zero
  | case2 n hn half square heven ih => exact ih.mul bits ih
  | case3 n hn half square hodd ih => exact (ih.mul bits ih).mul bits hx

theorem exp (bits : ℕ) (hx : NumberPair x) : NumberPair (expPair bits x) := by
  obtain ⟨a, b⟩ := x
  obtain ⟨y, rfl⟩ := isNumber_iff.1 hx.2
  have hsize := isNumber_exp (bits + 8) hx.1
  exact ⟨isNumber_mul bits hsize rfl, isNumber_mul bits hsize rfl⟩

theorem sqrt (bits : ℕ) (hx : NumberPair x) : NumberPair (sqrtPair bits x) := by
  have hsize := isNumber_absPair (bits + 20) hx
  unfold sqrtPair
  dsimp only
  split
  · split
    · exact ⟨rfl, isNumber_sqrt bits (isNumber_abs hx.1)⟩
    · exact ⟨isNumber_sqrt bits hx.1, rfl⟩
  · have himaginary := isNumber_sqrt bits (isNumber_mul (bits + 20)
      (isNumber_add (bits + 20) hsize (isNumber_neg hx.1)) (y := .number ⟨1, -1⟩) rfl)
    refine ⟨isNumber_sqrt bits (isNumber_mul _ (isNumber_add _ hsize hx.1) rfl), ?_⟩
    split
    · exact isNumber_neg himaginary
    · exact himaginary

theorem circular (wantCosine : Bool) (bits : ℕ) (hx : NumberPair x) :
    NumberPair (circularPair wantCosine bits x) := by
  obtain ⟨a, b⟩ := x
  obtain ⟨re, rfl⟩ := isNumber_iff.1 hx.1
  obtain ⟨im, rfl⟩ := isNumber_iff.1 hx.2
  cases wantCosine <;> exact ⟨rfl, rfl⟩

end NumberPair

end Evaluation

/-! ## Results whose parts are numbers -/

namespace Evaluated

open Extended Evaluation

/-- The part is a number, if it is there. -/
def NumberPart (p : Option Part) : Prop := ∀ x ∈ p, x.value.isNumber = true

/-- Both parts are numbers. -/
def IsNumber : Evaluated → Prop
  | .complexInfinity => False
  | .parts re im => NumberPart re ∧ NumberPart im

theorem numberPart_none : NumberPart none := nofun

theorem numberPart_some {p : Part} : NumberPart (some p) ↔ p.value.isNumber = true := by
  simp [NumberPart]

theorem valueOr_some (p : Part) : valueOr (some p) = p.value := rfl

theorem NumberPart.valueOr {p : Option Part} (h : NumberPart p) :
    (valueOr p).isNumber = true := by
  cases p with
  | none => rfl
  | some p => exact numberPart_some.1 h

variable {v : Evaluated} {x y : Extended} {bits : ℕ}

theorem isNumber_zero : zero.IsNumber := ⟨numberPart_none, numberPart_none⟩

theorem isNumber_real (h : x.isNumber = true) : (real bits x).IsNumber :=
  ⟨numberPart_some.2 h, numberPart_none⟩

theorem isNumber_imaginary (h : x.isNumber = true) : (imaginary bits x).IsNumber :=
  ⟨numberPart_none, numberPart_some.2 h⟩

theorem isNumber_parts {p q : Part} (hp : p.value.isNumber = true) (hq : q.value.isNumber = true) :
    (parts (some p) (some q)).IsNumber :=
  ⟨numberPart_some.2 hp, numberPart_some.2 hq⟩

theorem isNumber_ofComplex (hx : x.isNumber = true) (hy : y.isNumber = true) :
    (ofComplex bits x y).IsNumber := by
  unfold ofComplex
  split
  · exact isNumber_zero
  · split
    · exact isNumber_imaginary hy
    · split
      · exact isNumber_real hx
      · dsimp only
        split
        · exact isNumber_parts hx hy
        · exact isNumber_parts hx hy

theorem IsNumber.re? (h : v.IsNumber) : NumberPart v.re? := by
  cases v with
  | complexInfinity => exact h.elim
  | parts re im => exact h.1

theorem IsNumber.im? (h : v.IsNumber) : NumberPart v.im? := by
  cases v with
  | complexInfinity => exact h.elim
  | parts re im => exact h.2

theorem IsNumber.values (h : v.IsNumber) : NumberPair v.values := by
  cases v with
  | complexInfinity => exact h.elim
  | parts re im => exact ⟨h.1.valueOr, h.2.valueOr⟩

end Evaluated

end ErrorBars
