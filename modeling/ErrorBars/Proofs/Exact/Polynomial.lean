import Mathlib.Algebra.BigOperators.Group.List.Lemmas
import Mathlib.Algebra.BigOperators.Ring.List
import Mathlib.Data.Rat.Cast.Defs
import Mathlib.Tactic.Ring
import ErrorBars.Polynomial.Gcd

/-!
# Values of polynomials

A polynomial in `n` variables has a value at every point with rational coordinates.  Sums, products,
multiples and exact quotients of polynomials have the sums, products, multiples and quotients of the
values.

What is called a greatest common divisor need not be the greatest one for what follows.  A
quotient of two polynomials keeps its value whatever both are divided by, as long as it divides
both (`value_reduce`), and that is known because the quotients are there.
-/

set_option autoImplicit false

namespace ErrorBars.Poly

/-- The value at a point with rational coordinates. -/
def value : {n : ℕ} → List ℚ → Poly n → ℚ
  | 0, _, p => p.toInt
  | _ + 1, xs, p => (p.coeffs.map fun a => xs.headD 0 ^ a.1 * value xs.tail a.2).sum

variable {n : ℕ} {xs : List ℚ}

theorem value_ofInt (xs : List ℚ) (k : ℤ) : value xs (ofInt k) = k := rfl

/-- The value of a polynomial from its coefficients. -/
theorem value_ofCoeffs (xs : List ℚ) (cs : List (ℕ × Poly n)) : value xs (ofCoeffs cs) =
    (cs.map fun a => xs.headD 0 ^ a.1 * value xs.tail a.2).sum := rfl

theorem value_coeffs (xs : List ℚ) (p : Poly (n + 1)) :
    value xs p = (p.coeffs.map fun a => xs.headD 0 ^ a.1 * value xs.tail a.2).sum := rfl

theorem value_monic (xs : List ℚ) (d : ℕ) (c : Poly n) :
    value xs (ofCoeffs [(d, c)]) = xs.headD 0 ^ d * value xs.tail c := by
  rw [value_ofCoeffs, List.map_singleton, List.sum_singleton]

theorem value_zero (n : ℕ) (xs : List ℚ) : value xs (zero n) = 0 := by
  cases n with
  | zero => exact Int.cast_zero
  | succ n => rfl

theorem value_of_isZero {p : Poly n} (h : p.isZero = true) : value xs p = 0 := by
  cases n with
  | zero =>
    rw [isZero, beq_iff_eq] at h
    rw [value, h, Int.cast_zero]
  | succ n =>
    rw [isZero, List.isEmpty_iff] at h
    rw [value_coeffs, h]
    rfl

theorem value_const (n : ℕ) (xs : List ℚ) (k : ℤ) : value xs (const n k) = k := by
  induction n generalizing xs with
  | zero => rfl
  | succ n ih =>
    rw [const]
    split
    · rename_i hk
      rw [hk, Int.cast_zero]
      rfl
    · rw [value_monic, ih, pow_zero, one_mul]

/-! ## Sums and products -/

theorem sum_mergeCoeffs {α : Type} {add : α → α → α} {isZero : α → Bool} {f : ℕ → α → ℚ}
    (hadd : ∀ d a b, f d (add a b) = f d a + f d b) (hzero : ∀ d a, isZero a = true → f d a = 0)
    (as bs : List (ℕ × α)) : ((mergeCoeffs add isZero as bs).map fun a => f a.1 a.2).sum =
      (as.map fun a => f a.1 a.2).sum + (bs.map fun a => f a.1 a.2).sum := by
  fun_induction mergeCoeffs add isZero as bs with
  | case1 bs => exact (zero_add _).symm
  | case2 as => exact (add_zero _).symm
  | case3 a as b bs _ ih =>
    rw [List.map_cons, List.sum_cons, ih, ← add_assoc]
    rfl
  | case4 a as b bs _ _ ih =>
    rw [List.map_cons, List.sum_cons, ih, List.map_cons (l := bs), List.sum_cons, add_left_comm]
  | case5 a as b bs hba hab c hc ih =>
    have hdegree : b.1 = a.1 := by omega
    have hsum : f a.1 a.2 + f b.1 b.2 = 0 := by rw [hdegree, ← hadd, hzero _ _ hc]
    rw [ih, List.map_cons, List.sum_cons, List.map_cons, List.sum_cons, add_add_add_comm, hsum,
      zero_add]
  | case6 a as b bs hba hab c hc ih =>
    have hdegree : b.1 = a.1 := by omega
    have hsum : f a.1 c = f a.1 a.2 + f b.1 b.2 := by rw [hdegree, ← hadd]
    rw [List.map_cons, List.sum_cons, ih, List.map_cons, List.sum_cons, List.map_cons,
      List.sum_cons, hsum, add_add_add_comm]

/-- **The value of a sum.** -/
theorem value_add (xs : List ℚ) (p q : Poly n) : value xs (add p q) = value xs p + value xs q := by
  induction n generalizing xs with
  | zero => exact Int.cast_add _ _
  | succ n ih =>
    rw [add, value_ofCoeffs]
    refine sum_mergeCoeffs (f := fun d c => xs.headD 0 ^ d * value xs.tail c) ?_ ?_ _ _
    · intro d a b
      rw [ih, mul_add]
    · intro d a ha
      rw [value_of_isZero ha, mul_zero]

theorem value_neg (xs : List ℚ) (p : Poly n) : value xs (neg p) = -value xs p := by
  induction n generalizing xs with
  | zero => exact Int.cast_neg _
  | succ n ih =>
    rw [neg, value_ofCoeffs, value_coeffs, List.map_map, List.sum_neg, List.map_map]
    refine congrArg List.sum (List.map_congr_left fun a _ => ?_)
    rw [Function.comp_apply, Function.comp_apply, ih, mul_neg]

theorem value_sub (xs : List ℚ) (p q : Poly n) : value xs (sub p q) = value xs p - value xs q := by
  rw [sub, value_add, value_neg, sub_eq_add_neg]

/-- The value of a polynomial times a monomial, given the values of products of coefficients. -/
theorem sum_shift {x : ℚ} {k : ℕ} {c : Poly n} (xs : List ℚ)
    (hmul : ∀ q : Poly n, value xs (mul c q) = value xs c * value xs q) (cs : List (ℕ × Poly n)) :
    (cs.map fun b => x ^ (k + b.1) * value xs (mul c b.2)).sum =
      x ^ k * value xs c * (cs.map fun b => x ^ b.1 * value xs b.2).sum := by
  rw [← List.sum_map_mul_left]
  refine congrArg List.sum (List.map_congr_left fun b _ => ?_)
  rw [hmul, pow_add]
  ring

/-- **The value of a product.** -/
theorem value_mul (xs : List ℚ) (p q : Poly n) : value xs (mul p q) = value xs p * value xs q := by
  induction n generalizing xs with
  | zero => exact Int.cast_mul _ _
  | succ n ih =>
    have hfold : ∀ (as : List (ℕ × Poly n)) (acc : Poly (n + 1)),
        value xs (as.foldl (fun acc a =>
          add acc (ofCoeffs (q.coeffs.map fun b => (a.1 + b.1, mul a.2 b.2)))) acc) =
          value xs acc + value xs (ofCoeffs as) * value xs q := by
      intro as
      induction as with
      | nil => exact fun acc => by rw [List.foldl_nil, value_ofCoeffs, List.map_nil, List.sum_nil,
          zero_mul, add_zero]
      | cons a as iha =>
        intro acc
        rw [List.foldl_cons, iha, value_add, value_ofCoeffs, value_ofCoeffs, List.map_map,
          value_ofCoeffs, List.map_cons, List.sum_cons, add_mul, ← add_assoc]
        refine congrArg (value xs acc + · + _) ?_
        exact sum_shift xs.tail (ih xs.tail a.2) q.coeffs
    rw [mul, hfold]
    exact zero_add _

theorem value_scale (xs : List ℚ) (k : ℤ) (p : Poly n) : value xs (scale k p) = k * value xs p := by
  rw [scale, value_mul, value_const]

theorem value_shift (xs : List ℚ) (k : ℕ) (c : Poly n) (p : Poly (n + 1)) :
    value xs (shift k c p) = xs.headD 0 ^ k * value xs.tail c * value xs p := by
  rw [shift, value_ofCoeffs, List.map_map, value_coeffs,
    ← sum_shift xs.tail (value_mul xs.tail c)]
  refine congrArg List.sum (List.map_congr_left fun a _ => ?_)
  rw [Function.comp_apply, add_comm k]

/-! ## Quotients -/

/-- Each step of a division takes a multiple of the divisor away.  How the multiple is found does not
matter: whatever the division of coefficients gives, what has been taken away is a multiple. -/
theorem value_divideWith {divideCoeff : Poly n → Poly n → Option (Poly n)} {fuel : ℕ}
    {p q k : Poly (n + 1)} (h : divideWith divideCoeff fuel p q = some k) :
    value xs p = value xs k * value xs q := by
  induction fuel generalizing p k with
  | zero => cases h
  | succ fuel ih =>
    rw [divideWith.eq_def] at h
    dsimp only at h
    split at h
    · rename_i hp
      rw [← Option.some.inj h, value_coeffs, hp]
      exact (zero_mul _).symm
    · cases h
    · rename_i d c _ e b _ _ _
      split at h
      · cases h
      · obtain ⟨m, -, h⟩ := Option.bind_eq_some_iff.1 h
        obtain ⟨rest, hrest, h⟩ := Option.bind_eq_some_iff.1 h
        have hv := ih hrest
        rw [value_sub, value_shift, sub_eq_iff_eq_add'] at hv
        rw [← Option.some.inj h, value_add, value_monic, add_mul]
        exact hv

/-- **The value of an exact quotient.** -/
theorem value_divide? {p q k : Poly n} (h : divide? p q = some k) :
    value xs p = value xs k * value xs q := by
  cases n with
  | zero =>
    rw [divide?] at h
    split at h
    · cases h
    · split at h
      · rename_i hmod
        rw [← Option.some.inj h, value_ofInt, value, value, ← Int.cast_mul,
          Int.ediv_mul_cancel (Int.dvd_of_emod_eq_zero hmod)]
      · cases h
  | succ n => exact value_divideWith h

/-- The values of two polynomials are those of a pair of polynomials times one number. -/
def Multiples (xs : List ℚ) (p q : Poly n) (r : Poly n × Poly n) : Prop :=
  ∃ c : ℚ, value xs p = value xs r.1 * c ∧ value xs q = value xs r.2 * c

/-- **In lowest terms** both polynomials are what they were, up to a common divisor. -/
theorem value_reduce (p q : Poly n) (xs : List ℚ) : Multiples xs p q (reduce p q) := by
  have hsign : ∀ {p' q' : Poly n}, Multiples xs p q (p', q') →
      Multiples xs p q (if q'.leadingInt < 0 then (neg p', neg q') else (p', q')) := by
    rintro p' q' ⟨c, hp, hq⟩
    split
    · exact ⟨-c, by rw [value_neg, neg_mul_neg, hp], by rw [value_neg, neg_mul_neg, hq]⟩
    · exact ⟨c, hp, hq⟩
  have hself : Multiples xs p q (p, q) := ⟨1, (mul_one _).symm, (mul_one _).symm⟩
  have hkept := hsign hself
  rw [reduce]
  generalize gcd p q = g
  cases hp : divide? p g with
  | none => exact hkept
  | some p' =>
    cases hq : divide? q g with
    | none => exact hkept
    | some q' => exact hsign ⟨value xs g, value_divide? hp, value_divide? hq⟩

/-! ## Monomials -/

/-- The value of a product of powers of the variables. -/
def powersValue (xs : List ℚ) (es : List ℕ) : ℚ := ((xs.zip es).map fun p => p.1 ^ p.2).prod

theorem powersValue_nil (xs : List ℚ) : powersValue xs [] = 1 := by
  rw [powersValue, List.zip_nil_right]
  rfl

theorem powersValue_cons (x : ℚ) (xs : List ℚ) (e : ℕ) (es : List ℕ) :
    powersValue (x :: xs) (e :: es) = x ^ e * powersValue xs es := rfl

/-- **The value of a monomial.** -/
theorem value_monomial (hxs : xs.length = n) (es : List ℕ) (k : ℤ) :
    value xs (monomial n es k) = k * powersValue xs es := by
  induction n generalizing xs es with
  | zero =>
    rw [List.length_eq_zero_iff.1 hxs]
    exact (mul_one _).symm
  | succ n ih =>
    obtain ⟨x, xs, rfl⟩ := List.exists_cons_of_length_eq_add_one hxs
    rw [monomial]
    split
    · rename_i hk
      rw [hk, Int.cast_zero, zero_mul]
      rfl
    · rw [value_monic, List.headD_cons, List.tail_cons, ih (Nat.succ.inj hxs), mul_left_comm]
      refine congrArg ((k : ℚ) * ·) ?_
      cases es with
      | nil =>
        rw [List.headD_nil, pow_zero, one_mul, List.tail_nil, powersValue_nil, powersValue_nil]
      | cons e es => rfl

/-- **A polynomial is the sum of its monomials.** -/
theorem value_monomials (hxs : xs.length = n) (p : Poly n) :
    value xs p = (p.monomials.map fun m => (m.2 : ℚ) * powersValue xs m.1).sum := by
  induction n generalizing xs with
  | zero =>
    rw [monomials, List.map_singleton, List.sum_singleton, powersValue_nil, mul_one]
    rfl
  | succ n ih =>
    obtain ⟨x, xs, rfl⟩ := List.exists_cons_of_length_eq_add_one hxs
    rw [value_coeffs, monomials, List.map_flatMap, List.flatMap_def,
      List.sum_flatten, List.map_map]
    refine congrArg List.sum (List.map_congr_left fun a _ => ?_)
    rw [Function.comp_apply, List.map_map, List.headD_cons, List.tail_cons,
      ih (Nat.succ.inj hxs), ← List.sum_map_mul_left]
    refine congrArg List.sum (List.map_congr_left fun m _ => ?_)
    rw [Function.comp_apply, powersValue_cons, mul_left_comm]

end ErrorBars.Poly
