import ErrorBars.Expr.Canonical.Power
import ErrorBars.Proofs.Exact.Product

/-!
# Canonical powers keep values

For a whole exponent there are four cases.  A power of a number is computed (`power_rat`); a power
of a variable or a sum stays as it is (`power_base`); a power of a product is the product of the
powers of the factors; and a power of a power has the product of the exponents.  In each of them
the value is the power of the value of the base (`denotes_power`).
-/

set_option autoImplicit false

namespace ErrorBars

open Expr

variable {R : Type} [CommRing R] [Algebra ℚ R] {A : Arith} {env : String → R}

namespace Canonical

variable {b : Expr} {q : ℚ} {m n : ℤ}

/-! ## Numbers -/

theorem mkRat_pow (q : ℚ) (k : ℕ) : mkRat (q.num ^ k) (q.den ^ k) = q ^ k := by
  rw [Rat.mkRat_eq_div, Int.cast_pow, Nat.cast_pow, ← div_pow, Rat.num_div_den]

theorem inv_pow_eq (q : ℚ) (k : ℕ) : (q ^ k)⁻¹ = (q.den : ℚ) ^ k / (q.num : ℚ) ^ k := by
  conv_lhs => rw [← Rat.num_div_den q]
  rw [div_pow, inv_div]

/-- The reciprocal of a power is put together from the magnitude of the numerator and its sign. -/
theorem negPower_eq (q : ℚ) (k : ℕ) :
    (if q.num < 0 ∧ -(k : ℤ) % 2 ≠ 0 then -mkRat ((q.den : ℤ) ^ k) (q.num.natAbs ^ k)
      else mkRat ((q.den : ℤ) ^ k) (q.num.natAbs ^ k)) = (q ^ k)⁻¹ := by
  rw [Rat.mkRat_eq_div, inv_pow_eq, Int.cast_pow, Nat.cast_pow, Int.cast_natCast]
  by_cases hneg : q.num < 0
  · have hnum : (q.num : ℚ) = -(q.num.natAbs : ℚ) := by
      have h : q.num = -(q.num.natAbs : ℤ) := by omega
      rw [← Int.cast_natCast q.num.natAbs, ← Int.cast_neg, ← h]
    rw [hnum]
    rcases Nat.even_or_odd k with hk | hk
    · have hmod : -(k : ℤ) % 2 = 0 := by
        obtain ⟨j, rfl⟩ := hk
        omega
      rw [if_neg fun h => h.2 hmod, hk.neg_pow]
    · have hmod : -(k : ℤ) % 2 ≠ 0 := by
        obtain ⟨j, rfl⟩ := hk
        omega
      rw [if_pos ⟨hneg, hmod⟩, hk.neg_pow, div_neg]
  · have hnum : (q.num : ℚ) = (q.num.natAbs : ℚ) := by
      have h : q.num = (q.num.natAbs : ℤ) := by omega
      rw [← Int.cast_natCast q.num.natAbs, ← h]
    rw [if_neg fun h => hneg h.1, hnum]

theorem ratPower?_eq (h : 0 ≤ n ∨ q ≠ 0) : ratPower? q n = some (q ^ n) := by
  rw [ratPower?]
  by_cases hn : 0 ≤ n
  · obtain ⟨k, rfl⟩ := Int.eq_ofNat_of_zero_le hn
    rw [if_pos hn, mkRat_pow, zpow_natCast]
    rfl
  · have hq : q ≠ 0 := h.resolve_left hn
    obtain ⟨k, rfl⟩ : ∃ k : ℕ, n = -(k : ℤ) := ⟨n.natAbs, by omega⟩
    have habs : (-(k : ℤ)).natAbs = k := by omega
    rw [if_neg hn, if_neg (Rat.num_ne_zero.2 hq), habs, zpow_neg, zpow_natCast, ← negPower_eq]

/-- **A power of a number is computed.** -/
theorem generalPower_rat (h : 0 ≤ n ∨ q ≠ 0) (hn : n ≠ 0) :
    generalPower A (.rat q) (int n) = .rat (q ^ n) := by
  rw [generalPower]
  show (if Expr.rat q == one then one
    else ((rationalPower A q (int n)).getD (rawPow (.rat q) (int n)))) = _
  split
  · rename_i h1
    rw [Expr.rat.inj (beq_iff_eq.1 h1), one_zpow]
    rfl
  · have hpower : rationalPower A q (int n) = some (.rat (q ^ n)) := by
      rw [rationalPower.eq_def]
      by_cases h0 : q = 0
      · have hpos : 0 < n := lt_of_le_of_ne (h.resolve_right fun hq => hq h0) (Ne.symm hn)
        have hfacts : (int n).facts.isPositive = true := by
          show (some (decide ((0 : ℚ) < n)) == some true) = true
          rw [decide_eq_true (by exact_mod_cast hpos)]
          rfl
        rw [if_pos h0, zeroPower]
        show (if (int n).facts.isPositive then _ else _) = _
        rw [hfacts, h0, zero_zpow n hn]
        rfl
      · rw [if_neg h0]
        show (if (n : ℚ).den = 1 then (ratPower? q (n : ℚ).num).map Expr.rat else _) = _
        rw [if_pos (Rat.den_intCast n), Rat.num_intCast, ratPower?_eq h]
        rfl
    rw [hpower]
    rfl

theorem int_eq_zero : (int n == zero) = true ↔ n = 0 := by
  rw [beq_iff_eq]
  constructor
  · intro h
    have heq : (n : ℚ) = 0 := Expr.rat.inj h
    exact_mod_cast heq
  · rintro rfl
    rfl

theorem int_eq_one : (int n == one) = true ↔ n = 1 := by
  rw [beq_iff_eq]
  constructor
  · intro h
    have heq : (n : ℚ) = 1 := Expr.rat.inj h
    exact_mod_cast heq
  · rintro rfl
    rw [int, Int.cast_one, one]

theorem int_eq_minusOne : (int n == minusOne) = true ↔ n = -1 := by
  rw [beq_iff_eq]
  constructor
  · intro h
    have heq : (n : ℚ) = -1 := Expr.rat.inj h
    exact_mod_cast heq
  · rintro rfl
    rw [int, Int.cast_neg, Int.cast_one, minusOne]

/-! ## All bases -/

theorem power_zero (b : Expr) : power A b (int 0) = one := rfl

theorem power_one (b : Expr) : power A b (int 1) = b := rfl

theorem power_int (A : Arith) (b : Expr) (n : ℤ) :
    power A b (int n) =
      if int n == zero then one else if int n == one then b
      else if int n == minusOne && b.isZero then complexInfinity
      else
        match (int n).int? with
        | some n =>
          if hasSign b then
            if n % 2 = 0 then generalPower A (A.neg b) (int n)
            else A.neg (A.power (A.neg b) (int n))
          else generalPower A b (int n)
        | none => generalPower A b (int n) := by
  rw [power.eq_def]
  rfl

/-- A power with an exponent that is neither zero nor one. -/
theorem power_eq (h0 : n ≠ 0) (h1 : n ≠ 1) (hb : n = -1 → b.isZero = false) :
    power A b (int n) =
      if hasSign b then
        if n % 2 = 0 then generalPower A (A.neg b) (int n)
        else A.neg (A.power (A.neg b) (int n))
      else generalPower A b (int n) := by
  rw [power_int, if_neg (int_eq_zero.not.2 h0), if_neg (int_eq_one.not.2 h1), if_neg, Arith.int?_int]
  rw [Bool.and_eq_true]
  rintro ⟨hm, hz⟩
  rw [hb (int_eq_minusOne.1 hm)] at hz
  cases hz

theorem hasSign_of_defined (h : Defined env b) (hn : b.isNumber = false) : hasSign b = false := by
  rw [hasSign, hn, h.isConstant_eq hn, Bool.and_false, Bool.or_false, Bool.false_and]

/-- A power of what is not a number is found by the kind of the base. -/
theorem power_of_isNumber_eq_false (h : Defined env b) (hb : b.isNumber = false) (h0 : n ≠ 0)
    (h1 : n ≠ 1) : power A b (int n) = (powerByBase A b (int n)).getD (rawPow b (int n)) := by
  have hzero : b.isZero = false := by
    cases h with
    | rat => cases hb
    | symbol | add | mul | pow => rfl
  have hone : (b == one) = false := by
    rw [beq_eq_false_iff_ne]
    rintro rfl
    cases hb
  have hundefined : (b == Expr.undefined) = false := h.beq_const .undefined
  rw [power_eq h0 h1 fun _ => hzero, hasSign_of_defined h hb, if_neg Bool.false_ne_true,
    generalPower, hundefined, h.isFnOf, hone]
  rfl

/-- A whole power of a number is a number. -/
theorem power_rat (hA : A.Exact env) (h : 0 ≤ n ∨ q ≠ 0) :
    power A (.rat q) (int n) = .rat (q ^ n) := by
  by_cases h0 : n = 0
  · rw [h0, power_zero, zpow_zero]
    rfl
  by_cases h1 : n = 1
  · rw [h1, power_one, zpow_one]
  have hneg : 0 ≤ n ∨ -q ≠ 0 := h.imp_right neg_ne_zero.2
  rw [power_eq h0 h1]
  · split
    · split
      · rename_i heven
        rw [hA.neg_rat, generalPower_rat hneg h0, (Int.even_iff.2 heven).neg_zpow]
      · rename_i hodd
        rw [hA.neg_rat, hA.power_rat hneg, hA.neg_rat,
          (Int.odd_iff.2 (by omega : n % 2 = 1)).neg_zpow, neg_neg]
    · exact generalPower_rat h h0
  · rintro rfl
    have hq : q ≠ 0 := h.resolve_left (by decide)
    exact beq_eq_false_iff_ne.2 hq

theorem isInfiniteTerm_of_defined (h : Defined env b) : isInfiniteTerm b = false := by
  obtain ⟨q, m, hqm, -⟩ := h.coeffMul
  rw [isInfiniteTerm, h.isInfinite, hqm]
  rfl

theorem complexNumber?_eq_none {ts : List Expr} (h : ∀ t ∈ ts, Defined env t) :
    complexNumber? ts = none := by
  unfold complexNumber?
  split
  · rename_i a b
    obtain ⟨hf, -⟩ := (h (.app .mul [b, .const .i]) (by simp)).mul_mem
    cases (hf (.const .i) (by simp)).1
  · cases h (.const .i) (by simp)
  · rfl

/-- A sum of defined terms is no complex number and not infinite. -/
theorem sumPower_eq_none {ts : List Expr} (h : ∀ t ∈ ts, Defined env t) (e : Expr) :
    sumPower A ts e = none := by
  rw [sumPower.eq_def, complexNumber?_eq_none h]
  split
  · rename_i a b
    rw [isInfiniteTerm_of_defined (h a (by simp)), isInfiniteTerm_of_defined (h b (by simp))]
    rfl
  · rfl

/-- **A whole power of a variable or a sum stays as it is.** -/
theorem power_base (h : Defined env b) (hb : b.isBase = true) (h0 : n ≠ 0) :
    power A b (int n) = powerForm b n := by
  by_cases h1 : n = 1
  · rw [h1, power_one, powerForm_one]
  rw [power_of_isNumber_eq_false h (isNumber_of_isBase hb) h0 h1, powerForm_of_ne_one h1]
  cases h with
  | rat | mul | pow => cases hb
  | symbol s => rfl
  | add ts all sym =>
    show (sumPower A ts (int n)).getD _ = _
    rw [sumPower_eq_none all]
    rfl

variable [Nontrivial R]

/-- **A canonical whole power has the power of the value.** -/
theorem denotes_power (hA : A.Exact env) (h : Defined env b) (hr : Regular (value env b) n) :
    Denotes env (power A b (int n)) (wholePow (value env b) n) := by
  by_cases h0 : n = 0
  · rw [h0, power_zero, wholePow_zero]
    exact denotes_one
  by_cases h1 : n = 1
  · rw [h1, power_one, wholePow_one]
    exact h.denotes
  by_cases hm : b.isMul = true
  · cases h with
    | rat | symbol | add | pow => cases hm
    | mul fs all flat sym =>
      rw [power_of_isNumber_eq_false (.mul fs all flat sym) rfl h0 h1]
      have hpower : powerByBase A (.app .mul fs) (int n) =
          some (A.product (fs.map fun f => A.power f (int n))) := by
        show productPower A fs (int n) = _
        rw [int, productPower, if_pos (Rat.den_intCast n)]
      rw [value_mul] at hr ⊢
      rw [hpower, prod_wholePow, List.map_map]
      exact hA.product_map fun f hf =>
        hA.power (all f hf) (hr.of_mem_prod (List.mem_map_of_mem hf))
  · rw [Bool.not_eq_true] at hm
    rcases h.factor_cases hm with ⟨q, rfl⟩ | ⟨c, m, hc, hbase, hm0, hreg, rfl⟩
    · rw [power_rat hA (Arith.nonneg_or_ne_zero hr), value_rat,
        ← algebraMap_zpow (by simpa using hr)]
      exact denotes_rat _
    · by_cases hm1 : m = 1
      · rw [hm1, powerForm_one] at hr ⊢
        rw [power_base hc hbase h0]
        exact denotes_powerForm hc hbase h0 hr
      · have hpower : powerByBase A (powerForm c m) (int n) =
            some (A.power c (A.mul (int m) (int n))) := by
          have hby : powerByBase A (powerForm c m) (int n) = powerPower A c (int m) (int n) := by
            rw [powerForm_of_ne_one hm1]
            show powerPower A (rawPow c (int m)).baseExp.1 (rawPow c (int m)).baseExp.2 _ = _
            rw [baseExp_rawPow hbase]
          rw [hby, powerPower, if_pos (isWhole_int n)]
        have hmul : A.mul (int m) (int n) = int (m * n) := by
          rw [int, int, hA.mul_rat, ← Int.cast_mul]
          rfl
        rw [value_powerForm] at hr ⊢
        rw [power_of_isNumber_eq_false h (isNumber_powerForm hbase) h0 h1, hpower, hmul,
          wholePow_mul hreg hr]
        exact hA.power hc (hreg.mul hr hm0)

end Canonical

end ErrorBars
