import ErrorBars.Correlation
import ErrorBars.Proofs.Doubles

/-!
# Products that are too large

A contribution is a derivative times an error.  Doubles saturate: a product that is too large for a
double is an infinity (`Double.mul_isFinite_iff`).  Whole numbers and fractions do not: they are
multiplied exactly, and only then is the product made a double, if there is one.  So contributions
can be combined, whatever the mode, unless one of them is `TooLarge`
(`combine?_eq_none_iff`), and numbers that fit into doubles by themselves are too large only where
two whole numbers meet.
-/

set_option autoImplicit false

namespace ErrorBars

/-! ## Doubles saturate -/

/-- The magnitude of the exact product of two finite doubles. -/
theorem abs_value_mul_value (a b : Bool) {m n : ℕ} {e f : ℤ} (hm : Double.Canonical m e)
    (hn : Double.Canonical n f) :
    |(Double.finite a m e hm).value * (Double.finite b n f hn).value| =
      ((m * n : ℕ) : ℚ) * 2 ^ (e + f) := by
  have habs (s : Bool) (k : ℕ) : |if s then -(k : ℚ) else k| = k := by cases s <;> simp
  rw [Double.value_finite, Double.value_finite, abs_mul, abs_mul, abs_mul, habs, habs, abs_zpow,
    abs_zpow, abs_two, zpow_add₀ two_ne_zero, Nat.cast_mul]
  ring

namespace Double

variable {s : Bool} {n : ℕ} {k : ℤ}

theorem threshold_le : threshold ≤ 2 ^ (1024 : ℤ) := by
  have hscale (p : ℚ) (hp : 0 < p) : (2 ^ 53 - 1 / 2) * p ≤ 2 ^ (53 : ℤ) * p := by
    rw [show (2 : ℚ) ^ (53 : ℤ) = 2 ^ 53 by norm_cast]
    linarith
  calc threshold ≤ 2 ^ (53 : ℤ) * 2 ^ (971 : ℤ) := hscale _ (by positivity)
    _ = 2 ^ (1024 : ℤ) := by rw [← zpow_add₀ two_ne_zero, show (53 : ℤ) + 971 = 1024 from rfl]

theorem one_lt_threshold : 1 < threshold := by
  have hpower : (1 : ℚ) ≤ 2 ^ (971 : ℤ) := one_le_zpow₀ one_le_two (by decide)
  calc (1 : ℚ) < (2 ^ 53 - 1 / 2) * 1 := by norm_num
    _ ≤ threshold := mul_le_mul_of_nonneg_left hpower (by norm_num)

/-- How large a scaled whole number is. -/
theorem scaled_bounds (hn : n ≠ 0) (k : ℤ) :
    (2 : ℚ) ^ ((Nat.log2 n : ℤ) + k) ≤ n * 2 ^ k ∧
      (n : ℚ) * 2 ^ k < 2 ^ ((Nat.log2 n : ℤ) + k + 1) := by
  have hpower : (0 : ℚ) < 2 ^ k := by positivity
  have hlow : ((2 : ℚ) ^ (Nat.log2 n : ℤ)) ≤ n := by
    rw [zpow_natCast]
    exact_mod_cast Nat.log2_self_le hn
  have hhigh : (n : ℚ) < 2 ^ ((Nat.log2 n : ℤ) + 1) := by
    rw [← Nat.cast_succ, zpow_natCast]
    exact_mod_cast Nat.lt_log2_self
  constructor
  · rw [zpow_add₀ two_ne_zero]
    exact mul_le_mul_of_nonneg_right hlow hpower.le
  · rw [add_right_comm, zpow_add₀ two_ne_zero _ k]
    exact mul_lt_mul_of_pos_right hhigh hpower

/-- **Rounding a scaled whole number**: it stays finite exactly below the threshold. -/
theorem ofScaled_isFinite_iff :
    (ofScaled s n k).isFinite = true ↔ (n : ℚ) * 2 ^ k < threshold := by
  by_cases hn : n = 0
  · rw [hn, ofScaled, if_pos rfl, Nat.cast_zero, zero_mul]
    exact iff_of_true rfl threshold_pos
  obtain ⟨hlow, hhigh⟩ := scaled_bounds hn k
  rw [ofScaled, if_neg hn]
  dsimp only
  split_ifs with hlarge hsmall hk
  · refine iff_of_false (by simp [isFinite]) (not_lt.2 ?_)
    calc threshold ≤ 2 ^ (1024 : ℤ) := threshold_le
      _ ≤ 2 ^ ((Nat.log2 n : ℤ) + k) := zpow_le_zpow_right₀ one_le_two (by omega)
      _ ≤ n * 2 ^ k := hlow
  · refine iff_of_true rfl ?_
    calc (n : ℚ) * 2 ^ k < 2 ^ ((Nat.log2 n : ℤ) + k + 1) := hhigh
      _ ≤ 1 := zpow_le_one_of_nonpos₀ one_le_two (by omega)
      _ < threshold := one_lt_threshold
  · rw [ofRatio_isFinite_iff one_ne_zero, Nat.shiftLeft_eq, Nat.cast_mul, Nat.cast_pow,
      Nat.cast_ofNat, Nat.cast_one, div_one, ← zpow_natCast, Int.toNat_of_nonneg hk]
  · rw [ofRatio_isFinite_iff (by rw [Nat.shiftLeft_eq]; positivity), Nat.shiftLeft_eq, one_mul,
      Nat.cast_pow, Nat.cast_ofNat, ← zpow_natCast,
      Int.toNat_of_nonneg (by omega), zpow_neg, div_inv_eq_mul]

/-- What is not finite after rounding is an infinity. -/
theorem ofScaled_cases (s : Bool) (n : ℕ) (k : ℤ) :
    (ofScaled s n k).isFinite = true ∨ ofScaled s n k = .infinite s := by
  unfold ofScaled
  dsimp only
  split_ifs
  · exact .inl rfl
  · exact .inr rfl
  · exact .inl rfl
  · exact ofRatio_cases s _ _
  · exact ofRatio_cases s _ _

/-- **A product of finite doubles** is finite exactly below the threshold, and an infinity
otherwise. -/
theorem mul_isFinite_iff {x y : Double} (hx : x.isFinite = true) (hy : y.isFinite = true) :
    ((x * y).isFinite = true ↔ |x.value * y.value| < threshold) ∧
      ((x * y).isFinite = true ∨ ∃ negative, x * y = .infinite negative) := by
  cases x with
  | nan => contradiction
  | infinite => contradiction
  | finite a m e hm =>
    cases y with
    | nan => contradiction
    | infinite => contradiction
    | finite b n f hn =>
      have hmul : finite a m e hm * finite b n f hn = ofScaled (a != b) (m * n) (e + f) := rfl
      rw [hmul, abs_value_mul_value]
      exact ⟨ofScaled_isFinite_iff, (ofScaled_cases _ _ _).imp_right fun h => ⟨_, h⟩⟩

end Double

/-! ## Numbers of any form do not -/

namespace Number

/-- The exact value of a number, zero for a double that is not finite. -/
def exact : Number → ℚ
  | .int n => n
  | .fraction q => q
  | .float x => x.value

/-- A double, or a whole number that fits into one. -/
def Plain : Number → Prop
  | .int n => |(n : ℚ)| < Double.threshold
  | .fraction _ => False
  | .float _ => True

/-- Whether a number is a double. -/
def isFloat : Number → Bool
  | .float _ => true
  | _ => false

theorem Plain.not_tooLarge {x : Number} (h : x.Plain) : ¬ x.TooLarge := by
  cases x with
  | int n => exact not_le.2 h
  | fraction q => exact h.elim
  | float x => exact id

/-- Two numbers whose product cannot be made a double: a double meets a number that is too large,
or the exact product of two numbers that are no doubles is too large. -/
def ProductTooLarge (x y : Number) : Prop :=
  if x.isFloat then y.TooLarge
  else if y.isFloat then x.TooLarge
  else Double.threshold ≤ |x.exact * y.exact|

theorem mul?_toDouble?_eq_none_iff (x y : Number) :
    (x.mul? y).bind toDouble? = none ↔ ProductTooLarge x y := by
  have hleft (a : Double) (y : Number) :
      (float a).mul? y = y.toDouble?.map fun b => float (a * b) := by
    cases y <;> rfl
  have hright (x : Number) (b : Double) :
      x.mul? (float b) = x.toDouble?.map fun a => float (a * b) := by
    cases x <;> rfl
  have hfloat (o : Option Double) (f : Double → Double) :
      (o.map fun b => float (f b)).bind toDouble? = none ↔ o = none := by
    cases o <;> simp [toDouble?]
  cases x with
  | float a => rw [hleft, hfloat, toDouble?_eq_none_iff]; rfl
  | int m =>
    cases y with
    | float b => rw [hright, hfloat, toDouble?_eq_none_iff]; rfl
    | int n =>
      have hterm : ((int m).mul? (int n)).bind toDouble? = (int (m * n)).toDouble? := rfl
      rw [hterm, toDouble?_eq_none_iff, TooLarge, Int.cast_mul]
      rfl
    | fraction q => exact toDouble?_eq_none_iff (fraction (m * q))
  | fraction p =>
    cases y with
    | float b => rw [hright, hfloat, toDouble?_eq_none_iff]; rfl
    | int n => exact toDouble?_eq_none_iff (fraction (p * n))
    | fraction q => exact toDouble?_eq_none_iff (fraction (p * q))

/-- Numbers that fit into doubles are too large only as two whole numbers. -/
theorem productTooLarge_iff_of_plain {x y : Number} (hx : x.Plain) (hy : y.Plain) :
    ProductTooLarge x y ↔
      ∃ m n : ℤ, x = .int m ∧ y = .int n ∧ Double.threshold ≤ |(m : ℚ) * n| := by
  cases x with
  | float a => exact iff_of_false hy.not_tooLarge (by simp)
  | fraction p => exact hx.elim
  | int m =>
    cases y with
    | float b => exact iff_of_false hx.not_tooLarge (by simp)
    | fraction q => exact hy.elim
    | int n =>
      constructor
      · exact fun h => ⟨m, n, rfl, rfl, h⟩
      · rintro ⟨_, _, ⟨rfl⟩, ⟨rfl⟩, h⟩
        exact h

end Number

/-! ## Contributions -/

namespace Contribution

/-- A contribution whose product cannot be made a double. -/
def TooLarge (c : Contribution) : Prop := c.derivative.ProductTooLarge c.error

/-- A contribution of doubles, or of whole numbers that fit into doubles. -/
def Plain (c : Contribution) : Prop := c.derivative.Plain ∧ c.error.Plain

theorem term?_eq_none_iff (c : Contribution) : c.term? = none ↔ c.TooLarge :=
  c.derivative.mul?_toDouble?_eq_none_iff c.error

end Contribution

theorem terms?_eq_none_iff (cs : List Contribution) : terms? cs = none ↔ ∃ c ∈ cs, c.TooLarge := by
  induction cs with
  | nil => simp [terms?]
  | cons c cs ih =>
    rw [List.exists_mem_cons_iff, ← ih, ← c.term?_eq_none_iff, terms?]
    cases c.term? <;> cases terms? cs <;> simp

theorem combine?_of_terms {cs : List Contribution} {ts : List Double} (h : terms? cs = some ts)
    (mode : Correlation) : combine? mode cs = some (figures mode ts) := by
  rw [combine?, h, Option.map_some]

/-- **Contributions cannot be combined** if and only if one of them is too large. -/
theorem combine?_eq_none_iff (mode : Correlation) (cs : List Contribution) :
    combine? mode cs = none ↔ ∃ c ∈ cs, c.TooLarge := by
  rw [combine?, Option.map_eq_none_iff, terms?_eq_none_iff]

/-- Where a double takes part, the other number becomes one too, and the term is their product. -/
theorem Contribution.term?_of_isFloat {c : Contribution} (hc : c.Plain)
    (hfloat : c.derivative.isFloat = true ∨ c.error.isFloat = true) :
    ∃ x y, c.derivative.toDouble? = some x ∧ c.error.toDouble? = some y ∧
      c.term? = some (x * y) := by
  have hdouble {x : Number} (hx : x.Plain) : ∃ a, x.toDouble? = some a :=
    Option.ne_none_iff_exists'.1 (mt x.toDouble?_eq_none_iff.1 hx.not_tooLarge)
  obtain ⟨x, y⟩ := c
  obtain ⟨a, ha⟩ := hdouble hc.1
  obtain ⟨b, hb⟩ := hdouble hc.2
  refine ⟨a, b, ha, hb, ?_⟩
  simp only [term?] at ha hb hfloat ⊢
  cases x with
  | float x =>
    obtain rfl := Option.some.inj ha
    have hmul : (Number.float x).mul? y = y.toDouble?.map fun b => .float (x * b) := by
      cases y <;> rfl
    rw [hmul, hb]
    rfl
  | _ =>
    cases y with
    | float y =>
      obtain rfl := Option.some.inj hb
      rw [Number.mul?, ha]
      · rfl
      · simp
    | _ => simp [Number.isFloat] at hfloat

/-- **Contributions of doubles and of whole numbers that fit into doubles** can be combined, in
every mode, unless two whole numbers meet in one of them whose product does not fit.  Whatever else
they are, their terms are products of doubles, and a product that is too large is an infinity. -/
theorem combine?_plain {cs : List Contribution} (h : ∀ c ∈ cs, c.Plain) (mode : Correlation) :
    (combine? mode cs = none ↔ ∃ c ∈ cs, ∃ m n : ℤ, c.derivative = .int m ∧ c.error = .int n ∧
      Double.threshold ≤ |(m : ℚ) * n|) ∧
    (∀ ts, terms? cs = some ts → combine? mode cs = some (figures mode ts)) ∧
    (∀ c ∈ cs, c.derivative.isFloat = true ∨ c.error.isFloat = true →
      ∃ x y, c.derivative.toDouble? = some x ∧ c.error.toDouble? = some y ∧
        c.term? = some (x * y)) ∧
    ∀ x y : Double, x.isFinite = true → y.isFinite = true →
      ((x * y).isFinite = true ↔ |x.value * y.value| < Double.threshold) ∧
        ((x * y).isFinite = true ∨ ∃ negative, x * y = .infinite negative) := by
  refine ⟨?_, fun ts hts => combine?_of_terms hts mode,
    fun c hc => Contribution.term?_of_isFloat (h c hc),
    fun x y => Double.mul_isFinite_iff⟩
  rw [combine?_eq_none_iff]
  refine exists_congr fun c => and_congr_right fun hc => ?_
  exact Number.productTooLarge_iff_of_plain (h c hc).1 (h c hc).2

/-- A whole number fits into a double if there is one for it. -/
theorem Number.plain_of_ofInt? {n : ℤ} (h : (Double.ofInt? n).isSome = true) :
    (Number.int n).Plain := by
  refine not_le.1 fun hlarge => ?_
  rw [Double.ofInt?_eq_none_iff.2 hlarge] at h
  contradiction

/-- A whole number that fits into a double and whose square does not. -/
def great : ℤ := 10 ^ 200

theorem plain_great : (Number.int great).Plain := Number.plain_of_ofInt? (by decide +kernel)

/-- Numbers of all kinds: two whole numbers, a great whole number times a double that is as great,
and something that is no number. -/
def motley : List Contribution :=
  [⟨.int 3, .int (-4)⟩, ⟨.int great, .float (.ofRatio false great.natAbs 1)⟩,
    ⟨.float .nan, .int 1⟩]

theorem combine?_plain_motley :
    (∀ c ∈ motley, c.Plain) ∧ combine? .both motley ≠ none ∧
      ∃ x y, Double.ofInt? great = some x ∧ Double.ofRatio false great.natAbs 1 = y ∧
        (x * y).isFinite = false := by
  have hsmall {n : ℤ} (h : (Double.ofInt? n).isSome = true) := Number.plain_of_ofInt? h
  have hplain : ∀ c ∈ motley, c.Plain := by
    rw [motley, List.forall_mem_cons, List.forall_mem_cons, List.forall_mem_singleton]
    exact ⟨⟨hsmall (by decide +kernel), hsmall (by decide +kernel)⟩, ⟨plain_great, trivial⟩,
      trivial, hsmall (by decide +kernel)⟩
  refine ⟨hplain, ?_, ?_⟩
  · rw [ne_eq, (combine?_plain hplain .both).1, motley]
    rintro ⟨c, hc, m, n, hm, hn, hlarge⟩
    have hfits := hsmall (n := 3 * -4) (by decide +kernel)
    simp only [List.mem_cons, List.not_mem_nil, or_false] at hc
    rcases hc with rfl | rfl | rfl
    · obtain rfl := Number.int.inj hm
      obtain rfl := Number.int.inj hn
      rw [Number.Plain, Int.cast_mul] at hfits
      exact absurd hfits (not_lt.2 hlarge)
    · exact absurd hn nofun
    · exact absurd hm nofun
  · cases h : Double.ofInt? great with
    | none => exact absurd h (by decide +kernel)
    | some x =>
      refine ⟨x, _, rfl, rfl, ?_⟩
      have hproduct : (Double.ofInt? great).map
          (fun x => (x * .ofRatio false great.natAbs 1).isFinite) = some false := by
        decide +kernel
      rw [h] at hproduct
      exact Option.some.inj hproduct

/-- Two whole numbers that fit into doubles may have a product that does not. -/
theorem combine?_great :
    (combine? .uncorrelated [⟨.int great, .int great⟩] = none) ∧
    ¬ ∀ (mode : Correlation) (cs : List Contribution), (∀ c ∈ cs, c.Plain) →
      ∃ figure, combine? mode cs = some figure := by
  have hnone : combine? .uncorrelated [⟨.int great, .int great⟩] = none := by
    have hproduct : Double.ofInt? (great * great) = none := by decide +kernel
    rw [combine?, terms?, Contribution.term?, Number.mul?, Option.bind_some, Number.toDouble?,
      hproduct]
    rfl
  refine ⟨hnone, fun h => ?_⟩
  obtain ⟨figure, hfigure⟩ := h .uncorrelated [⟨.int great, .int great⟩]
    (List.forall_mem_singleton.2 ⟨plain_great, plain_great⟩)
  exact Option.some_ne_none figure (hfigure.symm.trans hnone)

end ErrorBars
