import Mathlib.Algebra.BigOperators.Group.List.Basic
import Mathlib.Tactic.Ring
import ErrorBars.Proofs.Exact.Value

/-!
# Constructors that keep values

`Arith.Exact A env` says what is wanted of a set of constructors: on defined expressions each of
them gives a defined expression with the right value.  A product adds up exponents and a sum
merges terms before anything is written down, and for that the constructors must also be known to
give numbers on numbers, and to leave a power of a base as it is.

The constructors that compute with numbers alone are exact (`exact_plain`), and so are the smaller
constructors that are written over exact ones (`Exact.neg`, `Exact.div`, `Exact.keepCoeff`).
-/

set_option autoImplicit false

namespace ErrorBars

open Expr

variable {R : Type} [CommRing R] [Algebra ℚ R]

/-- Constructors that keep values. -/
structure Arith.Exact (A : Arith) (env : String → R) : Prop where
  /-- a sum has the sum of the values -/
  sum : ∀ {es : List Expr}, (∀ e ∈ es, Defined env e) →
    Denotes env (A.sum es) (es.map (value env)).sum
  /-- a sum of numbers is a number -/
  sum_rat : ∀ qs : List ℚ, A.sum (qs.map .rat) = .rat qs.sum
  /-- a product has the product of the values -/
  product : ∀ {es : List Expr}, (∀ e ∈ es, Defined env e) →
    Denotes env (A.product es) (es.map (value env)).prod
  /-- a product of numbers is a number -/
  product_rat : ∀ qs : List ℚ, A.product (qs.map .rat) = .rat qs.prod
  /-- a number in front of a power stays there -/
  product_coeff : ∀ {q : ℚ} {b : Expr} {n : ℤ}, q ≠ 0 → q ≠ 1 → Defined env b →
    b.isBase = true → n ≠ 0 → (powerForm b n).isAdd = false →
    A.product [.rat q, powerForm b n] = rawMul [.rat q, powerForm b n]
  /-- a whole power has the power of the value -/
  power : ∀ {b : Expr} {n : ℤ}, Defined env b → Regular (value env b) n →
    Denotes env (A.power b (int n)) (wholePow (value env b) n)
  /-- a whole power of a number is a number -/
  power_rat : ∀ {q : ℚ} {n : ℤ}, 0 ≤ n ∨ q ≠ 0 → A.power (.rat q) (int n) = .rat (q ^ n)
  /-- a whole power of a base stays as it is -/
  power_base : ∀ {b : Expr} {n : ℤ}, Defined env b → b.isBase = true → n ≠ 0 →
    A.power b (int n) = powerForm b n

namespace Expr

variable {env : String → R} {e : Expr} {es : List Expr}

theorem Defined.rat?_eq_none (h : Defined env e) (hr : e.rat? = none) : e.isNumber = false := by
  cases h with
  | rat => cases hr
  | symbol | add | mul | pow => rfl

/-- Several expressions are all numbers, or one of them is none. -/
theorem mapM_rat?_cases (es : List Expr) :
    (∃ qs : List ℚ, es.mapM rat? = some qs ∧ es = qs.map .rat) ∨
      es.mapM rat? = none ∧ ∃ e ∈ es, e.rat? = none := by
  induction es with
  | nil => exact .inl ⟨[], rfl, rfl⟩
  | cons e es ih =>
    rw [List.mapM_cons]
    cases he : e.rat? with
    | none => exact .inr ⟨rfl, e, List.mem_cons_self, he⟩
    | some q =>
      have heq : e = .rat q := by
        unfold rat? at he
        split at he
        · rw [Option.some.inj he]
        · cases he
      rcases ih with ⟨qs, hqs, rfl⟩ | ⟨hnone, f, hf, hr⟩
      · exact .inl ⟨q :: qs, by rw [hqs]; rfl, by rw [heq, List.map_cons]⟩
      · exact .inr ⟨by rw [hnone]; rfl, f, List.mem_cons_of_mem _ hf, hr⟩

theorem sum_map_value_rat (env : String → R) (qs : List ℚ) :
    ((qs.map Expr.rat).map (value env)).sum = algebraMap ℚ R qs.sum := by
  rw [map_list_sum, List.map_map]
  rfl

theorem prod_map_value_rat (env : String → R) (qs : List ℚ) :
    ((qs.map Expr.rat).map (value env)).prod = algebraMap ℚ R qs.prod := by
  rw [map_list_prod, List.map_map]
  rfl

/-- The factors of several expressions side by side. -/
theorem factors_flatMap (h : ∀ e ∈ es, Defined env e) :
    Factors env (es.flatMap factors) ∧
      ((es.flatMap factors).map (value env)).prod = (es.map (value env)).prod := by
  induction es with
  | nil => exact ⟨fun f hf => absurd hf List.not_mem_nil, rfl⟩
  | cons e es ih =>
    obtain ⟨he, hes⟩ := List.forall_mem_cons.1 h
    obtain ⟨hf, hv⟩ := ih hes
    rw [List.flatMap_cons]
    refine ⟨fun f hf' => (List.mem_append.1 hf').elim (he.factors f) (hf f), ?_⟩
    rw [List.map_append, List.prod_append, hv, he.prod_factors, List.map_cons, List.prod_cons]

theorem symbolic_flatMap_factors (h : ∀ e ∈ es, Defined env e) (hs : Symbolic es) :
    Symbolic (es.flatMap factors) := by
  obtain ⟨e, he, hn⟩ := hs
  obtain ⟨f, hf, hfn⟩ := symbolic_factors (h e he) hn
  exact ⟨f, List.mem_flatMap.2 ⟨e, he, hf⟩, hfn⟩

end Expr

namespace Arith

variable {A : Arith} {env : String → R} {e a b : Expr} {es : List Expr} {q : ℚ} {m n : ℤ} {r s : R}

/-! ## Numbers alone -/

theorem denotes_plainSum (h : ∀ e ∈ es, Defined env e) :
    Denotes env (plainSum es) (es.map (value env)).sum := by
  rw [plainSum]
  rcases mapM_rat?_cases es with ⟨qs, hqs, rfl⟩ | ⟨hnone, e, he, hr⟩
  · rw [hqs, sum_map_value_rat]
    exact denotes_rat _
  · rw [hnone]
    exact denotes_sumOf h (.inl ⟨e, he, (h e he).rat?_eq_none hr⟩)

theorem mapM_rat?_map (qs : List ℚ) : (qs.map Expr.rat).mapM rat? = some qs := by
  induction qs with
  | nil => rfl
  | cons q qs ih =>
    rw [List.map_cons, List.mapM_cons, ih]
    rfl

theorem plainSum_rat (qs : List ℚ) : plainSum (qs.map .rat) = .rat qs.sum := by
  rw [plainSum, mapM_rat?_map]
  rfl

theorem denotes_plainProduct (h : ∀ e ∈ es, Defined env e) :
    Denotes env (plainProduct es) (es.map (value env)).prod := by
  rw [plainProduct]
  rcases mapM_rat?_cases es with ⟨qs, hqs, rfl⟩ | ⟨hnone, e, he, hr⟩
  · rw [hqs, prod_map_value_rat, List.prod_eq_foldl]
    exact denotes_rat _
  · rw [hnone]
    obtain ⟨hf, hv⟩ := factors_flatMap h
    rw [← hv]
    exact denotes_productOf hf
      (.inl (symbolic_flatMap_factors h ⟨e, he, (h e he).rat?_eq_none hr⟩))

theorem plainProduct_rat (qs : List ℚ) : plainProduct (qs.map .rat) = .rat qs.prod := by
  rw [plainProduct, mapM_rat?_map, List.prod_eq_foldl]

theorem plainRawPower_intCast (b : Expr) (n : ℤ) :
    plainRawPower b n = if n = 0 then one else powerForm b n := by
  rw [plainRawPower, powerForm]
  simp only [Int.cast_eq_zero, Int.cast_eq_one]
  rfl

theorem plainWholePower_of_isBase (hb : b.isBase = true) :
    plainWholePower n b = plainRawPower b n := by
  obtain ⟨s, rfl⟩ | ⟨ts, rfl⟩ := cases_of_isBase hb <;> rfl

theorem plainWholePower_powerForm (hb : b.isBase = true) :
    plainWholePower n (powerForm b m) = plainRawPower b ((m * n : ℤ) : ℚ) := by
  by_cases hm : m = 1
  · rw [hm, powerForm_one, plainWholePower_of_isBase hb, one_mul]
  · rw [powerForm_of_ne_one hm, Int.cast_mul]
    rfl

theorem plainWholePower_rat (h : 0 ≤ n ∨ q ≠ 0) : plainWholePower n (.rat q) = .rat (q ^ n) := by
  rw [plainWholePower]
  refine if_neg fun ⟨h0, hn⟩ => ?_
  exact h.elim (fun hn' => by omega) fun hq => hq h0

section

variable [Nontrivial R]

/-- A number may be taken to an exponent unless it is zero and the exponent is below it. -/
theorem nonneg_or_ne_zero (h : Regular (value env (.rat q)) n) : 0 ≤ n ∨ q ≠ 0 := by
  rw [value_rat] at h
  exact h.imp_right isUnit_algebraMap.1

theorem denotes_plainWholePower (h : Defined env b) (hb : b.isMul = false)
    (hr : Regular (value env b) n) :
    Denotes env (plainWholePower n b) (wholePow (value env b) n) := by
  rcases h.factor_cases hb with ⟨q, rfl⟩ | ⟨c, m, hc, hbase, hm, hreg, rfl⟩
  · rw [plainWholePower_rat (nonneg_or_ne_zero hr), value_rat,
      ← algebraMap_zpow (by simpa using hr)]
    exact denotes_rat _
  · have hv := (denotes_powerForm hc hbase hm hreg).value_eq
    rw [hv] at hr ⊢
    rw [plainWholePower_powerForm hbase, plainRawPower_intCast, wholePow_mul hreg hr]
    split
    · rename_i h0
      rw [h0, wholePow_zero]
      exact denotes_one
    · rename_i h0
      exact denotes_powerForm hc hbase h0 (hreg.mul hr hm)

theorem int?_int (n : ℤ) : (int n).int? = some n := by
  rw [int, int?, if_pos (Rat.den_intCast n), Rat.num_intCast]

theorem denotes_plainPower (h : Defined env b) (hr : Regular (value env b) n) :
    Denotes env (plainPower b (int n)) (wholePow (value env b) n) := by
  by_cases hb : b.isMul = true
  · cases h with
    | mul fs all flat sym =>
      rw [value_mul] at hr ⊢
      have hpower : ∀ f ∈ fs,
          Denotes env (plainWholePower n f) (wholePow (value env f) n) := fun f hf =>
        denotes_plainWholePower (all f hf) (flat f hf) (hr.of_mem_prod (List.mem_map_of_mem hf))
      rw [plainPower.eq_def, int?_int, prod_wholePow]
      refine (denotes_plainProduct ?_).of_eq ?_
      · rintro e he
        obtain ⟨f, hf, rfl⟩ := List.mem_map.1 he
        exact (hpower f hf).defined
      · rw [List.map_map, List.map_map]
        exact congrArg List.prod (List.map_congr_left fun f hf => (hpower f hf).value_eq)
    | rat | symbol | add | pow => cases hb
  · rw [Bool.not_eq_true] at hb
    rw [plainPower.eq_def, int?_int]
    have hpower := denotes_plainWholePower h hb hr
    cases h with
    | mul => cases hb
    | rat | symbol | add | pow => exact hpower

theorem plainPower_of_isBase (hb : b.isBase = true) (hn : n ≠ 0) :
    plainPower b (int n) = powerForm b n := by
  have heq : plainPower b (int n) = plainWholePower n b := by
    rw [plainPower.eq_def, int?_int]
    obtain ⟨s, rfl⟩ | ⟨ts, rfl⟩ := cases_of_isBase hb <;> rfl
  rw [heq, plainWholePower_of_isBase hb, plainRawPower_intCast, if_neg hn]

theorem plainProduct_coeff (hb : b.isBase = true) :
    plainProduct [.rat q, powerForm b n] = rawMul [.rat q, powerForm b n] := by
  have hm : [Expr.rat q, powerForm b n].mapM rat? = none := by
    rw [List.mapM_cons, List.mapM_cons, rat?_powerForm hb]
    rfl
  rw [plainProduct, hm]
  show productOf ([Expr.rat q, powerForm b n].flatMap factors) = _
  rw [List.flatMap_cons, List.flatMap_cons, factors_of_isMul_eq_false (isMul_powerForm hb)]
  rfl

/-- **The constructors that compute with numbers alone keep values.** -/
theorem exact_plain : plain.Exact env where
  sum h := denotes_plainSum h
  sum_rat := plainSum_rat
  product h := denotes_plainProduct h
  product_rat := plainProduct_rat
  product_coeff _ _ _ hb _ _ := plainProduct_coeff hb
  power h hr := denotes_plainPower h hr
  power_rat {q n} h := by
    rw [← plainWholePower_rat h]
    show plainPower (.rat q) (int n) = _
    rw [plainPower.eq_def, int?_int]
  power_base _ hb hn := plainPower_of_isBase hb hn

end

/-! ## Written over given constructors -/

/-! ### What stays no number -/

theorem isNumber_timesNumber {A : Arith} {e : Expr} {q : ℚ} (he : e.isNumber = false) :
    (A.timesNumber (.rat q) e).isNumber = false := by
  rw [Arith.timesNumber]
  split
  · rfl
  · rename_i hn
    rw [he, Bool.not_false, Bool.and_true, Bool.not_eq_true] at hn
    exact hn

/-- A number in front leaves no number of what was none. -/
theorem isNumber_keepCoeff {A : Arith} {q : ℚ} (h : Defined env e) (he : e.isNumber = false) :
    (A.keepCoeff (.rat q) e).isNumber = false := by
  rw [Arith.keepCoeff.eq_def]
  split
  · rename_i h1
    rw [beq_iff_eq.1 h1] at he
    cases he
  · split
    · exact he
    · split
      · exact isNumber_timesNumber he
      · split
        · rfl
        · rename_i d rest _
          obtain ⟨hf, hs⟩ := h.mul_mem
          split
          · rename_i hd
            show (if _ then productOf rest else rawMul _).isNumber = false
            split
            · exact isNumber_productOf (hs.tail hd)
            · rfl
          · rfl
        · exact isNumber_timesNumber he

namespace Exact

variable (hA : A.Exact env)

include hA

/-- The sum of what several changed expressions denote. -/
theorem sum_map {ι : Type} {l : List ι} {f : ι → Expr} {g : ι → R}
    (h : ∀ i ∈ l, Denotes env (f i) (g i)) : Denotes env (A.sum (l.map f)) (l.map g).sum := by
  refine (hA.sum (List.forall_mem_map.2 fun i hi => (h i hi).defined)).of_eq ?_
  rw [List.map_map]
  exact congrArg List.sum (List.map_congr_left fun i hi => (h i hi).value_eq)

/-- The product of what several changed expressions denote. -/
theorem product_map {ι : Type} {l : List ι} {f : ι → Expr} {g : ι → R}
    (h : ∀ i ∈ l, Denotes env (f i) (g i)) : Denotes env (A.product (l.map f)) (l.map g).prod := by
  refine (hA.product (List.forall_mem_map.2 fun i hi => (h i hi).defined)).of_eq ?_
  rw [List.map_map]
  exact congrArg List.prod (List.map_congr_left fun i hi => (h i hi).value_eq)

theorem add (ha : Denotes env a r) (hb : Denotes env b s) : Denotes env (A.add a b) (r + s) := by
  have hdefined : ∀ e ∈ [a, b], Defined env e := by simp [ha.defined, hb.defined]
  refine (hA.sum hdefined).of_eq ?_
  simp [ha.value_eq, hb.value_eq]

theorem mul (ha : Denotes env a r) (hb : Denotes env b s) : Denotes env (A.mul a b) (r * s) := by
  have hdefined : ∀ e ∈ [a, b], Defined env e := by simp [ha.defined, hb.defined]
  refine (hA.product hdefined).of_eq ?_
  simp [ha.value_eq, hb.value_eq]

theorem neg (ha : Denotes env a r) : Denotes env (A.neg a) (-r) :=
  (hA.mul denotes_minusOne ha).of_eq (neg_one_mul r)

theorem sub (ha : Denotes env a r) (hb : Denotes env b s) : Denotes env (A.sub a b) (r - s) :=
  (hA.add ha (hA.neg hb)).of_eq (sub_eq_add_neg r s).symm

theorem whole (ha : Denotes env a r) (h : Regular r n) :
    Denotes env (A.power a (int n)) (wholePow r n) := by
  obtain ⟨ha, rfl⟩ := ha
  exact hA.power ha h

theorem inv (ha : Denotes env a r) (h : IsUnit r) :
    Denotes env (A.inv a) (Ring.inverse r) := by
  have hinv := hA.whole (n := -1) ha (.inr h)
  rw [wholePow_neg_one] at hinv
  rw [Arith.inv, minusOne]
  have heq : int (-1) = .rat (-1) := by rw [int, Int.cast_neg, Int.cast_one]
  rwa [heq] at hinv

theorem div (ha : Denotes env a r) (hb : Denotes env b s) (h : IsUnit s) :
    Denotes env (A.div a b) (r * Ring.inverse s) :=
  hA.mul ha (hA.inv hb h)

/-! ### Numbers -/

theorem mul_rat (p q : ℚ) : A.mul (.rat p) (.rat q) = .rat (p * q) := by
  have h := hA.product_rat [p, q]
  rw [List.prod_cons, List.prod_singleton] at h
  exact h

theorem add_rat (p q : ℚ) : A.add (.rat p) (.rat q) = .rat (p + q) := by
  have h := hA.sum_rat [p, q]
  rw [List.sum_cons, List.sum_singleton] at h
  exact h

theorem neg_rat (q : ℚ) : A.neg (.rat q) = .rat (-q) := by
  rw [Arith.neg, ← neg_one_mul q, ← hA.mul_rat]
  rfl

/-! ### A number in front -/

theorem timesNumber (h : Denotes env e r) :
    Denotes env (A.timesNumber (.rat q) e) (algebraMap ℚ R q * r) := by
  rw [Arith.timesNumber]
  split
  · rename_i hn
    rw [Bool.and_eq_true, Bool.not_eq_true'] at hn
    rw [← h.value_eq, ← h.defined.prod_factors]
    exact denotes_rat_rawMul h.defined.factors (symbolic_factors h.defined hn.2) q
  · exact hA.mul (denotes_rat q) h

/-- **A number that is left in front multiplies the value.** -/
theorem keepCoeff (h : Denotes env e r) :
    Denotes env (A.keepCoeff (.rat q) e) (algebraMap ℚ R q * r) := by
  rw [Arith.keepCoeff.eq_def]
  split
  · rename_i h1
    rw [beq_iff_eq.1 h1] at h
    rw [← h.value_eq, value_one, mul_one]
    exact denotes_rat q
  · split
    · rename_i h1
      obtain rfl : q = 1 := Expr.rat.inj (beq_iff_eq.1 h1)
      rw [map_one, one_mul]
      exact h
    · split
      · exact hA.timesNumber h
      · split
        · rename_i ts _
          refine (denotes_rat_rawMul_single h.defined rfl rfl q).of_eq ?_
          rw [h.value_eq]
        · rename_i d rest _
          obtain ⟨hf, hs⟩ := h.defined.mul_mem
          rw [← h.value_eq, value_mul]
          split
          · rename_i hd
            obtain ⟨p, rfl⟩ := (hf d (by simp)).1.eq_rat hd
            have hrest : Symbolic rest := hs.tail rfl
            rw [List.map_cons, List.prod_cons, value_rat, ← mul_assoc, ← map_mul, mul_comm q p]
            have hpq : mulNumbers (.rat p) (.rat q) = .rat (p * q) := rfl
            simp only [hpq]
            split
            · rename_i h1
              rw [Expr.rat.inj (beq_iff_eq.1 h1), map_one, one_mul]
              exact denotes_productOf hf.tail (.inl hrest)
            · exact denotes_rat_rawMul hf.tail hrest (p * q)
          · exact denotes_rat_rawMul hf hs q
        · exact hA.timesNumber h

theorem keepCoeff_rat (p q : ℚ) : A.keepCoeff (.rat p) (.rat q) = .rat (p * q) := by
  have htimes : A.timesNumber (.rat p) (.rat q) = .rat (p * q) := by
    rw [Arith.timesNumber, hA.mul_rat]
    rfl
  rw [Arith.keepCoeff.eq_def]
  split
  · rename_i h1
    rw [Expr.rat.inj (beq_iff_eq.1 h1), mul_one]
  · split
    · rename_i h1
      rw [Expr.rat.inj (beq_iff_eq.1 h1), one_mul]
    · split
      · exact htimes
      · exact htimes

end Exact

end Arith

end ErrorBars
