import ErrorBars.Proofs.Exact.Rational

/-!
# Rational contents keep values

A minus that is put in front of a sum, or taken back into it, leaves the value as it is, and so does
a number that is multiplied into a sum.

A number that is taken out of a sum, a product or a power and what remains have the value of the
whole as their product (`Splits`).  The content of a sum is not zero, so that it may be divided by
(`primitive_ne_zero`).
-/

set_option autoImplicit false

namespace ErrorBars.Expr

variable {env : String → ℚ} {b e m : Expr} {es ts fs : List Expr} {c q r v : ℚ} {n : ℤ}

/-! ## Signs and numbers in front of sums -/

theorem denotes_minus_rawMul (h : Defined env (.app .add ts)) :
    Denotes env (rawMul [minusOne, .app .add ts]) (-value env (.app .add ts)) := by
  refine (denotes_rat_rawMul_single h rfl rfl (-1)).of_eq ?_
  exact neg_one_mul _

theorem keepsValue_liftMinus : KeepsValue env liftMinus := by
  rintro e r ⟨h, rfl⟩
  unfold liftMinus
  split
  · rename_i ts
    split
    · have hneg := h.denotes.neg
      split
      · rename_i us hus
        rw [hus] at hneg
        exact (denotes_minus_rawMul hneg.defined).of_eq (by rw [hneg.value_eq, neg_neg])
      · exact h.denotes
    · exact h.denotes
  · exact h.denotes

theorem keepsValue_lowerMinus : KeepsValue env lowerMinus := by
  rintro e r ⟨h, rfl⟩
  unfold lowerMinus
  split
  · rename_i c ts
    split
    · rename_i hc
      have hts := (h.mul_mem.1 (.app .add ts) (by simp)).1
      refine hts.denotes.neg.of_eq ?_
      rw [beq_iff_eq.1 hc, value_mul, List.map_cons, List.prod_cons, value_minusOne, neg_one_mul,
        List.map_singleton, List.prod_singleton]
    · exact h.denotes
  · exact h.denotes

/-- **Settling the signs of sums keeps the value.** -/
theorem keepsValue_settleSigns : KeepsValue env settleSigns := by
  have hsettle : KeepsValue env fun e => (e.bottomUp liftMinus).bottomUp lowerMinus :=
    (keepsValue_bottomUp keepsValue_lowerMinus).comp (keepsValue_bottomUp keepsValue_liftMinus)
  intro e r h
  have hsettled := hsettle h
  rw [settleSigns]
  split
  · rename_i ts hts
    rw [hts] at hsettled
    obtain ⟨hdefined, rfl⟩ := hsettled
    rw [value_add]
    exact denotes_sum_map fun t ht => hsettle (hdefined.add_mem.1 t ht).denotes
  · exact hsettled

/-- **Multiplying numbers into sums keeps the value.** -/
theorem keepsValue_spreadNumbers : KeepsValue env spreadNumbers := by
  refine keepsValue_bottomUp ?_
  rintro e r ⟨h, rfl⟩
  beta_reduce
  split
  · rename_i c ts
    have hfactors := h.mul_mem.1
    split
    · refine ((hfactors c (by simp)).1.denotes.mul
        (hfactors (.app .add ts) (by simp)).1.denotes).of_eq ?_
      rw [value_mul, List.map_cons, List.prod_cons, List.map_singleton, List.prod_singleton]
    · exact h.denotes
  · exact h.denotes

/-! ## Contents -/

/-- A number and an expression whose product is a value. -/
structure Splits (env : String → ℚ) (p : ℚ × Expr) (r : ℚ) : Prop where
  /-- the expression is defined -/
  defined : Defined env p.2
  /-- the product -/
  value_eq : p.1 * value env p.2 = r

theorem Denotes.splits (h : Denotes env e v) (hr : c * v = r) : Splits env (c, e) r :=
  ⟨h.defined, by rw [h.value_eq, hr]⟩

theorem Denotes.splits_one (h : Denotes env e r) : Splits env (1, e) r := h.splits (one_mul r)

theorem Splits.of_eq {p : ℚ × Expr} {s : ℚ} (h : Splits env p r) (hr : r = s) : Splits env p s :=
  hr ▸ h

theorem Splits.scaled {p : ℚ × Expr} (h : Splits env p r) :
    Denotes env (keepCoeff (.rat p.1) p.2) r :=
  h.defined.denotes.scaled.of_eq h.value_eq

/-! ## Terms -/

/-- The rational number in front of a term, and what remains. -/
def rationalTerm (t : Expr) : ℚ × Expr :=
  match t.coeffMul with
  | (.rat q, m) => (q, m)
  | _ => (1, t)

theorem rationalTerms_eq (ts : List Expr) : rationalTerms ts = ts.map rationalTerm := rfl

theorem Defined.rationalTerm (h : Defined env e) : Splits env (rationalTerm e) (value env e) ∧
    (e.isNumber = false → (rationalTerm e).2.isNumber = false) := by
  obtain ⟨q, m, hqm, hm, hv, -, hn⟩ := h.numberInFront
  rw [Expr.rationalTerm, hqm]
  exact ⟨⟨hm, hv.symm⟩, hn⟩

theorem sortTerms_perm (ts : List Expr) : (sortTerms ts).Perm ts := by
  cases ts with
  | nil => exact List.Perm.refl _
  | cons t rest =>
    rw [sortTerms]
    split
    · exact (sortArgs_perm rest).cons t
    · exact sortArgs_perm (t :: rest)

theorem Symbolic.map {ι : Type} {l : List ι} {f : ι → Expr} (h : ∃ i ∈ l, (f i).isNumber = false) :
    Symbolic (l.map f) := by
  obtain ⟨i, hi, hn⟩ := h
  exact ⟨f i, List.mem_map_of_mem hi, hn⟩

theorem Symbolic.of_perm (hs : Symbolic ts) (hp : es.Perm ts) : Symbolic es :=
  hs.imp fun _ ht => ⟨hp.mem_iff.2 ht.1, ht.2⟩

/-! ## Primitive parts -/

/-- The content of a sum taken out of it. -/
theorem denotes_primitive_add (h : Defined env (.app .add ts)) (c : ℚ) :
    Denotes env (rawAdd (sortTerms ((ts.map rationalTerm).map fun p =>
      keepCoeff (.rat (p.1 / c)) p.2))) (value env (.app .add ts) / c) := by
  obtain ⟨hts, hs⟩ := h.add_mem
  have hterm : ∀ t ∈ ts, Denotes env (keepCoeff (.rat ((rationalTerm t).1 / c)) (rationalTerm t).2)
      (value env t / c) := fun t ht => by
    obtain ⟨hsplit, -⟩ := (hts t ht).rationalTerm
    refine hsplit.defined.denotes.scaled.of_eq ?_
    rw [← hsplit.value_eq]
    ring
  have hperm := sortTerms_perm
    (ts.map fun t => keepCoeff (.rat ((rationalTerm t).1 / c)) (rationalTerm t).2)
  rw [List.map_map]
  refine (denotes_rawAdd (fun e he => ?_) (Symbolic.of_perm (Symbolic.map ?_) hperm)).of_eq ?_
  · obtain ⟨t, ht, rfl⟩ := List.mem_map.1 (hperm.mem_iff.1 he)
    exact (hterm t ht).defined
  · obtain ⟨t, ht, hn⟩ := hs
    obtain ⟨hsplit, hnumber⟩ := (hts t ht).rationalTerm
    exact ⟨t, ht, Arith.isNumber_keepCoeff hsplit.defined (hnumber hn)⟩
  · rw [(hperm.map _).sum_eq, List.map_map, value_add, div_eq_mul_inv, ← List.sum_map_mul_right]
    refine congrArg List.sum (List.map_congr_left fun t ht => ?_)
    rw [← div_eq_mul_inv]
    exact (hterm t ht).value_eq

theorem splits_ratCoeffMul (h : Defined env e) : Splits env e.ratCoeffMul (value env e) := by
  obtain ⟨q, m, hqm, hm, hv, -⟩ := h.numberInFront
  have heq := h.ratCoeffMul.symm.trans hqm
  rw [Prod.mk.injEq, Expr.rat.injEq] at heq
  refine ⟨heq.2 ▸ hm, ?_⟩
  rw [heq.1, heq.2]
  exact hv.symm

/-- **The content and the primitive part of an expression.**  The content is not zero. -/
theorem primitive_ne_zero_and_splits (h : Defined env e) :
    (primitive e).1 ≠ 0 ∧ Splits env (primitive e) (value env e) := by
  unfold primitive
  split
  · rename_i ts
    rw [rationalTerms_eq]
    dsimp only
    split
    · exact ⟨one_ne_zero, h.denotes.splits_one⟩
    · rename_i hc
      rw [not_or] at hc
      exact ⟨hc.2, (denotes_primitive_add h _).splits (mul_div_cancel₀ _ hc.2)⟩
  · have hsplit := splits_ratCoeffMul h
    generalize e.ratCoeffMul = p at hsplit
    obtain ⟨c, m⟩ := p
    dsimp only
    split
    · rename_i hc
      refine ⟨one_ne_zero, denotes_zero.splits_one.of_eq ?_⟩
      rw [← hsplit.value_eq, hc, zero_mul]
    · rename_i hc
      split
      · exact ⟨neg_ne_zero.2 hc, hsplit.defined.denotes.neg.splits
          ((neg_mul_neg _ _).trans hsplit.value_eq)⟩
      · exact ⟨hc, hsplit⟩

theorem primitive_ne_zero (h : Defined env e) : (primitive e).1 ≠ 0 :=
  (primitive_ne_zero_and_splits h).1

theorem splits_primitive (h : Defined env e) : Splits env (primitive e) (value env e) :=
  (primitive_ne_zero_and_splits h).2

/-! ## A number in front -/

/-- A number and what it stands in front of, as one product. -/
def numberedProduct (p : Expr × Expr) : Expr :=
  if p.2 == one then p.1 else productOf (if p.1 == one then p.2.factors else p.1 :: p.2.factors)

theorem denotes_numberedProduct (h : Defined env m) (hm : m = one ∨ m.isNumber = false) :
    Denotes env (numberedProduct (.rat q, m)) (q * value env m) := by
  rw [numberedProduct]
  dsimp only
  split
  · rename_i h1
    rw [beq_iff_eq.1 h1, value_one, mul_one]
    exact denotes_number q
  · rename_i h1
    have hs : Symbolic m.factors :=
      symbolic_factors h (hm.resolve_left fun h => h1 (beq_iff_eq.2 h))
    split
    · rename_i hq
      refine (denotes_productOf h.factors (.inl hs)).of_eq ?_
      rw [h.prod_factors, Expr.rat.inj (beq_iff_eq.1 hq), one_mul]
    · refine (denotes_productOf (h.factors.cons (.rat q) rfl) (.inl (hs.cons _))).of_eq ?_
      rw [List.map_cons, List.prod_cons, h.prod_factors, value_number]

theorem isNumber_numberedProduct (h : Defined env m) (hm : m.isNumber = false) :
    (numberedProduct (.rat q, m)).isNumber = false := by
  have hs := symbolic_factors h hm
  rw [numberedProduct]
  dsimp only
  split
  · rename_i h1
    rw [beq_iff_eq.1 h1] at hm
    cases hm
  · split
    · exact isNumber_productOf hs
    · exact isNumber_productOf (hs.cons _)

/-- The number in front of a term, times another number. -/
theorem denotes_scaledTerm (q : ℚ) {t : Expr} (h : Defined env t) :
    ∃ f, numberedProduct (match t.coeffMul with | (d, m) => (mulNumbers d (.rat q), m)) = f ∧
      Denotes env f (q * value env t) ∧ (t.isNumber = false → f.isNumber = false) := by
  obtain ⟨d, m, hdm, hm, hv, hone, hn⟩ := h.numberInFront
  rw [hdm]
  refine ⟨_, rfl, (denotes_numberedProduct hm hone).of_eq ?_, fun ht =>
    isNumber_numberedProduct hm (hn ht)⟩
  rw [hv, mul_left_comm, ← mul_assoc]

/-- **A number in front of an expression**, or multiplied into its terms, multiplies the value. -/
theorem denotes_scale (clear sign : Bool) (h : Denotes env e r) :
    Denotes env (scale clear sign (.rat q) e) (q * r) := by
  rw [scale.eq_def]
  split
  · rename_i h1
    rw [beq_iff_eq.1 h1] at h
    rw [h.unique denotes_one, mul_one]
    exact denotes_number q
  · split
    · rename_i h1
      rw [Expr.rat.inj (beq_iff_eq.1 h1), one_mul]
      exact h
    · split
      · rename_i h1
        rw [Bool.and_eq_true] at h1
        rw [Expr.rat.inj (beq_iff_eq.1 h1.1), neg_one_mul]
        exact h.neg
      · split
        · rename_i ts _
          obtain ⟨hts, hs⟩ := h.defined.add_mem
          have hterm := fun t ht => denotes_scaledTerm q (hts t ht)
          dsimp only
          split
          · rw [List.map_map]
            refine (denotes_rawAdd (List.forall_mem_map.2 fun t ht => ?_)
              (Symbolic.map ?_)).of_eq ?_
            · obtain ⟨f, rfl, hf, -⟩ := hterm t ht
              exact hf.defined
            · obtain ⟨t, ht, hn⟩ := hs
              obtain ⟨f, rfl, -, hf⟩ := hterm t ht
              exact ⟨t, ht, hf hn⟩
            · rw [List.map_map, ← h.value_eq, value_add, ← List.sum_map_mul_left]
              refine congrArg List.sum (List.map_congr_left fun t ht => ?_)
              obtain ⟨f, rfl, hf, -⟩ := hterm t ht
              exact hf.value_eq
          · refine (denotes_rat_rawMul_single h.defined rfl rfl q).of_eq ?_
            rw [h.value_eq]
            rfl
        · exact h.scaled

/-! ## Contents of all parts -/

/-- **The content of a power.** -/
theorem splits_powerContent {f : Expr → ℚ × Expr} {s : ℚ} (h : Denotes env b v)
    (hf : Splits env (f b) v) (hn : 0 ≤ n ∨ v ≠ 0) (hs : c * s = n) :
    Splits env (powerContent b c (.rat s) f) (v ^ n) := by
  have hexp : keepCoeff (.rat c) (.rat s) = int n := by
    rw [keepCoeff_rat, hs]
    rfl
  have hwhole : Splits env (1, power b (int n)) (v ^ n) := (h.zpow hn).splits_one
  obtain ⟨hdef, rfl⟩ := h
  rw [powerContent.eq_def, hexp]
  cases hdef with
  | rat p =>
    rw [value_number] at hn hf hwhole ⊢
    rw [show (Expr.rat s).coeffAdd = (.rat s, zero) from rfl]
    dsimp only
    have hpower : power (.rat p) (.rat (c * s)) = .rat (p ^ n) := by
      rw [hs]
      exact power_rat hn
    have hone : power (.rat p) (keepCoeff (.rat c) zero) = one := by
      rw [zero, keepCoeff_rat, mul_zero]
      rfl
    split
    · exact hwhole
    · rw [hpower, hone]
      exact denotes_one.splits (mul_one _)
  | mul fs all flat sym =>
    -- a product gives its number
    generalize f (.app .mul fs) = p at hf
    obtain ⟨h, t⟩ := p
    obtain ⟨ht, hv⟩ := hf
    rw [← hv] at hn
    have hh : 0 ≤ n ∨ h ≠ 0 := hn.imp_right left_ne_zero_of_mul
    have hpower : power (.rat h) (.rat n) = .rat (h ^ n) := power_rat hh
    dsimp only [int]
    rw [hpower]
    show Splits env (h ^ n, power (keepCoeff one t) (int n)) _
    rw [← hv, mul_zpow]
    have ht' : Denotes env (keepCoeff one t) (value env t) :=
      ht.denotes.scaled.of_eq (one_mul _)
    exact (ht'.zpow (hn.imp_right right_ne_zero_of_mul)).splits rfl
  | symbol x => exact hwhole
  | add ts all sym => exact hwhole
  | pow d k => exact hwhole

theorem contentPrimitives_eq (clear : Bool) (es : List Expr) :
    contentPrimitives clear es = es.map (contentPrimitive clear) := by
  induction es with
  | nil => rfl
  | cons e es ih => rw [contentPrimitives, ih, List.map_cons]

/-- A whole number is its magnitude and its sign. -/
theorem contentPrimitive_rat (clear : Bool) (q : ℚ) :
    ∃ c s, contentPrimitive clear (.rat q) = (c, .rat s) ∧ c * s = q := by
  rw [contentPrimitive]
  split
  · rename_i h0
    exact ⟨1, 0, rfl, by rw [h0, mul_zero]⟩
  · split
    · exact ⟨-q, -1, rfl, by ring⟩
    · exact ⟨q, 1, rfl, mul_one q⟩

theorem foldl_mul_fst (ps : List (ℚ × Expr)) (c : ℚ) :
    ps.foldl (fun c p => c * p.1) c = c * (ps.map (·.1)).prod := by
  induction ps generalizing c with
  | nil => exact (mul_one c).symm
  | cons p ps ih => rw [List.foldl_cons, ih, List.map_cons, List.prod_cons, mul_assoc]

/-- A fraction in front of a sum whose denominator is divided into the terms. -/
theorem splits_whole (h : Denotes env e v) (q : ℚ) :
    Splits env (q.num, sum (e.terms.map fun t => .rat (1 / q.den) * t)) (q * v) := by
  have hsum := denotes_sum_map (g := fun t => 1 / (q.den : ℚ) * value env t) fun t ht =>
    (denotes_number (1 / (q.den : ℚ))).mul (h.defined.terms t ht).denotes
  refine hsum.splits ?_
  rw [List.sum_map_mul_left, h.defined.sum_terms, h.value_eq, ← mul_assoc, mul_one_div,
    Rat.num_div_den]

theorem Splits.abs {p : ℚ × Expr} (h : Splits env p r) :
    Splits env (if p.1 < 0 then (-p.1, -p.2) else p) r := by
  split
  · exact h.defined.denotes.neg.splits ((neg_mul_neg _ _).trans h.value_eq)
  · exact h

/-- **The content of an expression and what remains.** -/
theorem splits_contentPrimitive (clear : Bool) (h : Defined env e) :
    Splits env (contentPrimitive clear e) (value env e) := by
  induction h with
  | rat q =>
    obtain ⟨c, s, hcs, hq⟩ := contentPrimitive_rat clear q
    rw [hcs, value_number]
    exact (denotes_number s).splits hq
  | symbol s =>
    rw [contentPrimitive]
    · exact (denotes_symbol s).splits_one.of_eq (value_symbol env s).symm
    all_goals
      intros
      contradiction
  | add ts all sym ih =>
    have hsum : Denotes env (sum (ts.map fun t => keepCoeff (.rat (contentPrimitive clear t).1)
        (contentPrimitive clear t).2)) (value env (.app .add ts)) := by
      rw [value_add]
      exact denotes_sum_map fun t ht => (ih t ht).scaled
    have hsplit := (splits_primitive hsum.defined).of_eq hsum.value_eq
    rw [contentPrimitive, contentPrimitives_eq, List.map_map]
    replace hsplit : Splits env (primitive (sum (ts.map ((fun p => keepCoeff (.rat p.1) p.2) ∘
      contentPrimitive clear)))) (value env (.app .add ts)) := hsplit
    generalize primitive (sum (ts.map _)) = p at hsplit
    obtain ⟨con, prim⟩ := p
    dsimp only
    split
    · split
      · exact (splits_whole hsplit.defined.denotes con).of_eq hsplit.value_eq
      · exact hsplit
    · exact hsplit
  | mul fs all flat sym ih =>
    rw [contentPrimitive, contentPrimitives_eq]
    rw [foldl_mul_fst, one_mul, List.map_map, List.map_map]
    have hparts : ∀ e ∈ (fs.map ((·.2) ∘ contentPrimitive clear)).filter fun e => !(e == one),
        Defined env e := fun e he => by
      obtain ⟨f, hf, rfl⟩ := List.mem_map.1 (List.mem_of_mem_filter he)
      exact (ih f hf).defined
    have hproduct := denotes_product hparts
    rw [Canonical.prod_filter_one, List.map_map] at hproduct
    refine hproduct.splits ?_
    rw [← List.prod_map_mul, value_mul]
    exact congrArg List.prod (List.map_congr_left fun f hf => (ih f hf).value_eq)
  | pow b n base kind ne_zero ne_one regular ih =>
    obtain ⟨c, s, hcs, hn⟩ := contentPrimitive_rat clear n
    rw [contentPrimitive, hcs, value_pow, wholePow_rat]
    refine splits_powerContent ih.scaled ?_ (regular_iff.1 regular) hn
    exact (splits_ratCoeffMul ih.scaled.defined).abs.of_eq ih.scaled.value_eq

end ErrorBars.Expr
