import Mathlib.Algebra.DualNumber
import Mathlib.Tactic.LinearCombination
import ErrorBars.Expr.Derivative
import ErrorBars.Proofs.Exact.Pole

/-!
# The derivative is the slope

In pairs of a value and a slope (dual numbers), sums, products and powers follow the rules for
derivatives.  If the variable has the slope one and the other variables have the slope zero, the
slope of an expression is its partial derivative, and `denotes_derivative` says that the
derivative by the rules for sums, products and powers denotes this slope.

For a power the rules multiply by a logarithm of the base with the factor zero, and divide by the
base.  The logarithm is left as it stands and vanishes (`zero_mul_log`); the base may have the
value zero, and that is no harm (`Canonical.denotes_power_mul_div`).
-/

set_option autoImplicit false

namespace ErrorBars

open Expr

/-! ## Values in another ring -/

section

variable {R S : Type} [CommRing R] [Algebra ℚ R] [CommRing S] [Algebra ℚ S] {env : String → R}

/-- A map of rings takes values to values. -/
theorem Expr.Defined.map {e : Expr} (f : R →ₐ[ℚ] S) (h : Defined env e) :
    Denotes (fun s => f (env s)) e (f (value env e)) := by
  induction h with
  | rat q => exact (denotes_rat q).of_eq (by rw [value_rat, f.commutes])
  | symbol s => exact (denotes_symbol s).of_eq (by rw [value_symbol])
  | add ts all sym ih =>
    refine ⟨.add ts (fun t ht => (ih t ht).defined) sym, ?_⟩
    rw [value_add, value_add, map_list_sum, List.map_map]
    exact congrArg List.sum (List.map_congr_left fun t ht => (ih t ht).value_eq)
  | mul fs all flat sym ih =>
    refine ⟨.mul fs (fun t ht => (ih t ht).defined) flat sym, ?_⟩
    rw [value_mul, value_mul, map_list_prod, List.map_map]
    exact congrArg List.prod (List.map_congr_left fun t ht => (ih t ht).value_eq)
  | pow b n base kind ne_zero ne_one regular ih =>
    have hreg : Regular (f (value env b)) n := regular.map (f : R →+* S)
    refine ⟨.pow b n ih.defined kind ne_zero ne_one (ih.value_eq ▸ hreg), ?_⟩
    rw [value_pow, value_pow, ih.value_eq]
    exact (map_wholePow (f : R →+* S) regular).symm

end

/-! ## The logarithm that vanishes -/

namespace Canonical

variable {R : Type} [CommRing R] [Algebra ℚ R] {A : Arith} {env : String → R} {b : Expr}

/-- The logarithm of a variable or a sum has no simpler form. -/
theorem log_eq_none (hb : Defined env b) (hbase : b.isBase = true) : log A b = none := by
  have hc := hb.isConstant_eq (isNumber_of_isBase hbase)
  cases hb with
  | rat | mul | pow => cases hbase
  | symbol s => rfl
  | add ts all sym =>
    rw [log.eq_def, hc]
    rfl

theorem knownBits_pair (t u : Expr) : knownBits (.app .add [t, u]) =
    match u.coeffMul with
    | (im, .const .i) => if t.isNumber then max t.precision im.precision else 0
    | _ => 0 := rfl

theorem apply_log (hb : Defined env b) (hbase : b.isBase = true) :
    apply A .log [b] = rawFn .log [b] := by
  have hbits : knownBits b = 0 := by
    cases hb with
    | rat | mul | pow => cases hbase
    | symbol s => rfl
    | add ts all sym =>
      rcases ts with _ | ⟨t, _ | ⟨u, _ | ⟨_, _⟩⟩⟩
      case cons.cons.nil =>
        obtain ⟨q, m, hqm, hm, -⟩ := (all u (by simp)).coeffMul
        rw [knownBits_pair, hqm]
        cases hm <;> rfl
      all_goals rfl
  have happrox : approximate? A .log [b] = none := by
    rw [approximate?.eq_def]
    refine if_pos ?_
    rw [Bool.or_eq_true]
    exact .inr (List.any_eq_true.2 ⟨b, by simp, by rw [hbits]; rfl⟩)
  rw [apply, show simpler A .log [b] = log A b from rfl, log_eq_none hb hbase, happrox]
  rfl

/-- Zero times a logarithm is zero. -/
theorem zero_mul_log (hA : A.Exact env) (hb : Defined env b) (hbase : b.isBase = true) :
    product A [zero, apply A .log [b]] = zero := by
  rw [apply_log hb hbase]
  have hsum : A.sum [one] = one := by
    have hsum := hA.sum_rat [1]
    rwa [List.sum_singleton] at hsum
  have hgather : gather A [(rawFn .log [b], one)] = [(rawFn .log [b], one)] := by
    show [(rawFn .log [b], A.mul (A.sum [one]) one)] = _
    rw [hsum, one, hA.mul_rat, mul_one]
  have hevaluated : evaluatePowers A 1 (gather A [(rawFn .log [b], one)].reverse) =
      [.factor (rawFn .log [b]) (rawFn .log [b]) one] := by
    rw [List.reverse_singleton, hgather, evaluatePowers_eq]
    · rfl
    · intro p hp e d x hfactor
      rw [List.mem_singleton.1 hp] at hfactor ⊢
      exact (Evaluation.factor.inj hfactor).2.1.symm
  have hfacts : (rawFn .log [b]).facts = Facts.nothing := by
    obtain ⟨hc, hf⟩ := hb.isConstant_and_facts (isNumber_of_isBase hbase)
    rw [rawFn, facts, isConstant_app ⟨b, by simp, hc⟩, factsOfAll, hf, factsOfAll]
    rfl
  have hproduct : product A [zero, rawFn .log [b]] =
      assemble A ⟨.rat (1 * 0), [(rawFn .log [b], one)], [], [], 0, false⟩ := rfl
  rw [hproduct, assemble_powers hevaluated, mul_zero]
  · exact closeProduct_zero (List.forall_mem_singleton.2 ⟨rfl, hfacts⟩)
  · exact List.forall_mem_singleton.2 Evaluation.noConfusion

/-- Zero is left out of a sum. -/
theorem sum_zero_left (e : Expr) : sum A [zero, e] = e := by
  rw [sum, List.filter_cons_of_neg (by decide)]
  by_cases he : (e == zero) = true
  · rw [List.filter_cons_of_neg (by rw [he]; decide), beq_iff_eq.1 he]
    rfl
  · rw [List.filter_cons_of_pos (by rw [Bool.not_eq_true] at he; rw [he]; rfl)]
    rfl

end Canonical

/-! ## Pairs of a value and a slope -/

/-- A value and a slope. -/
abbrev Dual := DualNumber ℚ

namespace Dual

open TrivSqZeroExt

/-- The variables at a point, where one of them has the slope one. -/
def along (point : String → ℚ) (v : String) (s : String) : Dual :=
  (point s, if s = v then 1 else 0)

variable {u : Dual} {n : ℤ}

theorem snd_mul' (u w : Dual) : (u * w).snd = u.fst * w.snd + u.snd * w.fst := rfl

theorem regular_fst (h : Regular u n) : Regular u.fst n := h.map (fstHom ℚ ℚ ℚ : Dual →+* ℚ)

theorem fst_wholePow (h : Regular u n) : (wholePow u n).fst = wholePow u.fst n :=
  map_wholePow (fstHom ℚ ℚ ℚ : Dual →+* ℚ) h

theorem snd_pow_succ (u : Dual) (k : ℕ) :
    (wholePow u (k + 1 : ℕ)).snd = (k + 1) * (u.fst ^ k * u.snd) := by
  rw [wholePow_natCast, snd_pow, nsmul_eq_mul, Nat.pred_succ, smul_eq_mul, Nat.cast_succ]

/-- **The slope of a power.** -/
theorem snd_wholePow (h : Regular u n) (hn : n ≠ 0) :
    (wholePow u n).snd = n * (wholePow u.fst (n - 1) * u.snd) := by
  rcases lt_or_gt_of_ne hn with hneg | hpos
  · obtain ⟨k, rfl⟩ : ∃ k : ℕ, n = -(k + 1 : ℕ) := ⟨(-n - 1).toNat, by omega⟩
    have hunit := h.isUnit hneg
    have hfst : u.fst ≠ 0 := (isUnit_iff_isUnit_fst.1 hunit).ne_zero
    -- the product with the power that has the opposite exponent has no slope
    have hone := congrArg snd (wholePow_neg_mul hunit (k + 1 : ℕ))
    rw [snd_mul', fst_wholePow h, snd_pow_succ, fst_wholePow (.inr hunit), snd_one, wholePow_rat,
      wholePow_rat] at hone
    rw [wholePow_rat]
    have hleft : u.fst ^ (-(k + 1 : ℕ) : ℤ) * u.fst ^ k = u.fst⁻¹ := by
      rw [← zpow_natCast u.fst k, ← zpow_add₀ hfst, ← zpow_neg_one]
      congr 1
      omega
    have hright : u.fst ^ (-(k + 1 : ℕ) - 1 : ℤ) * u.fst ^ ((k + 1 : ℕ) : ℤ) = u.fst⁻¹ := by
      rw [← zpow_add₀ hfst, ← zpow_neg_one]
      congr 1
      omega
    refine mul_right_cancel₀ (zpow_ne_zero ((k + 1 : ℕ) : ℤ) hfst) ?_
    push_cast at hone hleft hright ⊢
    linear_combination hone - (k + 1) * u.snd * hleft + (k + 1) * u.snd * hright
  · obtain ⟨k, rfl⟩ : ∃ k : ℕ, n = (k + 1 : ℕ) := ⟨(n - 1).toNat, by omega⟩
    have hk : ((k + 1 : ℕ) : ℤ) - 1 = k := by omega
    rw [snd_pow_succ, hk, wholePow_natCast, Int.cast_natCast, Nat.cast_succ]

end Dual

/-! ## The rules -/

namespace Expr

open TrivSqZeroExt

variable {point : String → ℚ} {v : String} {e b : Expr} {es fs : List Expr} {n : ℤ}

/-- The value at the point. -/
theorem Defined.at_point (h : Defined (Dual.along point v) e) :
    Denotes point e (value (Dual.along point v) e).fst := h.map (fstHom ℚ ℚ ℚ)

theorem prod_at_point (h : ∀ e ∈ es, Defined (Dual.along point v) e) :
    (es.map (value point)).prod = ((es.map (value (Dual.along point v))).prod).fst := by
  have hmap : ((es.map (value (Dual.along point v))).prod).fst =
      (((es.map (value (Dual.along point v))).map (fstHom ℚ ℚ ℚ)).prod) :=
    map_list_prod (fstHom ℚ ℚ ℚ) _
  rw [hmap, List.map_map]
  exact congrArg List.prod (List.map_congr_left fun e he => (h e he).at_point.value_eq)

theorem snd_list_sum (l : List Dual) : l.sum.snd = (l.map snd).sum :=
  map_list_sum (sndHom ℚ ℚ) l

theorem snd_prod_eq_zero {l : List Dual} (h : ∀ u ∈ l, u.snd = 0) : l.prod.snd = 0 := by
  induction l with
  | nil => rfl
  | cons u l ih =>
    obtain ⟨hu, hl⟩ := List.forall_mem_cons.1 h
    rw [List.prod_cons, Dual.snd_mul', hu, ih hl, mul_zero, zero_mul, add_zero]

theorem hasSymbol_app (v : String) (k : Head) (es : List Expr) :
    (Expr.app k es).hasSymbol v = anyOf (fun x => x == .symbol v) es := by
  rw [hasSymbol, any]
  rfl

theorem hasSymbol_of_mem (h : anyOf (fun x => x == .symbol v) es = false) (he : e ∈ es) :
    e.hasSymbol v = false := by
  rw [anyOf_eq] at h
  exact Bool.eq_false_iff.2 fun hs => List.any_eq_false.1 h e he hs

/-- Where the variable does not occur, there is no slope. -/
theorem Defined.snd_eq_zero (h : Defined (Dual.along point v) e) :
    e.hasSymbol v = false → (value (Dual.along point v) e).snd = 0 := by
  have hparts : ∀ {k : Head} {es : List Expr}, (Expr.app k es).hasSymbol v = false →
      ∀ e ∈ es, e.hasSymbol v = false := fun {k es} hs e he =>
    hasSymbol_of_mem (hasSymbol_app v k es ▸ hs) he
  induction h with
  | rat q =>
    intro _
    rw [value_rat]
    rfl
  | symbol s =>
    intro hs
    rw [value_symbol]
    refine if_neg fun heq => ?_
    rw [heq] at hs
    simp [hasSymbol, any] at hs
  | add ts _ _ ih =>
    intro hs
    rw [value_add, snd_list_sum, List.map_map]
    refine List.sum_eq_zero fun x hx => ?_
    obtain ⟨t, ht, rfl⟩ := List.mem_map.1 hx
    exact ih t ht (hparts hs t ht)
  | mul fs _ _ _ ih =>
    intro hs
    rw [value_mul]
    refine snd_prod_eq_zero fun x hx => ?_
    obtain ⟨f, hf, rfl⟩ := List.mem_map.1 hx
    exact ih f hf (hparts hs f hf)
  | pow b n _ _ ne_zero _ regular ih =>
    intro hs
    rw [value_pow, Dual.snd_wholePow regular ne_zero, ih (hparts hs b (by simp)), mul_zero,
      mul_zero]

theorem derivativesWithin_eq (inner : Expr → Expr) (es : List Expr) :
    derivativesWithin inner v es = es.map (derivativeWithin inner v) := by
  induction es with
  | nil => rfl
  | cons e es ih => rw [derivativesWithin, ih, List.map_cons]

theorem denotes_foldl_mul {env : String → ℚ} {r : ℚ} (h : ∀ e ∈ es, Defined env e)
    (ha : Denotes env b r) :
    Denotes env (es.foldl (· * ·) b) (r * (es.map (value env)).prod) := by
  induction es generalizing b r with
  | nil => exact ha.of_eq (mul_one r).symm
  | cons e es ih =>
    obtain ⟨he, hes⟩ := List.forall_mem_cons.1 h
    refine (ih hes (ha.mul he.denotes)).of_eq ?_
    rw [List.map_cons, List.prod_cons, mul_assoc]

/-- **The product rule.** -/
theorem denotes_productTerms {before after : List Expr} {d : Expr → Expr}
    (hb : ∀ e ∈ before, Defined (Dual.along point v) e)
    (ha : ∀ e ∈ after, Defined (Dual.along point v) e ∧
      Denotes point (d e) (value (Dual.along point v) e).snd) :
    (∀ t ∈ productTerms before after (after.map d), Defined point t) ∧
      ((productTerms before after (after.map d)).map (value point)).sum =
        (before.map (value point)).prod * ((after.map (value (Dual.along point v))).prod).snd := by
  induction after generalizing before with
  | nil =>
    refine ⟨fun t ht => absurd ht List.not_mem_nil, ?_⟩
    show (0 : ℚ) = _ * (0 : ℚ)
    rw [mul_zero]
  | cons x after ih =>
    obtain ⟨⟨hx, hd⟩, hafter⟩ := List.forall_mem_cons.1 ha
    have hbefore : ∀ e ∈ before ++ [x], Defined (Dual.along point v) e := fun e he =>
      (List.mem_append.1 he).elim (hb e) fun he => List.mem_singleton.1 he ▸ hx
    obtain ⟨hmem, hsum⟩ := ih hbefore hafter
    rw [List.map_append, List.prod_append, List.map_singleton, List.prod_singleton,
      hx.at_point.value_eq] at hsum
    rw [List.map_cons, productTerms, List.map_cons, List.prod_cons, Dual.snd_mul']
    split
    · rename_i hzero
      refine ⟨hmem, ?_⟩
      rw [hsum, hd.eq_zero hzero]
      ring
    · have hterm : ∀ e ∈ before ++ d x :: after, Defined point e := fun e he => by
        rcases List.mem_append.1 he with he | he
        · exact (hb e he).at_point.defined
        · rcases List.mem_cons.1 he with rfl | he
          · exact hd.defined
          · exact (hafter e he).1.at_point.defined
      have hfold := denotes_foldl_mul hterm denotes_one
      refine ⟨List.forall_mem_cons.2 ⟨hfold.defined, hmem⟩, ?_⟩
      rw [List.map_cons, List.sum_cons, hsum, hfold.value_eq, List.map_append, List.prod_append,
        List.map_cons, List.prod_cons, hd.value_eq, prod_at_point fun e he => (hafter e he).1]
      ring

/-- **The power rule.** -/
theorem denotes_derivative_power {db : Expr} (hb : Defined (Dual.along point v) b)
    (hbase : b.isBase = true) (hn : n ≠ 0) (hr : Regular (value (Dual.along point v) b) n)
    (hdb : Denotes point db (value (Dual.along point v) b).snd) :
    Denotes point (power b (int n) * (zero * apply .log [b] + db * int n / b))
      (wholePow (value (Dual.along point v) b) n).snd := by
  have hA : (Arith.level 39).Exact point := Arith.exact_level 39
  have hpoint := hb.at_point
  have he : Denotes point (db * int n) ((value (Dual.along point v) b).snd * n) :=
    hdb.mul (denotes_int n)
  have hlog : zero * apply .log [b] = zero := Canonical.zero_mul_log hA hpoint.defined hbase
  have hpower : ∀ {m : ℤ}, m ≠ 0 → power b (int m) = powerForm b m := fun hm =>
    Canonical.power_base (A := Arith.level 39) hpoint.defined hbase hm
  have hdiv : db * int n / b = db * int n * powerForm b (-1) := by
    rw [← hpower (by decide)]
    rfl
  have hsum : zero + db * int n / b = db * int n / b := Canonical.sum_zero_left _
  rw [hlog, hsum, hdiv, hpower hn, Dual.snd_wholePow hr hn]
  rcases lt_or_gt_of_ne hn with hneg | hpos
  · -- the base has an inverse
    have hunit : IsUnit (value (Dual.along point v) b).fst := (Dual.regular_fst hr).isUnit hneg
    have hform : ∀ {m : ℤ}, m ≠ 0 → Denotes point (powerForm b m)
        (wholePow (value (Dual.along point v) b).fst m) := fun hm => by
      have hform := denotes_powerForm hpoint.defined hbase hm (hpoint.value_eq ▸ .inr hunit)
      rwa [hpoint.value_eq] at hform
    refine ((hform hn).mul (he.mul (hform (by decide)))).of_eq ?_
    rw [show n - 1 = n + -1 from rfl, wholePow_add (.inr hunit) (.inr hunit)]
    ring
  · have hpole := Canonical.denotes_power_mul_div hA he.defined hpoint.defined hbase (n := n) hpos
    refine Denotes.of_eq hpole ?_
    rw [hpoint.value_eq, he.value_eq]
    ring

/-- **The derivative denotes the slope.** -/
theorem denotes_derivativeWithin (inner : Expr → Expr) (h : Defined (Dual.along point v) e) :
    Denotes point (derivativeWithin inner v e) (value (Dual.along point v) e).snd := by
  have hnode : ∀ {k : Head} {es : List Expr}, Defined (Dual.along point v) (.app k es) →
      Denotes point (headDerivative inner v k es (es.map (derivativeWithin inner v)))
        (value (Dual.along point v) (.app k es)).snd →
      Denotes point (derivativeWithin inner v (.app k es))
        (value (Dual.along point v) (.app k es)).snd := by
    intro k es hdef hhead
    rw [derivativeWithin, derivativesWithin_eq]
    split
    · exact hhead
    · rename_i hs
      refine denotes_zero.of_eq (hdef.snd_eq_zero ?_).symm
      rwa [hasSymbol_app, ← Bool.not_eq_true]
  induction h with
  | rat q => exact denotes_zero.of_eq (by rw [value_rat]; rfl)
  | symbol s =>
    rw [derivativeWithin, value_symbol]
    show Denotes point _ (if s = v then 1 else 0)
    split
    · exact denotes_one
    · exact denotes_zero
  | add ts all sym ih =>
    refine hnode (.add ts all sym) ?_
    rw [value_add, snd_list_sum, List.map_map]
    exact denotes_sum_map fun t ht => ih t ht
  | mul fs all flat sym ih =>
    refine hnode (.mul fs all flat sym) ?_
    have hnone : ∀ e ∈ ([] : List Expr), Defined (Dual.along point v) e := fun e he =>
      absurd he List.not_mem_nil
    obtain ⟨hmem, hsum⟩ := denotes_productTerms (d := derivativeWithin inner v) hnone
      fun f hf => ⟨all f hf, ih f hf⟩
    refine (denotes_sum hmem).of_eq ?_
    rw [hsum, value_mul, List.map_nil, List.prod_nil, one_mul]
  | pow b n base kind ne_zero ne_one regular ih =>
    refine hnode (.pow b n base kind ne_zero ne_one regular) ?_
    rw [value_pow]
    exact denotes_derivative_power base kind ne_zero regular ih

/-- **The partial derivative denotes the slope** of what is differentiated. -/
theorem denotes_derivative (h : Defined (Dual.along point v) e) :
    Denotes point (derivative v e) (value (Dual.along point v) e).snd :=
  denotes_derivativeWithin _ h

end Expr

end ErrorBars
