import ErrorBars.Proofs.Exact.CommonFactor

/-!
# Expansion keeps values

Products of sums are multiplied out one sum at a time, and whole powers of sums by repeated
squaring.  Where an expansion would grow too long, nothing is done; so the only thing to be shown
is that each product that is formed has the product of the values.
-/

set_option autoImplicit false

namespace ErrorBars.Expr

variable {env : String → ℚ} {a b e : Expr} {es ts fs : List Expr} {q r v : ℚ} {n : ℤ}

/-! ## Products -/

theorem sum_flatMap_mul (us vs : List ℚ) :
    (us.flatMap fun u => vs.map fun v => u * v).sum = us.sum * vs.sum := by
  induction us with
  | nil => exact (zero_mul _).symm
  | cons u us ih =>
    rw [List.flatMap_cons, List.sum_append, ih, List.sum_map_mul_left, List.map_id', List.sum_cons,
      add_mul]

/-- A sum times a sum, term by term. -/
theorem denotes_termwise (ha : Denotes env a r) (hb : Denotes env b v) :
    Denotes env (sum (a.terms.flatMap fun t => b.terms.map fun u => t * u)) (r * v) := by
  have hta := ha.defined.terms
  have htb := hb.defined.terms
  refine (denotes_sum fun e he => ?_).of_eq ?_
  · obtain ⟨t, ht, he⟩ := List.mem_flatMap.1 he
    obtain ⟨u, hu, rfl⟩ := List.mem_map.1 he
    exact ((hta t ht).denotes.mul (htb u hu).denotes).defined
  · rw [← ha.value_eq, ← hb.value_eq, ← ha.defined.sum_terms, ← hb.defined.sum_terms,
      ← sum_flatMap_mul, List.map_flatMap, List.flatMap_map]
    refine congrArg List.sum (List.flatMap_congr fun t ht => ?_)
    rw [List.map_map, List.map_map]
    exact List.map_congr_left fun u hu => ((hta t ht).denotes.mul (htb u hu).denotes).value_eq

theorem denotes_foldl_termwise (hes : ∀ e ∈ es, Defined env e) (ha : Denotes env a r) :
    Denotes env (es.foldl (fun acc s =>
      sum (acc.terms.flatMap fun t => s.terms.map fun u => t * u)) a)
      (r * (es.map (value env)).prod) := by
  induction es generalizing a r with
  | nil => exact ha.of_eq (mul_one r).symm
  | cons e es ih =>
    obtain ⟨he, hes⟩ := List.forall_mem_cons.1 hes
    rw [List.map_cons, List.prod_cons, ← mul_assoc]
    exact ih hes (denotes_termwise ha he.denotes)

theorem prod_filter_not (p : Expr → Bool) (es : List Expr) :
    ((es.filter fun e => !p e).map (value env)).prod * ((es.filter p).map (value env)).prod =
      (es.map (value env)).prod := by
  rw [mul_comm, ← List.prod_append, ← List.map_append]
  exact ((List.filter_append_perm p es).map _).prod_eq

/-- **A product multiplied out** has the product of the values. -/
theorem denotes_expandFactors (h : ∀ e ∈ es, Defined env e) :
    Denotes env (expandFactors es) (es.map (value env)).prod := by
  rw [expandFactors]
  split
  · exact denotes_product h
  · have hfilter : ∀ (p : Expr → Bool), ∀ e ∈ es.filter p, Defined env e := fun p e he =>
      h e (List.mem_of_mem_filter he)
    have hplain := denotes_product (hfilter fun e => !e.isAdd)
    have hbody := denotes_foldl_termwise (hfilter isAdd) denotes_one
    refine (denotes_sum_map fun t ht =>
      hplain.mul (hbody.defined.terms t ht).denotes).of_eq ?_
    rw [List.sum_map_mul_left, hbody.defined.sum_terms, hbody.value_eq, one_mul]
    exact prod_filter_not isAdd es

/-! ## Powers -/

/-- **A whole power by repeated squaring.** -/
theorem denotes_expandPower (hb : Denotes env b v) (fuel : ℕ) :
    ∀ n < 2 ^ fuel, Denotes env (expandPower b fuel n) (v ^ n) := by
  have hpair : ∀ {a c : Expr} {r s : ℚ}, Denotes env a r → Denotes env c s →
      Denotes env (expandFactors [a, c]) (r * s) := fun ha hc => by
    refine (denotes_expandFactors (List.forall_mem_cons.2
      ⟨ha.defined, List.forall_mem_singleton.2 hc.defined⟩)).of_eq ?_
    rw [List.map_cons, List.map_singleton, List.prod_cons, List.prod_singleton, ha.value_eq,
      hc.value_eq]
  induction fuel with
  | zero =>
    intro n hn
    obtain rfl : n = 0 := by omega
    rw [pow_zero]
    exact denotes_one
  | succ fuel ih =>
    intro n hn
    have hhalf := ih (n / 2) (by omega)
    rw [expandPower]
    split
    · rename_i h0
      rw [h0, pow_zero]
      exact denotes_one
    · split
      · rename_i h1
        rw [h1, pow_one]
        exact hb
      · have hsquare := hpair hhalf hhalf
        dsimp only
        split
        · rename_i heven
          refine hsquare.of_eq ?_
          rw [← pow_add]
          congr 1
          omega
        · rename_i hodd
          refine (hpair hsquare hb).of_eq ?_
          rw [← pow_add, ← pow_succ]
          congr 1
          omega

/-- **A whole power of a sum multiplied out.** -/
theorem denotes_expandSumPower (hb : Denotes env b v) (hn : 0 ≤ n ∨ v ≠ 0) :
    Denotes env (expandSumPower b n) (v ^ n) := by
  have hnum : (n : ℚ).num.natAbs / (n : ℚ).den = n.natAbs := by
    rw [Rat.num_intCast, Rat.den_intCast, Nat.div_one]
  have hwhole := denotes_expandPower hb (Nat.log2 n.natAbs + 2) n.natAbs (by
    have h := Nat.lt_log2_self (n := n.natAbs)
    rw [pow_succ]
    omega)
  have hpart : mkRat (n : ℚ).num.natAbs (n : ℚ).den - ((n.natAbs : ℕ) : ℚ) = 0 := by
    rw [Rat.num_intCast, Rat.den_intCast, Rat.mkRat_one, Int.cast_natCast, sub_self]
  rw [expandSumPower, hnum]
  dsimp only
  rw [if_pos hpart]
  split
  · exact hb.zpow hn
  · split
    · rename_i hneg
      have hlt : n < 0 := by exact_mod_cast hneg
      have hv : v ≠ 0 := hn.resolve_left (not_le.2 hlt)
      refine (hwhole.reciprocal (pow_ne_zero _ hv)).of_eq ?_
      rw [← zpow_natCast, ← zpow_neg]
      congr 1
      omega
    · rename_i hneg
      have hnonneg : 0 ≤ n := by
        rw [not_lt] at hneg
        exact_mod_cast hneg
      refine hwhole.of_eq ?_
      rw [← zpow_natCast]
      congr 1
      omega

/-! ## Everywhere -/

theorem keepsValue_expandQuotient : KeepsValue env expandQuotient := by
  rintro e r ⟨h, rfl⟩
  rw [expandQuotient.eq_def]
  split
  · rename_i fs
    have hratio := ratio_fraction h
    generalize fraction (.app .mul fs) = p at hratio
    obtain ⟨n, d⟩ := p
    have hfactors : ∀ {e}, Defined env e → Denotes env (expandFactors e.factors) (value env e) :=
      fun he => (denotes_expandFactors fun f hf => (he.factors f hf).1).of_eq he.prod_factors
    dsimp only
    split
    · have hquotient := ((hfactors hratio.above).quotient (hfactors hratio.below)
        hratio.ne_zero).of_eq hratio.value_eq
      split
      · rename_i gs heq
        rw [heq] at hquotient
        exact (hfactors hquotient.defined).of_eq hquotient.value_eq
      · exact hquotient
    · exact hfactors h
  · exact h.denotes

theorem keepsValue_expandNode (laws : Expansion) : KeepsValue env (expandNode laws) := by
  rintro e r ⟨h, rfl⟩
  cases h with
  | rat q => exact (Defined.rat q).denotes
  | symbol s => exact (Defined.symbol s).denotes
  | add ts all sym => exact (Defined.add ts all sym).denotes
  | mul fs all flat sym =>
    have hmul := Defined.mul fs all flat sym
    rw [expandNode]
    split
    · have hproduct := denotes_product all
      rw [← value_mul] at hproduct
      split
      · rename_i gs heq
        rw [heq] at hproduct
        exact keepsValue_expandQuotient hproduct
      · exact hproduct
    · exact hmul.denotes
  | pow b n base kind ne_zero ne_one regular =>
    have hpower := Defined.pow b n base kind ne_zero ne_one regular
    cases base with
    | rat | mul | pow => cases kind
    | symbol s => exact hpower.denotes
    | add ts all sym =>
      rw [expandNode]
      split
      · rw [value_pow, wholePow_rat]
        exact denotes_expandSumPower (Defined.add ts all sym).denotes (regular_iff.1 regular)
      · exact hpower.denotes

/-- **Expanding an expression keeps its value.** -/
theorem keepsValue_expand (laws : Expansion) : KeepsValue env (expand laws) :=
  keepsValue_bottomUp (keepsValue_expandNode laws)

end ErrorBars.Expr
