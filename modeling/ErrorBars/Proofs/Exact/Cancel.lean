import Mathlib.Algebra.BigOperators.Group.Finset.Basic
import ErrorBars.Proofs.Exact.Expand
import ErrorBars.Proofs.Exact.Polynomial

/-!
# Cancelling keeps values

The numerator and the denominator of an expression are multiplied out, and their terms are taken
apart into numbers and powers of generators (`hasExactTerm_generatorTerm`).  With the values of
the generators put in for its variables, the polynomial of the terms has the value of their sum,
up to the number that makes all numbers in front whole (`value_polyOf`), and written down again it
has its value (`denotes_ofPoly`).  What is divided out of both polynomials is a common divisor, so
that it is not zero where the denominator is not (`ratio_cancelTerms`).
-/

set_option autoImplicit false

namespace ErrorBars.Expr

variable {env : String → ℚ} {e f p q : Expr} {ts fs gens : List Expr} {c r u w : ℚ} {n : ℕ}

/-! ## Terms -/

/-- The rational number in front of a term. -/
def GeneratorTerm.number (t : GeneratorTerm) : ℚ := t.coeff.rat?.getD 0

/-- A term with a rational number in front and powers of defined generators. -/
structure ExactTerm (env : String → ℚ) (t : GeneratorTerm) : Prop where
  /-- the number in front -/
  coeff : t.coeff = .rat t.number
  /-- the powers -/
  stands : Stands env t.powers (bag t.powers)

/-- The value of a term. -/
noncomputable def exactTermValue (env : String → ℚ) (t : GeneratorTerm) : ℚ :=
  t.number * bagValue env (bag t.powers)

/-- A term that has a value. -/
structure HasExactTerm (env : String → ℚ) (t : GeneratorTerm) (r : ℚ) : Prop where
  /-- the term -/
  term : ExactTerm env t
  /-- the value -/
  value_eq : exactTermValue env t = r

theorem HasExactTerm.power {t : GeneratorTerm} (h : HasExactTerm env t r) (he : Defined env e)
    (k : ℕ) : HasExactTerm env ⟨t.coeff, t.powers.mulPower e k⟩ (r * value env e ^ k) := by
  obtain ⟨⟨hcoeff, hstands⟩, rfl⟩ := h
  have hmul := hstands.mulPower he k
  refine ⟨⟨hcoeff, hmul.apart, hmul.defined, rfl⟩, ?_⟩
  rw [exactTermValue, hmul.bag_eq, bagValue_add, bagValue_replicate, exactTermValue,
    GeneratorTerm.number, GeneratorTerm.number]
  ring

theorem HasExactTerm.number {t : GeneratorTerm} (h : HasExactTerm env t r) (c : ℚ) :
    HasExactTerm env ⟨mulNumbers t.coeff (.rat c), t.powers⟩ (r * c) := by
  obtain ⟨⟨hcoeff, hstands⟩, rfl⟩ := h
  have hnumber : mulNumbers t.coeff (.rat c) = .rat (t.number * c) := by
    rw [hcoeff]
    rfl
  rw [hnumber]
  refine ⟨⟨rfl, hstands⟩, ?_⟩
  rw [exactTermValue, exactTermValue]
  exact mul_right_comm _ _ _

/-- A factor taken into a term. -/
def takeFactor (t : GeneratorTerm) (f : Expr) : GeneratorTerm :=
  if f.isNumber then { t with coeff := mulNumbers t.coeff f }
  else
    let (b, n) := f.decomposePower
    if n < 0 then { t with powers := t.powers.mulPower (inv b) n.natAbs }
    else { t with powers := t.powers.mulPower b n.toNat }

/-- **A factor that is taken into a term** multiplies its value. -/
theorem HasExactTerm.take {t : GeneratorTerm} (h : HasExactTerm env t r) (hf : Defined env f)
    (hm : f.isMul = false) : HasExactTerm env (takeFactor t f) (r * value env f) := by
  rcases hf.factor_cases hm with ⟨c, rfl⟩ | ⟨b, n, hb, hbase, -, hreg, rfl⟩
  · rw [value_number]
    exact h.number c
  · rw [takeFactor, isNumber_powerForm hbase, if_neg Bool.false_ne_true,
      decomposePower_powerForm hbase, value_powerForm_zpow]
    dsimp only
    split
    · rename_i hneg
      have hb0 : value env b ≠ 0 := (regular_iff.1 hreg).resolve_left (by omega)
      have hinv := hb.denotes.reciprocal hb0
      have hzpow : value env b ^ n = value env (inv b) ^ n.natAbs := by
        rw [hinv.value_eq, inv_pow, ← zpow_natCast, ← zpow_neg]
        congr 1
        omega
      rw [hzpow]
      exact h.power hinv.defined n.natAbs
    · rename_i hneg
      have hzpow : value env b ^ n = value env b ^ n.toNat := by
        rw [← zpow_natCast]
        congr 1
        omega
      rw [hzpow]
      exact h.power hb n.toNat

/-- **A term taken apart** has the value of the term. -/
theorem hasExactTerm_generatorTerm (h : Defined env e) :
    HasExactTerm env (generatorTerm e) (value env e) := by
  have hfold : ∀ {fs : List Expr} {t : GeneratorTerm} {r : ℚ}, HasExactTerm env t r →
      Factors env fs →
        HasExactTerm env (fs.foldl takeFactor t) (r * (fs.map (value env)).prod) := by
    intro fs
    induction fs with
    | nil =>
      intro t r ht _
      rw [List.map_nil, List.prod_nil, mul_one]
      exact ht
    | cons f fs ih =>
      intro t r ht hfs
      obtain ⟨hf, hm⟩ := hfs f List.mem_cons_self
      rw [List.map_cons, List.prod_cons, ← mul_assoc]
      exact ih (ht.take hf hm) hfs.tail
  have hone : HasExactTerm env ⟨one, []⟩ 1 := ⟨⟨rfl, stands_nil⟩, mul_one 1⟩
  have hterm := hfold hone h.factors
  rw [one_mul, h.prod_factors] at hterm
  exact hterm

/-! ## Generators -/

theorem foldl_distinct (gs acc : List Expr) (h : acc.Nodup) :
    (gs.foldl (fun acc g => if acc.any (· == g) then acc else acc ++ [g]) acc).Nodup ∧
      ∀ g, g ∈ gs.foldl (fun acc g => if acc.any (· == g) then acc else acc ++ [g]) acc ↔
        g ∈ acc ∨ g ∈ gs := by
  induction gs generalizing acc with
  | nil => exact ⟨h, fun g => (or_iff_left List.not_mem_nil).symm⟩
  | cons g gs ih =>
    have hany : (acc.any (· == g)) = true ↔ g ∈ acc := by
      rw [List.any_beq', List.contains_iff_mem]
    rw [List.foldl_cons]
    by_cases hg : g ∈ acc
    · rw [if_pos (hany.2 hg)]
      obtain ⟨hnodup, hmem⟩ := ih acc h
      refine ⟨hnodup, fun c => (hmem c).trans ?_⟩
      rw [List.mem_cons]
      constructor
      · exact fun hc => hc.imp_right .inr
      · rintro (hc | rfl | hc)
        · exact .inl hc
        · exact .inl hg
        · exact .inr hc
    · rw [if_neg (hany.not.2 hg)]
      obtain ⟨hnodup, hmem⟩ := ih (acc ++ [g]) (List.nodup_append'.2
        ⟨h, List.nodup_singleton g, fun c hc hcg => hg (List.mem_singleton.1 hcg ▸ hc)⟩)
      refine ⟨hnodup, fun c => (hmem c).trans ?_⟩
      rw [List.mem_append, List.mem_singleton, List.mem_cons, or_assoc]

theorem nodup_generators (gts : List GeneratorTerm) : (generators gts).Nodup :=
  (List.mergeSort_perm _ _).nodup_iff.2 (foldl_distinct _ [] List.nodup_nil).1

theorem mem_generators {gts : List GeneratorTerm} {g : Expr} :
    g ∈ generators gts ↔ ∃ t ∈ gts, g ∈ t.powers.map (·.1) := by
  rw [generators, List.mem_mergeSort, (foldl_distinct _ [] List.nodup_nil).2, List.mem_flatMap]
  exact or_iff_right List.not_mem_nil

/-- The powers of all generators in a bag. -/
theorem prod_count {s : Multiset Expr} (hgens : gens.Nodup) (hs : ∀ b ∈ s, b ∈ gens) :
    (gens.map fun g => value env g ^ s.count g).prod = bagValue env s := by
  rw [← List.prod_toFinset _ hgens, bagValue, Finset.prod_multiset_map_count]
  refine (Finset.prod_subset (fun b hb => ?_) fun b _ hb => ?_).symm
  · exact List.mem_toFinset.2 (hs b (Multiset.mem_toFinset.1 hb))
  · rw [Multiset.count_eq_zero.2 fun hb' => hb (Multiset.mem_toFinset.2 hb'), pow_zero]

theorem powersValue_exponents {t : GeneratorTerm} (h : ExactTerm env t) (hgens : gens.Nodup)
    (ht : ∀ b ∈ t.powers.map (·.1), b ∈ gens) :
    Poly.powersValue (gens.map (value env)) (gens.map fun g => t.powers.exponent g) =
      bagValue env (bag t.powers) := by
  rw [Poly.powersValue, List.zip_map', List.map_map,
    ← prod_count hgens fun b hb => ht b (mem_keys_of_mem_bag hb)]
  refine congrArg List.prod (List.map_congr_left fun g _ => ?_)
  rw [Function.comp_apply, exponent_eq h.stands.apart]

/-! ## Polynomials -/

/-- **The polynomial of several terms** has the value of their sum. -/
theorem value_polyOf {gts : List (GeneratorTerm × ℤ)} (hn : gens.length = n) (hgens : gens.Nodup)
    (h : ∀ t ∈ gts, ExactTerm env t.1 ∧ ∀ b ∈ t.1.powers.map (·.1), b ∈ gens) :
    Poly.value (gens.map (value env)) (polyOf n gens gts) =
      (gts.map fun t => (t.2 : ℚ) * bagValue env (bag t.1.powers)).sum := by
  have hfold : ∀ p : Poly n, Poly.value (gens.map (value env)) (gts.foldl (fun p t => Poly.add p
      (Poly.monomial n (gens.map fun g => t.1.powers.exponent g) t.2)) p) =
      Poly.value (gens.map (value env)) p +
        (gts.map fun t => (t.2 : ℚ) * bagValue env (bag t.1.powers)).sum := by
    induction gts with
    | nil => exact fun p => (add_zero _).symm
    | cons t gts ih =>
      intro p
      obtain ⟨⟨ht, hmem⟩, hgts⟩ := List.forall_mem_cons.1 h
      rw [List.foldl_cons, ih hgts, Poly.value_add,
        Poly.value_monomial (by rw [List.length_map, hn]), powersValue_exponents ht hgens hmem, List.map_cons, List.sum_cons, add_assoc]
  rw [polyOf, hfold, Poly.value_zero, zero_add]

theorem denotes_wholePower (h : Defined env e) (k : ℕ) :
    Denotes env (wholePower e k) (value env e ^ k) := by
  rw [wholePower]
  split
  · rename_i hk
    rw [hk, pow_one]
    exact h.denotes
  · rw [← zpow_natCast]
    exact h.denotes.zpow (.inl (by omega))

/-- Powers with the exponent zero may be left out. -/
theorem prod_filter_exponents (gs : List (Expr × ℕ)) :
    ((gs.filter fun g => g.2 ≠ 0).map fun g => value env g.1 ^ g.2).prod =
      (gs.map fun g => value env g.1 ^ g.2).prod := by
  induction gs with
  | nil => rfl
  | cons g gs ih =>
    rw [List.filter_cons, List.map_cons, List.prod_cons, ← ih]
    split
    · rw [List.map_cons, List.prod_cons]
    · rename_i hg
      have h0 : g.2 = 0 := by
        by_contra hne
        exact hg (decide_eq_true hne)
      rw [h0, pow_zero, one_mul]

/-- **A polynomial written down** has its value. -/
theorem denotes_ofPoly (hn : gens.length = n) (hgens : ∀ g ∈ gens, Defined env g) (p : Poly n) :
    Denotes env (ofPoly gens p 1) (Poly.value (gens.map (value env)) p) := by
  rw [ofPoly]
  split
  · rename_i hzero
    rw [Poly.value_of_isZero hzero]
    exact denotes_zero
  · rw [Poly.value_monomials (by rw [List.length_map, hn])]
    refine denotes_sum_map fun m _ => ?_
    have hpowers : ∀ g ∈ (gens.zip m.1).filter (fun g => g.2 ≠ 0),
        Denotes env (wholePower g.1 g.2) (value env g.1 ^ g.2) := fun g hg =>
      denotes_wholePower (hgens g.1 (List.of_mem_zip (List.mem_of_mem_filter hg)).1) g.2
    have hproduct := denotes_product (List.forall_mem_cons.2
      ⟨.rat (mkRat m.2 1), List.forall_mem_map.2 fun g hg => (hpowers g hg).defined⟩)
    have hvalues : (((gens.zip m.1).filter fun g => g.2 ≠ 0).map
        (value env ∘ fun g => wholePower g.1 g.2)).prod =
        Poly.powersValue (gens.map (value env)) m.1 := by
      refine (congrArg List.prod (List.map_congr_left fun g hg => (hpowers g hg).value_eq)).trans ?_
      rw [prod_filter_exponents, Poly.powersValue, List.zip_map_left, List.map_map]
      rfl
    refine hproduct.of_eq ?_
    rw [List.map_cons, List.prod_cons, value_number, Rat.mkRat_one, List.map_map, hvalues]

/-! ## Numbers in front -/

theorem mapM_some {α β : Type} {l : List α} {f : α → Option β} {g : α → β}
    (h : ∀ a ∈ l, f a = some (g a)) : l.mapM f = some (l.map g) := by
  induction l with
  | nil => rfl
  | cons a l ih =>
    obtain ⟨ha, hl⟩ := List.forall_mem_cons.1 h
    rw [List.mapM_cons, ha, ih hl]
    rfl

/-- The least number that makes all rational numbers in front whole. -/
def commonDenom (gts : List GeneratorTerm) : ℕ :=
  (gts.map GeneratorTerm.number).foldl (fun l q => Nat.lcm l q.den) 1

theorem exactCoeffs?_eq {gts : List GeneratorTerm} (limit : ℕ) (h : ∀ t ∈ gts, ExactTerm env t) :
    exactCoeffs? limit gts = some (gts.map GeneratorTerm.number, commonDenom gts) := by
  rw [exactCoeffs?, mapM_some (g := GeneratorTerm.number) fun t ht => ?_]
  · rfl
  · rw [(h t ht).coeff]

theorem dvd_foldl_lcm (qs : List ℚ) (l : ℕ) :
    l ∣ qs.foldl (fun l q => Nat.lcm l q.den) l ∧
      ∀ q ∈ qs, q.den ∣ qs.foldl (fun l q => Nat.lcm l q.den) l := by
  induction qs generalizing l with
  | nil => exact ⟨dvd_rfl, fun q hq => absurd hq List.not_mem_nil⟩
  | cons q qs ih =>
    obtain ⟨hl, hqs⟩ := ih (Nat.lcm l q.den)
    exact ⟨(Nat.dvd_lcm_left _ _).trans hl,
      List.forall_mem_cons.2 ⟨(Nat.dvd_lcm_right _ _).trans hl, hqs⟩⟩

theorem commonDenom_ne_zero (gts : List GeneratorTerm) : (commonDenom gts : ℚ) ≠ 0 :=
  Nat.cast_ne_zero.2 (foldl_lcm_ne_zero one_ne_zero)

theorem num_mul_of_dvd {k : ℕ} (h : c.den ∣ k) : ((c * k).num : ℚ) = c * k := by
  obtain ⟨j, rfl⟩ := h
  have hwhole : c * (c.den * j : ℕ) = ((c.num * j : ℤ) : ℚ) := by
    rw [Nat.cast_mul, ← mul_assoc, Rat.mul_den_eq_num, Int.cast_mul, Int.cast_natCast]
  rw [hwhole, Rat.num_intCast]

/-! ## Quotients -/

/-- The terms of a sum with whole numbers in front. -/
def wholeTerms (gts : List GeneratorTerm) : List (GeneratorTerm × ℤ) :=
  gts.zip ((gts.map GeneratorTerm.number).map fun c => (c * (commonDenom gts : ℚ)).num)

theorem wholeTerms_eq (gts : List GeneratorTerm) :
    wholeTerms gts = gts.map fun t => (t, (t.number * (commonDenom gts : ℚ)).num) := by
  have hzip : (gts.map id).zip (gts.map fun t => (t.number * (commonDenom gts : ℚ)).num) =
      gts.map fun t => (t, (t.number * (commonDenom gts : ℚ)).num) := List.zip_map'
  rw [List.map_id] at hzip
  rw [wholeTerms, List.map_map]
  exact hzip

/-- The polynomial of a sum, times the number that makes all numbers in front whole. -/
theorem value_polyOf_terms {gts : List GeneratorTerm} (hp : Denotes env p u)
    (hgts : p.terms.map generatorTerm = gts) (hn : gens.length = n) (hgens : gens.Nodup)
    (hmem : ∀ t ∈ gts, ∀ b ∈ t.powers.map (·.1), b ∈ gens) :
    Poly.value (gens.map (value env)) (polyOf n gens (wholeTerms gts)) = commonDenom gts * u := by
  have hexact : ∀ t ∈ p.terms, HasExactTerm env (generatorTerm t) (value env t) := fun t ht =>
    hasExactTerm_generatorTerm (hp.defined.terms t ht)
  have hden : ∀ t ∈ gts, t.number.den ∣ commonDenom gts := fun t ht =>
    (dvd_foldl_lcm _ 1).2 _ (List.mem_map_of_mem ht)
  rw [wholeTerms_eq, value_polyOf hn hgens, List.map_map, ← hp.value_eq, ← hp.defined.sum_terms,
    ← List.sum_map_mul_left]
  · rw [← hgts, List.map_map]
    refine congrArg List.sum (List.map_congr_left fun t ht => ?_)
    rw [← (hexact t ht).value_eq, hgts]
    show ((_ * (commonDenom gts : ℚ)).num : ℚ) * _ = _
    rw [num_mul_of_dvd (hden _ (hgts ▸ List.mem_map_of_mem ht)), exactTermValue]
    ring
  · refine List.forall_mem_map.2 fun t ht => ⟨?_, hmem t ht⟩
    obtain ⟨e, he, rfl⟩ := List.mem_map.1 (hgts ▸ ht)
    exact (hexact e he).term

theorem termPrecision_eq_zero {gts : List GeneratorTerm} (h : ∀ t ∈ gts, ExactTerm env t) :
    termPrecision gts = 0 := by
  induction gts with
  | nil => rfl
  | cons t gts ih =>
    obtain ⟨ht, hgts⟩ := List.forall_mem_cons.1 h
    have hstep : max 0 t.coeff.precision = 0 := by
      rw [ht.coeff]
      rfl
    rw [termPrecision, List.foldl_cons, hstep]
    exact ih hgts

/-- **The quotient of two sums in lowest terms.** -/
theorem ratio_cancelTerms {pq : Expr × Expr} (hp : Denotes env p u) (hq : Denotes env q w)
    (hw : w ≠ 0) (h : cancelTerms? p q = some pq) : Ratio env pq (u / w) := by
  have hexact : ∀ {e v}, Denotes env e v → ∀ t ∈ e.terms.map generatorTerm, ExactTerm env t :=
    fun he => List.forall_mem_map.2 fun t ht =>
      (hasExactTerm_generatorTerm (he.defined.terms t ht)).term
  have hps := hexact hp
  have hqs := hexact hq
  rw [cancelTerms?, exactCoeffs?_eq _ hps, exactCoeffs?_eq _ hqs] at h
  dsimp only [Option.bind_eq_bind, Option.bind_some] at h
  generalize hP : p.terms.map generatorTerm = ps at h hps
  generalize hQ : q.terms.map generatorTerm = qs at h hqs
  have hall : ∀ t ∈ ps ++ qs, ExactTerm env t := fun t ht =>
    (List.mem_append.1 ht).elim (hps t) (hqs t)
  have hnodup := nodup_generators (ps ++ qs)
  have hmem : ∀ t ∈ ps ++ qs, ∀ b ∈ t.powers.map (·.1), b ∈ generators (ps ++ qs) :=
    fun t ht b hb => mem_generators.2 ⟨t, ht, hb⟩
  have hdefined : ∀ g ∈ generators (ps ++ qs), Defined env g := fun g hg => by
    obtain ⟨t, ht, hgt⟩ := mem_generators.1 hg
    exact (hall t ht).stands.defined g hgt
  split at h
  · cases h
  · rw [if_pos (termPrecision_eq_zero hall)] at h
    generalize generators (ps ++ qs) = gens at h hnodup hmem hdefined
    have hf := value_polyOf_terms hp hP (n := gens.length) rfl hnodup fun t ht =>
      hmem t (List.mem_append_left _ ht)
    have hg := value_polyOf_terms hq hQ (n := gens.length) rfl hnodup fun t ht =>
      hmem t (List.mem_append_right _ ht)
    obtain ⟨c, habove, hbelow⟩ := Poly.value_reduce
      (Poly.scale (commonDenom qs) (polyOf gens.length gens (wholeTerms ps)))
      (Poly.scale (commonDenom ps) (polyOf gens.length gens (wholeTerms qs)))
      (gens.map (value env))
    rw [Poly.value_scale, hf, Int.cast_natCast] at habove
    rw [Poly.value_scale, hg, Int.cast_natCast] at hbelow
    have hnumbers : (commonDenom ps : ℚ) * commonDenom qs ≠ 0 :=
      mul_ne_zero (commonDenom_ne_zero ps) (commonDenom_ne_zero qs)
    -- both numbers that make the numbers in front whole stand above and below the line
    rw [← mul_assoc, mul_comm (commonDenom qs : ℚ)] at habove
    rw [← mul_assoc] at hbelow
    have hne := mul_ne_zero hnumbers hw
    rw [hbelow] at hne
    rw [← Option.some.inj h]
    refine ratio_of_denotes (denotes_ofPoly rfl hdefined _) (denotes_ofPoly rfl hdefined _)
      (left_ne_zero_of_mul hne) ?_
    rw [← mul_div_mul_right _ _ (right_ne_zero_of_mul hne), ← mul_div_mul_left u w hnumbers, habove,
      hbelow]
    rfl

theorem keepsValue_cancelSettled : KeepsValue env fun e =>
    if e.isNumber || e.hasBranches then e
    else
      let f := factorTerms true e
      let (p, q) := numerDenom f
      let p := expand Expansion.all p
      let q := expand Expansion.all q
      if (p.terms ++ q.terms).all fun t => (generatorTerm t).powers.isEmpty then
        expand Expansion.all f
      else if p.has imaginary || q.has imaginary then f
      else
        match cancelTerms? p q with
        | some (p, q) => if q == one then p else p / q
        | none => f := by
  rintro e r he
  have hf := keepsValue_factorTerms true he
  have hratio := ratio_numerDenom hf.defined
  have hp := keepsValue_expand Expansion.all hratio.above.denotes
  have hq := keepsValue_expand Expansion.all hratio.below.denotes
  dsimp only
  split
  · exact he
  · split
    · exact keepsValue_expand Expansion.all hf
    · split
      · exact hf
      · split
        · rename_i p q hpq
          have hcancelled := (ratio_cancelTerms hp hq hratio.ne_zero hpq).of_eq
            (hratio.value_eq.trans hf.value_eq)
          split
          · rename_i hone
            rw [beq_iff_eq.1 hone] at hcancelled
            refine hcancelled.above.denotes.of_eq ?_
            rw [← hcancelled.value_eq, value_one, div_one]
          · exact hcancelled.denotes_div
        · exact hf

/-- **Cancelling keeps the value.** -/
theorem keepsValue_cancel : KeepsValue env cancel :=
  keepsValue_cancelSettled.comp keepsValue_settleSigns

end ErrorBars.Expr
