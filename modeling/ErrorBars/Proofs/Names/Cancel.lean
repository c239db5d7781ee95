import ErrorBars.Expr.Remainder
import ErrorBars.Expr.Simplify.Factor
import ErrorBars.Proofs.Names.Joined

/-!
# Cancelled and factored expressions are over the same variables

A sum is read as a polynomial in generators, and polynomials are written with the generators they
were read in.  What happens to a polynomial between the two does not matter here.

A remainder is simplified in the same way before it is left standing: common divisors go in front of
it, terms are reduced one by one, and numbers and a common minus are taken out.  None of this makes
up a variable, which is `over_remainder`.
-/

set_option autoImplicit false

namespace ErrorBars.Expr

variable {S : String → Prop} {e : Expr}

/-! ## Polynomials in generators -/

theorem over_generatorTerm (he : Over S e) : FirstsOver S (generatorTerm e).powers := by
  unfold generatorTerm
  refine List.foldlRecOn (motive := fun (t : GeneratorTerm) => FirstsOver S t.powers) _ _
    firstsOver_nil fun t ht f hf => ?_
  have hb := over_decomposePower (overAll_factors he f hf)
  simp only
  split
  · exact ht
  · split
    · exact Powers.over_mulPower ht (over_inv hb)
    · exact Powers.over_mulPower ht hb

theorem over_generators {ts : List GeneratorTerm} (hts : ∀ t ∈ ts, FirstsOver S t.powers) :
    OverAll S (generators ts) := by
  have hall : OverAll S (ts.flatMap fun t => t.powers.map (·.1)) :=
    overAll_flatMap fun t ht => overAll_map fun p hp => hts t ht p hp
  have hdistinct : OverAll S ((ts.flatMap fun t => t.powers.map (·.1)).foldl
      (fun acc g => if acc.any (· == g) then acc else acc ++ [g]) []) :=
    List.foldlRecOn _ _ overAll_nil fun acc hacc g hg => by
      split
      · exact hacc
      · exact overAll_append.2 ⟨hacc, by simp [hall g hg]⟩
  exact overAll_of_subset (fun _ hx => (List.mergeSort_perm _ _).mem_iff.1 hx) hdistinct

/-- The generators of the terms of an expression. -/
theorem over_generatorTerms (he : Over S e) :
    ∀ t ∈ e.terms.map generatorTerm, FirstsOver S t.powers :=
  List.forall_mem_map.2 fun t ht => over_generatorTerm (overAll_terms he t ht)

@[grind ←] theorem over_ofPoly {n divisor : Nat} {gens : List Expr} {p : Poly n}
    (hgens : OverAll S gens) : Over S (ofPoly gens p divisor) := by
  unfold ofPoly
  split
  · exact over_zero
  · refine over_sum (overAll_map fun m _ => over_product (overAll_cons.2
      ⟨over_rat _, overAll_map fun g hg => ?_⟩))
    have hbase : Over S g.1 := hgens g.1 (List.of_mem_zip (List.mem_filter.1 hg).1).1
    unfold wholePower
    split
    · exact hbase
    · exact over_power hbase (over_int _)

@[grind ←] theorem over_approximate {bits : Nat} (he : Over S e) : Over S (approximate bits e) := by
  refine over_sum (overAll_map fun t ht => ?_)
  have ht := overAll_terms he t ht
  have hparts := over_coeffMul ht
  simp only
  split
  · exact over_mul (over_mulNumbers _ _) hparts.2
  · exact ht

/-! ## Quotients in lowest terms -/

theorem over_cancelTerms {p q : Expr} {r : Expr × Expr} (h : cancelTerms? p q = some r)
    (hp : Over S p) (hq : Over S q) : Over S r.1 ∧ Over S r.2 := by
  have hgens : OverAll S (generators (p.terms.map generatorTerm ++ q.terms.map generatorTerm)) :=
    over_generators fun t ht => (List.mem_append.1 ht).elim
      (over_generatorTerms hp t) (over_generatorTerms hq t)
  unfold cancelTerms? at h
  simp only [Option.bind_eq_bind, Option.bind_eq_some_iff] at h
  obtain ⟨⟨cs, l⟩, -, ⟨ds, m⟩, -, h⟩ := h
  generalize generators (p.terms.map generatorTerm ++ q.terms.map generatorTerm) = gens at h hgens
  simp only at h
  split at h
  · exact absurd h (by simp)
  · split at h <;> obtain rfl := Option.some.inj h
    · exact ⟨over_ofPoly hgens, over_ofPoly hgens⟩
    · exact ⟨over_approximate (over_ofPoly hgens), over_approximate (over_ofPoly hgens)⟩

@[grind ←] theorem over_cancel (he : Over S e) : Over S (cancel e) := by
  have hsigned := over_settleSigns he
  have hfactored : Over S (factorTerms true (settleSigns e)) := over_factorTerms hsigned
  have hparts := over_numerDenom hfactored
  unfold cancel
  simp only
  split
  · exact hsigned
  · split
    · exact over_expand hfactored
    · split
      · exact hfactored
      · split
        · rename_i heq
          have hlowest := over_cancelTerms heq (over_expand hparts.1) (over_expand hparts.2)
          split
          · exact hlowest.1
          · exact over_div hlowest.1 hlowest.2
        · exact hfactored

/-! ## Factors -/

/-- A factored expression is over these variables. -/
structure Factored.Over (S : String → Prop) (f : Factored) : Prop where
  /-- the number -/
  coeff : Expr.Over S f.coeff
  /-- the bases -/
  powers : FirstsOver S f.powers

theorem over_factorPoly {divisor bits : Nat} {gens : List Expr} (hgens : OverAll S gens) :
    ∀ {n : Nat} {p : Poly n}, (factorPoly gens p divisor bits).Over S
  | 0, _ => by
    unfold factorPoly
    exact ⟨over_rat _, firstsOver_nil⟩
  | n + 1, p => by
    unfold factorPoly
    simp only
    split
    · exact ⟨over_rat _, firstsOver_map fun f _ => over_ofPoly hgens⟩
    · refine ⟨?_, firstsOver_map fun f _ => over_approximate (over_ofPoly hgens)⟩
      simp only [over_mulNumbers]

theorem over_factorComplex {n divisor : Nat} {gens : List Expr} {re im : Poly n}
    (hgens : OverAll S gens) : (factorComplex gens re im divisor).Over S := by
  have hreal : (factorPoly gens (Poly.gcd re im) divisor 0).Over S := over_factorPoly hgens
  unfold factorComplex
  extract_lets common re' im' real first a b norm re'' im'' content rest unit
  split
  · exact hreal
  · refine ⟨over_mul hreal.coeff (over_add (over_rat _) (over_mul over_imaginary (over_rat _))),
      firstsOver_append.2 ⟨hreal.powers, firstsOver_cons.2 ⟨?_, firstsOver_nil⟩⟩⟩
    exact over_add (over_ofPoly hgens) (over_mul over_imaginary (over_ofPoly hgens))

theorem over_factorSum {f : Factored} (h : factorSum? e = some f) (he : Over S e) : f.Over S := by
  have hall : OverAll S (generators (e.terms.map generatorTerm)) :=
    over_generators (over_generatorTerms he)
  have hgens : OverAll S ((generators (e.terms.map generatorTerm)).filter
      fun g => !(g == imaginary)) := overAll_filter hall
  have hwhole : Factored.Over S ⟨one, [(e, 1)]⟩ :=
    ⟨over_one, firstsOver_cons.2 ⟨he, firstsOver_nil⟩⟩
  unfold factorSum? at h
  simp only at h
  split at h
  · exact absurd h (by simp)
  · split at h
    · exact Option.some.inj h ▸ hwhole
    · split at h
      · exact Option.some.inj h ▸ hwhole
      · split at h
        · exact Option.some.inj h ▸ over_factorPoly hgens
        · exact Option.some.inj h ▸ over_factorComplex hgens

theorem over_splitFactor (he : Over S e) :
    Over S (splitFactor e).1 ∧ PairsOver S (splitFactor e).2 := by
  unfold splitFactor
  split
  · exact ⟨he, pairsOver_nil⟩
  · simp -zeta only
    split
    -- a power has its own base and exponent, anything else is a base with the exponent one
    case' h_1 b x =>
      have hparts := over_app.1 he
      simp only [overAll_cons] at hparts
      have hb := hparts.1
      have hx := hparts.2.1
    case' h_2 =>
      have hb := he
      have hx : Over S one := over_one
    all_goals
      have hexpanded := @over_expand S _ Expansion.all hb
      simp -zeta only
      split
      · split
        · exact ⟨he, pairsOver_nil⟩
        · exact ⟨over_one, by simp [hb, hx]⟩
      · extract_lets y
        split
        · exact ⟨over_one, by simp [y, hexpanded, hx]⟩
        · rename_i c ps heq
          obtain ⟨hc, hps⟩ := over_factorSum heq hexpanded
          extract_lets powers isNumeric positive other
          have hpowers : PairsOver S powers :=
            pairsOver_map fun p hp => ⟨hps p hp, over_int _⟩
          have hpositive : PairsOver S positive := by
            refine pairsOver_append.2 ⟨?_, pairsOver_map fun p hp => ?_⟩
            · split <;> simp [hc, hx]
            · have hp := hpowers p (List.mem_filter.1 hp).1
              exact ⟨hp.1, over_mul hp.2 hx⟩
          have hother : PairsOver S other := by
            refine pairsOver_append.2 ⟨fun p hp => hpowers p (List.mem_filter.1 hp).1, ?_⟩
            split <;> simp [hc]
          split
          · exact ⟨over_power hc hx, pairsOver_map fun p hp =>
              ⟨(hpowers p hp).1, over_mul (hpowers p hp).2 hx⟩⟩
          · have hproduct : Over S (product (other.map fun p => power p.1 p.2)) :=
              over_product (overAll_map fun p hp => over_power (hother p hp).1 (hother p hp).2)
            exact ⟨over_one, pairsOver_append.2 ⟨hpositive, by simp [hproduct, hx]⟩⟩

@[grind ←] theorem over_factor (he : Over S e) : Over S (factor e) := by
  have hparts : ∀ p ∈ (shallowTogether e).factors.map splitFactor,
      Over S p.1 ∧ PairsOver S p.2 := List.forall_mem_map.2 fun f hf =>
    over_splitFactor (overAll_factors (over_shallowTogether he) f hf)
  unfold factor
  extract_lets parts coeff rest
  have hcoeff : Over S coeff := over_product (overAll_map fun p hp => (hparts p hp).1)
  have hrest : Over S rest := over_product (overAll_flatMap fun p hp => overAll_map fun q hq =>
    over_power ((hparts p hp).2 q hq).1 ((hparts p hp).2 q hq).2)
  split
  · exact over_keepCoeff hcoeff hrest
  · exact over_mul hcoeff hrest

/-! ## Remainders -/

variable {p q : Expr}

theorem over_commonDivisor (hp : Over S p) (hq : Over S q) : Over S (commonDivisor p q) := by
  have hgens : OverAll S (generators ((expand Expansion.all p).terms.map generatorTerm ++
      (expand Expansion.all q).terms.map generatorTerm)) :=
    over_generators fun t ht => (List.mem_append.1 ht).elim
      (over_generatorTerms (over_expand hp) t) (over_generatorTerms (over_expand hq) t)
  unfold commonDivisor
  simp only
  split
  · split
    · exact over_approximate (over_ofPoly hgens)
    · split <;> exact over_ofPoly hgens
  · exact over_one

theorem over_factored (he : Over S e) : Over S (factored e) := by
  have hinner : ∀ f, Over S f →
      Over S (if f.isAdd then gcdTerms false false false f.terms else f) := by
    intro f hf
    split
    · exact over_gcdTerms (overAll_terms hf)
    · exact hf
  have hparts := over_coeffMul he
  unfold factored
  simp only
  split
  · refine over_keepCoeff hparts.1 (over_product (overAll_map fun f hf => hinner f ?_))
    exact overAll_factors hparts.2 f hf
  · exact hinner e he

theorem over_withoutNumbers {front : Expr} (hfront : Over S front) (hp : Over S p)
    (hq : Over S q) : Over S (withoutNumbers front p q).1 ∧
      Over S (withoutNumbers front p q).2.1 ∧ Over S (withoutNumbers front p q).2.2 := by
  have hp' := over_coeffMul hp
  have hq' := over_coeffMul hq
  unfold withoutNumbers
  simp only
  split
  · split
    · split
      · exact ⟨over_mul hfront hq'.1, over_mul hp'.2 (over_int _), hq'.2⟩
      · exact ⟨hfront, hp, hq⟩
    · exact ⟨hfront, over_mul hp'.1 hp'.2, over_mul hq'.1 hq'.2⟩
  · exact ⟨hfront, hp, hq⟩

/-- **A remainder holds variables of its operands only**, however deep it is simplified. -/
theorem over_remainderTo {fuel : Nat} (hp : Over S p) (hq : Over S q) :
    Over S (remainderTo fuel p q) := by
  have hraw : ∀ {p q}, Over S p → Over S q → Over S (rawFn .modulo [p, q]) := fun hp hq =>
    over_rawFn.2 (overAll_cons.2 ⟨hp, overAll_cons.2 ⟨hq, overAll_nil⟩⟩)
  induction fuel generalizing p q with
  | zero => exact hraw hp hq
  | succ fuel ih =>
    unfold remainderTo
    split
    · rename_i v hv
      exact Canonical.over_modulo hv Arith.preserves_standard hp hq
    · have hfront := over_commonDivisor hp hq
      generalize commonDivisor p q = front at hfront
      simp only
      -- the operands without the common divisor
      generalize hlowest : (if (front == one || isApproximateOne front) = true then (p, q)
        else _) = lowest
      have hpq : Over S lowest.1 ∧ Over S lowest.2 := by
        rw [← hlowest]
        split
        · exact ⟨hp, hq⟩
        · exact ⟨over_factored (over_div hp hfront), over_factored (over_div hq hfront)⟩
      obtain ⟨hp, hq⟩ := hpq
      -- with the terms reduced one by one, or without numbers
      generalize hreduced : (if lowest.1.isAdd = true then (front, _) else _) = reduced
      have hparts : Over S reduced.1 ∧ Over S reduced.2.1 ∧ Over S reduced.2.2 := by
        rw [← hreduced]
        split
        · refine ⟨hfront, ?_, hq⟩
          split
          · exact hp
          · refine over_sum (overAll_map fun t ht => ?_)
            have ht := overAll_terms hp t ht
            split
            · exact ht
            · exact ih ht hq
        · exact over_withoutNumbers hfront hp hq
      obtain ⟨hfront, hp, hq⟩ := hparts
      -- without a common minus
      generalize hsigned : (if (reduced.2.1.leadsWithMinus && reduced.2.2.leadsWithMinus) = true
        then _ else (reduced.1, _)) = signed
      have hparts : Over S signed.1 ∧ Over S signed.2.1 ∧ Over S signed.2.2 := by
        rw [← hsigned]
        split
        · exact ⟨over_neg hfront, over_neg hp, over_neg hq⟩
        · exact ⟨hfront, hp, hq⟩
      obtain ⟨hfront, hp, hq⟩ := hparts
      split
      · rename_i v hv
        exact over_mul (Canonical.over_modNumbers hv Arith.preserves_standard hp hq) hfront
      · split
        · exact hraw (over_mul hp hfront) hq
        · refine over_mul hfront ?_
          split
          · exact hraw hp hq
          · exact ih hp hq

theorem over_remainder (hp : Over S p) (hq : Over S q) : Over S (remainder p q) :=
  over_remainderTo hp hq

end ErrorBars.Expr
