import ErrorBars.Proofs.Exact.Powers

/-!
# Common factors keep values

A term that has been taken apart is a number, powers above the line and powers below it (`Term`).
The common factor of several terms is a part of each of them, so that each of them is the common
factor times what is left of it (`Term.quo`); where all numbers in front are zero, so is their
divisor, and nothing is lost.  Hence the sum of the terms is the common factor times the sum of
what is left (`extracted_gcdOfTerms`), over one denominator or not.

`factorTerms` puts common factors in front of all sums in an expression, and `together` brings all
sums over one denominator.
-/

set_option autoImplicit false

namespace ErrorBars.Expr

variable {env : String → ℚ} {e f b m : Expr} {es ts fs : List Expr} {c d q r v : ℚ} {n : ℤ}

/-! ## Terms -/

/-- A term taken apart: a number, a bag above the line and a bag below it that holds no zero. -/
structure Term (env : String → ℚ) (t : TermParts) (c : ℚ) (s u : Multiset Expr) : Prop where
  /-- the number in front -/
  coeff : t.coeff = .rat c
  /-- above the line -/
  above : Stands env t.above s
  /-- below the line -/
  below : Stands env t.below u
  /-- nothing below the line is zero -/
  ne_zero : ∀ b ∈ u, value env b ≠ 0

/-- The value of a term. -/
noncomputable def termValue (env : String → ℚ) (c : ℚ) (s u : Multiset Expr) : ℚ :=
  c * (bagValue env s / bagValue env u)

/-- A term that has a value. -/
def HasTerm (env : String → ℚ) (t : TermParts) (r : ℚ) : Prop :=
  ∃ c s u, Term env t c s u ∧ termValue env c s u = r

/-- The value of a term, read off its parts. -/
noncomputable def partsValue (env : String → ℚ) (t : TermParts) : ℚ :=
  value env t.coeff * (bagValue env (bag t.above) / bagValue env (bag t.below))

theorem Term.value_eq {t : TermParts} {s u : Multiset Expr} (h : Term env t c s u) :
    partsValue env t = termValue env c s u := by
  rw [partsValue, h.coeff, h.above.bag_eq, h.below.bag_eq, value_number, termValue]

theorem HasTerm.value_eq {t : TermParts} (h : HasTerm env t r) : partsValue env t = r := by
  obtain ⟨c, s, u, hterm, hv⟩ := h
  rw [hterm.value_eq, hv]

theorem bagValue_zero (env : String → ℚ) : bagValue env 0 = 1 := rfl

theorem bagValue_replicate (env : String → ℚ) (n : ℕ) (b : Expr) :
    bagValue env (Multiset.replicate n b) = value env b ^ n := by
  rw [bagValue, Multiset.map_replicate, Multiset.prod_replicate]

theorem term_number (c : ℚ) : Term env ⟨.rat c, [], []⟩ c 0 0 :=
  ⟨rfl, stands_nil, stands_nil, fun _ hb => absurd hb (Multiset.notMem_zero _)⟩

theorem termValue_number (c : ℚ) : termValue env c 0 0 = c := by
  rw [termValue, bagValue_zero, div_one, mul_one]

theorem primitive_ne_minusOne (ts : List Expr) : (primitive (.app .add ts)).2 ≠ minusOne := by
  have hadd : (primitive (.app .add ts)).2.isAdd = true := by
    rw [primitive]
    split
    · rfl
    · rfl
  intro heq
  rw [heq] at hadd
  cases hadd

/-- The base of a power made primitive. -/
theorem primitiveBase (hb : Defined env b) (hbase : b.isBase = true) :
    ∃ k p, (if b.isAdd then primitive b else (1, b)) = (k, p) ∧ k ≠ 0 ∧ Defined env p ∧
      k * value env p = value env b ∧ (p == minusOne) = false := by
  cases hb with
  | rat | mul | pow => cases hbase
  | symbol s => exact ⟨1, .symbol s, rfl, one_ne_zero, .symbol s, one_mul _, rfl⟩
  | add ts all sym =>
    have hadd := Defined.add ts all sym
    obtain ⟨hdefined, hv⟩ := splits_primitive hadd
    exact ⟨_, _, rfl, primitive_ne_zero hadd, hdefined, hv,
      beq_eq_false_iff_ne.2 (primitive_ne_minusOne ts)⟩

theorem value_powerForm_zpow (env : String → ℚ) (b : Expr) (n : ℤ) :
    value env (powerForm b n) = value env b ^ n :=
  (Canonical.value_powerForm env b n).trans (wholePow_rat _ n)

theorem decomposePower_powerForm (hbase : b.isBase = true) :
    (powerForm b n).decomposePower = (b, n) := by
  rw [decomposePower, baseExp_powerForm hbase]
  show (if (n : ℚ).den = 1 then (b, (n : ℚ).num) else _) = _
  rw [if_pos (Rat.den_intCast n), Rat.num_intCast]

/-- **A factor that is taken into a term** multiplies its value. -/
theorem HasTerm.take {t : TermParts} (h : HasTerm env t r) (hf : Defined env f)
    (hm : f.isMul = false) : HasTerm env (t.take f) (r * value env f) := by
  obtain ⟨c, s, u, ⟨hcoeff, habove, hbelow, hne⟩, rfl⟩ := h
  rcases hf.factor_cases hm with ⟨q, rfl⟩ | ⟨b, n, hb, hbase, hn, hreg, rfl⟩
  · have htake : t.take (.rat q) =
        if (Expr.rat q == minusOne) then { t with coeff := negNumber t.coeff }
        else { t with above := t.above.mulPower (.rat q) 1 } := rfl
    rw [htake, value_number]
    split
    · rename_i hq
      refine ⟨-c, s, u, ⟨by rw [hcoeff]; rfl, habove, hbelow, hne⟩, ?_⟩
      rw [Expr.rat.inj (beq_iff_eq.1 hq), termValue, termValue]
      ring
    · refine ⟨c, _, u, ⟨hcoeff, habove.mulPower (.rat q) 1, hbelow, hne⟩, ?_⟩
      rw [termValue, termValue, bagValue_add, bagValue_replicate, value_number]
      ring
  · obtain ⟨k, p, hkp, hk, hp, hv, hminus⟩ := primitiveBase hb hbase
    have hb0 : 0 ≤ n ∨ value env b ≠ 0 := regular_iff.1 hreg
    -- the number goes in front, the primitive part above or below the line
    have hnumber : ∃ d : ℚ, (if k = 1 then t.coeff
        else mulNumbers t.coeff (power (.rat k) (int n))) = .rat d ∧ d = c * k ^ n := by
      split
      · rename_i h1
        exact ⟨c, hcoeff, by rw [h1, one_zpow, mul_one]⟩
      · refine ⟨c * k ^ n, ?_, rfl⟩
        rw [hcoeff, power_rat (.inr hk)]
        rfl
    obtain ⟨d, hd, hdc⟩ := hnumber
    have htake : t.take (powerForm b n) =
        if 0 < n then ⟨.rat d, t.above.mulPower p n.toNat, t.below⟩
        else ⟨.rat d, t.above, t.below.mulPower p n.natAbs⟩ := by
      rw [TermParts.take, decomposePower_powerForm hbase]
      dsimp only
      rw [hkp]
      dsimp only
      rw [hminus, if_neg Bool.false_ne_true, hd]
    rw [htake, value_powerForm_zpow, ← hv, mul_zpow]
    split
    · rename_i hpos
      refine ⟨d, _, u, ⟨rfl, habove.mulPower hp n.toNat, hbelow, hne⟩, ?_⟩
      rw [termValue, termValue, bagValue_add, bagValue_replicate, hdc,
        ← zpow_natCast (value env p), Int.toNat_of_nonneg hpos.le]
      ring
    · rename_i hpos
      have hp0 : value env p ≠ 0 := right_ne_zero_of_mul (hv ▸ hb0.resolve_left (by omega))
      refine ⟨d, s, _, ⟨rfl, habove, hbelow.mulPower hp n.natAbs, ?_⟩, ?_⟩
      · intro x hx
        rcases Multiset.mem_add.1 hx with hx | hx
        · rw [Multiset.eq_of_mem_replicate hx]
          exact hp0
        · exact hne x hx
      · have hzpow : value env p ^ n = (value env p ^ n.natAbs)⁻¹ := by
          rw [← zpow_natCast, ← zpow_neg]
          congr 1
          omega
        rw [termValue, termValue, bagValue_add, bagValue_replicate, hdc, hzpow, mul_comm (_ ^ _),
          div_mul_eq_div_div]
        ring

theorem HasTerm.foldl_take {t : TermParts} (h : HasTerm env t r) (hfs : Factors env fs) :
    HasTerm env (fs.foldl TermParts.take t) (r * (fs.map (value env)).prod) := by
  induction fs generalizing t r with
  | nil =>
    rw [List.map_nil, List.prod_nil, mul_one]
    exact h
  | cons f fs ih =>
    obtain ⟨hf, hm⟩ := hfs f List.mem_cons_self
    rw [List.map_cons, List.prod_cons, ← mul_assoc]
    exact ih (h.take hf hm) hfs.tail

theorem hasHollowExponent_eq_false (h : Defined env e) :
    TermParts.hasHollowExponent e = false := by
  obtain ⟨c, k, hck, -⟩ := h.baseExp
  rw [TermParts.hasHollowExponent, hck]
  rfl

/-- **A term taken apart** has the value of the term. -/
theorem hasTerm_ofExpr (h : Defined env e) : HasTerm env (TermParts.ofExpr e) (value env e) := by
  obtain ⟨q, m, hqm, hm, hv, -⟩ := h.numberInFront
  have hnumber : HasTerm env ⟨.rat q, [], []⟩ q := ⟨q, 0, 0, term_number q, termValue_number q⟩
  rw [TermParts.ofExpr, hasHollowExponent_eq_false h, hqm, hv]
  dsimp only
  split
  · rename_i hfalse
    cases hfalse
  · split
    · rename_i h1
      rw [beq_iff_eq.1 h1, value_one, mul_one]
      exact hnumber
    · rw [← hm.prod_factors]
      exact hnumber.foldl_take hm.factors

/-! ## Common parts -/

theorem foldl_gcd_eq_zero {ns : List ℚ} {g : ℕ}
    (h : ns.foldl (fun (g : ℕ) q => Nat.gcd g q.num.natAbs) g = 0) : g = 0 ∧ ∀ q ∈ ns, q = 0 := by
  induction ns generalizing g with
  | nil => exact ⟨h, fun q hq => absurd hq List.not_mem_nil⟩
  | cons q ns ih =>
    obtain ⟨hg, hns⟩ := ih h
    obtain ⟨hg, hq⟩ := Nat.gcd_eq_zero_iff.1 hg
    refine ⟨hg, List.forall_mem_cons.2 ⟨?_, hns⟩⟩
    exact Rat.num_eq_zero.1 (Int.natAbs_eq_zero.1 hq)

theorem foldl_lcm_ne_zero {ns : List ℚ} {l : ℕ} (h : l ≠ 0) :
    ns.foldl (fun (l : ℕ) q => Nat.lcm l q.den) l ≠ 0 := by
  induction ns generalizing l with
  | nil => exact h
  | cons q ns ih => exact ih (Nat.lcm_ne_zero h q.den_ne_zero)

/-- The content is zero only where all numbers are. -/
theorem ratContent_eq_zero {ns : List ℚ} (h : ratContent ns = 0) : ∀ q ∈ ns, q = 0 := by
  refine (foldl_gcd_eq_zero (g := 0) ?_).2
  rw [ratContent, Rat.mkRat_eq_zero (foldl_lcm_ne_zero one_ne_zero)] at h
  exact_mod_cast h

/-- A term that is a part of another one: what is above and below the line is a part of what is
there, and the number is zero only where the other one is. -/
structure PartOf (c : ℚ) (s u : Multiset Expr) (c' : ℚ) (s' u' : Multiset Expr) : Prop where
  /-- the number -/
  coeff : c = 0 → c' = 0
  /-- above the line -/
  above : s ≤ s'
  /-- below the line -/
  below : u ≤ u'

theorem PartOf.trans {c c' c'' : ℚ} {s s' s'' u u' u'' : Multiset Expr} (h : PartOf c s u c' s' u')
    (h' : PartOf c' s' u' c'' s'' u'') : PartOf c s u c'' s'' u'' :=
  ⟨fun h0 => h'.coeff (h.coeff h0), h.above.trans h'.above, h.below.trans h'.below⟩

theorem PartOf.refl (c : ℚ) (s u : Multiset Expr) : PartOf c s u c s u := ⟨id, le_rfl, le_rfl⟩

/-- **The common divisor of two terms** is a part of both. -/
theorem Term.gcd {t t' : TermParts} {c c' : ℚ} {s s' u u' : Multiset Expr} (h : Term env t c s u)
    (h' : Term env t' c' s' u') : ∃ g, Term env (t.gcd t') g (s ∩ s') (u ∩ u') ∧
      PartOf g (s ∩ s') (u ∩ u') c s u ∧ PartOf g (s ∩ s') (u ∩ u') c' s' u' := by
  have hzero : ratContent [c, c'] = 0 → ∀ q ∈ [c, c'], q = 0 := ratContent_eq_zero
  refine ⟨ratContent [c, c'], ⟨?_, h.above.gcd h'.above, h.below.gcd h'.below, fun b hb =>
    h.ne_zero b (Multiset.mem_inter.1 hb).1⟩, ⟨fun h0 => hzero h0 c (by simp),
    Multiset.inter_le_left, Multiset.inter_le_left⟩, ⟨fun h0 => hzero h0 c' (by simp),
    Multiset.inter_le_right, Multiset.inter_le_right⟩⟩
  show TermParts.gcdCoeff t.coeff t'.coeff = _
  rw [h.coeff, h'.coeff]
  rfl

/-- **The common divisor of several terms** is a part of each of them. -/
theorem exists_common {t : TermParts} {ts : List TermParts} {c : ℚ} {s u : Multiset Expr}
    (h : Term env t c s u) (hts : ∀ t' ∈ ts, ∃ c' s' u', Term env t' c' s' u') :
    ∃ g s₀ u₀, Term env (ts.foldl TermParts.gcd t) g s₀ u₀ ∧ PartOf g s₀ u₀ c s u ∧
      ∀ t' ∈ ts, ∃ c' s' u', Term env t' c' s' u' ∧ PartOf g s₀ u₀ c' s' u' := by
  induction ts generalizing t c s u with
  | nil => exact ⟨c, s, u, h, .refl c s u, fun _ ht => absurd ht List.not_mem_nil⟩
  | cons t' ts ih =>
    obtain ⟨⟨c', s', u', h'⟩, hts⟩ := List.forall_mem_cons.1 hts
    obtain ⟨g, hg, hpart, hpart'⟩ := h.gcd h'
    obtain ⟨g₀, s₀, u₀, hterm, hpart₀, hall⟩ := ih hg hts
    exact ⟨g₀, s₀, u₀, hterm, hpart₀.trans hpart,
      List.forall_mem_cons.2 ⟨⟨c', s', u', h', hpart₀.trans hpart'⟩, hall⟩⟩

/-- **What is left of a term** when a part of it is taken out. -/
theorem Term.quo {t t' : TermParts} {c c' : ℚ} {s s' u u' : Multiset Expr} (h : Term env t c s u)
    (h' : Term env t' c' s' u') (hpart : PartOf c' s' u' c s u) :
    Term env (t.quo t') (c / c') (s + u' - (u + s')) (u + s' - (s + u')) ∧
      termValue env c' s' u' * termValue env (c / c') (s + u' - (u + s')) (u + s' - (s + u')) =
        termValue env c s u := by
  have habove := h.above.mul h'.below
  have hbelow := h.below.mul h'.above
  refine ⟨⟨?_, habove.without hbelow, hbelow.without habove, fun b hb => h.ne_zero b ?_⟩, ?_⟩
  · show divNumbers t.coeff t'.coeff = _
    rw [h.coeff, h'.coeff]
    rfl
  · have hle : u + s' - (s + u') ≤ u := by
      rw [Multiset.sub_le_iff_le_add, add_comm s u', ← add_assoc]
      exact add_le_add (Multiset.le_add_right u u') hpart.above
    exact Multiset.mem_of_le hle hb
  · have hquotient := bagValue_quotient hpart.above hpart.below h.ne_zero
    have hcoeff : c' * (c / c') = c := by
      by_cases h0 : c' = 0
      · rw [h0, zero_mul, hpart.coeff h0]
      · exact mul_div_cancel₀ c h0
    rw [termValue, termValue, termValue, mul_mul_mul_comm, hcoeff, hquotient]

/-! ## Sums of terms -/

theorem Term.denotes {t : TermParts} {s u : Multiset Expr} (h : Term env t c s u) :
    Denotes env t.toExpr (termValue env c s u) := by
  rw [TermParts.toExpr, h.coeff]
  exact (denotes_number c).mul
    (h.above.denotes.quotient h.below.denotes (bagValue_ne_zero h.ne_zero))

/-- The denominators of several terms have a common multiple that is not zero. -/
theorem exists_lcm {ts : List TermParts} {acc : Powers} {s : Multiset Expr}
    (h : ∀ t ∈ ts, ∃ c s u, Term env t c s u) (hacc : Stands env acc s)
    (hs : ∀ b ∈ s, value env b ≠ 0) :
    ∃ m, Stands env (ts.foldl (fun acc t => Powers.lcm acc t.below) acc) m ∧
      (∀ b ∈ m, value env b ≠ 0) ∧ s ≤ m ∧ ∀ t ∈ ts, bag t.below ≤ m := by
  induction ts generalizing acc s with
  | nil => exact ⟨s, hacc, hs, le_rfl, fun _ ht => absurd ht List.not_mem_nil⟩
  | cons t ts ih =>
    obtain ⟨⟨c, s', u, hterm⟩, hts⟩ := List.forall_mem_cons.1 h
    have hlcm := hacc.lcm hterm.below
    obtain ⟨m, hm, hne, hle, hall⟩ := ih hts hlcm fun b hb =>
      (Multiset.mem_union.1 hb).elim (hs b) (hterm.ne_zero b)
    refine ⟨m, hm, hne, Multiset.le_union_left.trans hle, List.forall_mem_cons.2 ⟨?_, hall⟩⟩
    rw [hterm.below.bag_eq]
    exact Multiset.le_union_right.trans hle

/-- **Everything over the least common multiple** of the denominators. -/
theorem ratio_common_denominator {ts : List TermParts} (h : ∀ t ∈ ts, ∃ c s u, Term env t c s u) :
    let below := ts.foldl (fun acc t => Powers.lcm acc t.below) []
    Ratio env (sum (ts.map fun t => t.coeff * (t.above.mul (below.without t.below)).toExpr),
      below.toExpr) (ts.map (partsValue env)).sum := by
  intro below
  obtain ⟨m, hm, hne, -, hall⟩ := exists_lcm h stands_nil fun b hb =>
    absurd hb (Multiset.notMem_zero b)
  have hterm : ∀ t ∈ ts, Denotes env
      (t.coeff * (t.above.mul (below.without t.below)).toExpr)
      (partsValue env t * bagValue env m) := by
    intro t ht
    obtain ⟨c, s, u, hterm⟩ := h t ht
    have hu := hall t ht
    rw [hterm.below.bag_eq] at hu
    rw [hterm.value_eq, hterm.coeff]
    refine ((denotes_number c).mul (hterm.above.mul (hm.without hterm.below)).denotes).of_eq ?_
    have hu0 := bagValue_ne_zero hterm.ne_zero
    rw [termValue, bagValue_add, ← bagValue_sub hu]
    field_simp
  have hm0 := bagValue_ne_zero hne
  refine ratio_of_denotes (denotes_sum_map hterm) hm.denotes hm0 ?_
  rw [List.sum_map_mul_right, mul_div_cancel_right₀ _ hm0]

/-- A factor in front of a sum over a denominator. -/
structure Extracted (env : String → ℚ) (p : Expr × Expr × Expr) (r : ℚ) : Prop where
  /-- the factor is defined -/
  front : Defined env p.1
  /-- the sum over the denominator -/
  ratio : Ratio env p.2 (value env p.2.1 / value env p.2.2)
  /-- the value -/
  value_eq : value env p.1 * (value env p.2.1 / value env p.2.2) = r

theorem extracted_of {u w : ℚ} {p : Expr × Expr} (he : Denotes env e u) (hp : Ratio env p w)
    (hr : u * w = r) : Extracted env (e, p) r :=
  ⟨he.defined, hp.self, by rw [he.value_eq, hp.value_eq, hr]⟩

theorem sum_filter_isZero (h : ∀ t ∈ ts, Defined env t) :
    ((ts.filter fun t => !t.isZero).map (value env)).sum = (ts.map (value env)).sum := by
  induction ts with
  | nil => rfl
  | cons t ts ih =>
    obtain ⟨ht, hts⟩ := List.forall_mem_cons.1 h
    rw [List.map_cons, List.sum_cons, ← ih hts]
    by_cases h0 : t.isZero = true
    · rw [List.filter_cons_of_neg (by simp [h0]), ht.denotes.eq_zero h0, zero_add]
    · rw [List.filter_cons_of_pos (by simp [h0]), List.map_cons, List.sum_cons]

/-- What is left of several terms when their common factor is taken out. -/
theorem exists_quotients {t : TermParts} {ts : List TermParts} (h : ∀ s ∈ t :: ts, HasTerm env s
    (partsValue env s)) : ∃ v, Denotes env (ts.foldl TermParts.gcd t).toExpr v ∧
      (∀ s ∈ (t :: ts).map fun s => s.quo (ts.foldl TermParts.gcd t), ∃ c a b, Term env s c a b) ∧
      v * (((t :: ts).map fun s => s.quo (ts.foldl TermParts.gcd t)).map (partsValue env)).sum =
        ((t :: ts).map (partsValue env)).sum := by
  obtain ⟨⟨c, s, u, ht, -⟩, hts⟩ := List.forall_mem_cons.1 h
  obtain ⟨g, s₀, u₀, hcommon, hpart, hall⟩ := exists_common ht fun t' ht' => by
    obtain ⟨c, s, u, hterm, -⟩ := hts t' ht'
    exact ⟨c, s, u, hterm⟩
  have hquo : ∀ t' ∈ t :: ts, (∃ c a b, Term env (t'.quo (ts.foldl TermParts.gcd t)) c a b) ∧
      termValue env g s₀ u₀ * partsValue env (t'.quo (ts.foldl TermParts.gcd t)) =
        partsValue env t' := by
    refine List.forall_mem_cons.2 ⟨?_, fun t' ht' => ?_⟩
    · obtain ⟨hq, hv⟩ := ht.quo hcommon hpart
      exact ⟨⟨_, _, _, hq⟩, by rw [hq.value_eq, hv, ht.value_eq]⟩
    · obtain ⟨c', s', u', ht', hpart'⟩ := hall t' ht'
      obtain ⟨hq, hv⟩ := ht'.quo hcommon hpart'
      exact ⟨⟨_, _, _, hq⟩, by rw [hq.value_eq, hv, ht'.value_eq]⟩
  refine ⟨_, hcommon.denotes, List.forall_mem_map.2 fun t' ht' => (hquo t' ht').1, ?_⟩
  rw [List.map_map, ← List.sum_map_mul_left]
  exact congrArg List.sum (List.map_congr_left fun t' ht' => (hquo t' ht').2)

/-- **The common factor of a sum** and what is left of it. -/
theorem extracted_gcdOfTerms (isPrimitive fraction : Bool) (h : ∀ t ∈ ts, Defined env t) :
    Extracted env (gcdOfTerms isPrimitive fraction ts) (ts.map (value env)).sum := by
  have hterms : ∀ t ∈ (ts.filter fun t => !t.isZero).map TermParts.ofExpr,
      HasTerm env t (partsValue env t) := List.forall_mem_map.2 fun t ht => by
    have hterm := hasTerm_ofExpr (h t (List.mem_of_mem_filter ht))
    rwa [hterm.value_eq]
  have hsum : (((ts.filter fun t => !t.isZero).map TermParts.ofExpr).map (partsValue env)).sum =
      (ts.map (value env)).sum := by
    rw [← sum_filter_isZero h, List.map_map]
    exact congrArg List.sum (List.map_congr_left fun t ht =>
      (hasTerm_ofExpr (h t (List.mem_of_mem_filter ht))).value_eq)
  rw [← hsum, gcdOfTerms]
  generalize (ts.filter fun t => !t.isZero).map TermParts.ofExpr = us at hterms
  split
  · exact extracted_of denotes_zero denotes_zero.ratio_one (zero_mul _)
  · rename_i t
    obtain ⟨c, s, u, ht, hv⟩ := hterms t (List.mem_singleton.2 rfl)
    rw [List.map_singleton, List.sum_singleton, ht.coeff]
    refine extracted_of (denotes_number c) (ratio_of_denotes ht.above.denotes ht.below.denotes
      (bagValue_ne_zero ht.ne_zero) rfl) ?_
    rw [ht.value_eq, termValue]
  · rename_i t rest _
    obtain ⟨v, hcommon, hquo, hv⟩ := exists_quotients hterms
    rw [← hv]
    dsimp only
    generalize (t :: rest).map (fun s => s.quo (rest.foldl TermParts.gcd t)) = left at hquo
    have hfinish : ∀ {numer denom : Expr},
        Ratio env (numer, denom) (left.map (partsValue env)).sum →
        Extracted env (if !isPrimitive && numer.isAdd then
          (.rat (primitive numer).1 * (rest.foldl TermParts.gcd t).toExpr,
            (primitive numer).2, denom)
          else ((rest.foldl TermParts.gcd t).toExpr, numer, denom))
          (v * (left.map (partsValue env)).sum) := by
      intro numer denom hratio
      split
      · obtain ⟨hprimitive, hsplit⟩ := splits_primitive hratio.above
        refine extracted_of ((denotes_number _).mul hcommon) (ratio_of_denotes hprimitive.denotes
          hratio.below.denotes hratio.ne_zero rfl) ?_
        rw [← hratio.value_eq, ← hsplit]
        ring
      · exact extracted_of hcommon hratio rfl
    cases fraction with
    | true => exact hfinish (ratio_common_denominator hquo)
    | false =>
      refine hfinish (Denotes.ratio_one (denotes_sum_map fun s hs => ?_))
      obtain ⟨c, a, b, hterm⟩ := hquo s hs
      exact hterm.denotes.of_eq hterm.value_eq.symm

/-- **A sum with its common factor in front has the same value.** -/
theorem denotes_gcdTerms (isPrimitive clear fraction : Bool) (h : ∀ t ∈ ts, Defined env t) :
    Denotes env (gcdTerms isPrimitive clear fraction ts) (ts.map (value env)).sum := by
  obtain ⟨hfront, hratio, hv⟩ := extracted_gcdOfTerms isPrimitive fraction h
  obtain ⟨q, m, hqm, hm, hvq, -⟩ := hfront.numberInFront
  rw [gcdTerms]
  generalize gcdOfTerms isPrimitive fraction ts = p at *
  obtain ⟨cont, numer, denom⟩ := p
  dsimp only at *
  rw [hqm, ← hv, hvq]
  -- the denominator of the number may go into the terms
  have hfinish : ∀ {c : ℚ} {e : Expr}, Splits env (c, e) (q * value env numer) → Denotes env
      (scale clear false (.rat c) (m * e / denom)) (q * value env m *
        (value env numer / value env denom)) := by
    rintro c e ⟨he, hce⟩
    refine (denotes_scale clear false
      ((hm.denotes.mul he.denotes).quotient hratio.below.denotes hratio.ne_zero)).of_eq ?_
    calc c * (value env m * value env e / value env denom)
        = c * value env e * value env m / value env denom := by ring
      _ = q * value env numer * value env m / value env denom := congrArg (· * _ / _) hce
      _ = q * value env m * (value env numer / value env denom) := by ring
  have hnumer : Splits env (q, numer) (q * value env numer) := ⟨hratio.above, rfl⟩
  split
  · rename_i p heq
    obtain rfl : q = p := Expr.rat.inj heq
    split
    · split
      · exact hfinish (splits_whole hratio.above.denotes q)
      · exact hfinish hnumer
    · exact hfinish hnumer
  · rename_i hne
    exact absurd rfl (hne q)

/-! ## Everywhere -/

theorem factorTermsTo_rat (clear fraction sign : Bool) (fuel : ℕ) (q : ℚ) :
    factorTermsTo clear fraction sign fuel (.rat q) = .rat q := by
  cases fuel with
  | zero => rfl
  | succ fuel => rfl

theorem denotes_rebuild_map {g : Expr → Expr} (hg : KeepsValue env g)
    (hrat : ∀ q, g (.rat q) = .rat q) {k : Head} (h : Defined env (.app k es)) :
    Denotes env (rebuild k (es.map g)) (value env (.app k es)) :=
  denotes_rebuild h (fun _ _ he => hg he.denotes) hrat

theorem denotes_sum_changed {g : Expr → Expr} (hg : KeepsValue env g)
    (h : ∀ t ∈ ts, Defined env t) :
    (∀ t ∈ ts.map g, Defined env t) ∧
      ((ts.map g).map (value env)).sum = (ts.map (value env)).sum := by
  refine ⟨List.forall_mem_map.2 fun t ht => (hg (h t ht).denotes).defined, ?_⟩
  rw [List.map_map]
  exact congrArg List.sum (List.map_congr_left fun t ht => (hg (h t ht).denotes).value_eq)

/-- A sum or a product is taken apart into its content and its primitive part. -/
theorem denotes_factoredContent (clear fraction sign : Bool) {g : Expr → Expr}
    (hg : KeepsValue env g) (hrat : ∀ q, g (.rat q) = .rat q) (h : Defined env e) :
    Denotes env
      (match contentPrimitive clear e with
      | (cont, p) => match p with
        | .app .add ts =>
          let parts := ts.map g
          let flip := parts.all hasNegativeCoeff
          let cont := if flip then -cont else cont
          let parts := if flip then parts.map fun t => -t else parts
          scale clear sign (.rat cont) (gcdTerms true clear fraction parts)
        | .app h as => scale clear sign (.rat cont) (rebuild h (as.map g))
        | p => scale clear sign (.rat cont) p) (value env e) := by
  obtain ⟨hp, hv⟩ := splits_contentPrimitive clear h
  generalize contentPrimitive clear e = p at hp hv
  obtain ⟨c, p⟩ := p
  rw [← hv]
  dsimp only at hp ⊢
  split
  · rename_i ts
    obtain ⟨hparts, hsum⟩ := denotes_sum_changed hg hp.add_mem.1
    generalize ts.map (g) = parts at hparts hsum
    rw [value_add, ← hsum]
    split
    · -- a common minus goes in front
      have hneg : ((parts.map fun t => -t).map (value env)).sum =
          -1 * (parts.map (value env)).sum := by
        rw [List.map_map, ← List.sum_map_mul_left]
        exact congrArg List.sum (List.map_congr_left fun t ht =>
          (hparts t ht).denotes.neg.value_eq.trans (neg_one_mul _).symm)
      refine (denotes_scale clear sign (denotes_gcdTerms true clear fraction
        (List.forall_mem_map.2 fun t ht => (hparts t ht).denotes.neg.defined))).of_eq ?_
      rw [hneg]
      ring
    · exact denotes_scale clear sign (denotes_gcdTerms true clear fraction hparts)
  · exact denotes_scale clear sign (denotes_rebuild_map hg hrat hp)
  · exact denotes_scale clear sign hp.denotes

/-- **Putting common factors in front keeps the value.** -/
theorem keepsValue_factorTermsTo (clear fraction sign : Bool) (fuel : ℕ) :
    KeepsValue env (factorTermsTo clear fraction sign fuel) := by
  induction fuel with
  | zero => exact keepsValue_id
  | succ fuel ih =>
    have hrat := factorTermsTo_rat clear fraction sign fuel
    rintro e r ⟨h, rfl⟩
    cases h with
    | rat q => exact (Defined.rat q).denotes
    | symbol s => exact (Defined.symbol s).denotes
    | add ts all sym => exact denotes_factoredContent clear fraction sign ih hrat (.add ts all sym)
    | mul fs all flat sym => exact denotes_factoredContent clear fraction sign ih hrat (.mul fs all flat sym)
    | pow b n base kind ne_zero ne_one regular =>
      have hpower := Defined.pow b n base kind ne_zero ne_one regular
      rw [factorTermsTo]
      · split
        · exact hpower.denotes
        · exact denotes_rebuild_map ih hrat hpower
      all_goals
        intros
        contradiction

theorem keepsValue_factorTerms (sign : Bool) : KeepsValue env (factorTerms sign) :=
  fun e _ h => keepsValue_factorTermsTo false false sign e.size h

theorem foldUpAll_eq (leaf : Expr → Expr) (node : Head → List Expr → Expr) (es : List Expr) :
    foldUpAll leaf node es = es.map (foldUp leaf node) := by
  induction es with
  | nil => rfl
  | cons e es ih => rw [foldUpAll, ih, List.map_cons]

/-- **Bringing sums over one denominator keeps the value.** -/
theorem keepsValue_together : KeepsValue env together := by
  have hall : ∀ {e}, Defined env e → Denotes env (together e) (value env e) := by
    intro e h
    rw [together]
    induction h with
    | rat q => exact (Defined.rat q).denotes
    | symbol s => exact (Defined.symbol s).denotes
    | add ts all sym ih =>
      rw [foldUp, foldUpAll_eq, value_add]
      refine (denotes_gcdTerms false true true (List.forall_mem_map.2 fun t ht =>
        (ih t ht).defined)).of_eq ?_
      rw [List.map_map]
      exact congrArg List.sum (List.map_congr_left fun t ht => (ih t ht).value_eq)
    | mul fs all flat sym ih =>
      rw [foldUp, foldUpAll_eq]
      exact denotes_rebuild (k := .mul) (.mul fs all flat sym) (fun f hf _ => ih f hf) fun _ => rfl
    | pow b n base kind ne_zero ne_one regular ih =>
      rw [foldUp, foldUpAll_eq]
      refine denotes_rebuild (k := .pow) (.pow b n base kind ne_zero ne_one regular)
        (fun e he _ => ?_) fun _ => rfl
      rcases List.mem_cons.1 he with rfl | he
      · exact ih
      · rw [List.mem_singleton.1 he]
        exact (Defined.rat (n : ℚ)).denotes
  rintro e r ⟨h, rfl⟩
  exact hall h

end ErrorBars.Expr
