import Mathlib.Algebra.BigOperators.Ring.Multiset
import Mathlib.Data.Multiset.AddSub
import Mathlib.Data.Multiset.UnionInter
import ErrorBars.Proofs.Exact.Fraction

/-!
# Powers as bags of bases

A list of powers in which no base occurs twice stands for a bag that holds each base as often as
its exponent says.  Multiplying powers adds their bags, and common divisors, quotients and common
multiples are intersections, differences and unions.  What is cancelled is cancelled in the bags,
not in the values, so that nothing is divided by zero when a base that is cancelled has the value
zero (`bagValue_quotient`).
-/

set_option autoImplicit false

namespace ErrorBars.Expr

instance : DecidableEq Expr := instDecidableEqOfLawfulBEq

/-- The bases of some powers, each as often as its exponent says. -/
def bag (ps : Powers) : Multiset Expr := (ps.map fun p => Multiset.replicate p.2 p.1).sum

/-- No base occurs twice. -/
def Powers.Apart (ps : Powers) : Prop := (ps.map (·.1)).Nodup

section

variable {ps qs : Powers} {b c : Expr} {n : ℕ}

theorem bag_cons (p : Expr × ℕ) (ps : Powers) :
    bag (p :: ps) = Multiset.replicate p.2 p.1 + bag ps := rfl

theorem count_bag_cons (p : Expr × ℕ) (ps : Powers) (c : Expr) :
    (bag (p :: ps)).count c = (if c = p.1 then p.2 else 0) + (bag ps).count c := by
  rw [bag_cons, Multiset.count_add, Multiset.count_replicate]
  simp only [eq_comm]

theorem count_bag_eq_zero (h : c ∉ ps.map (·.1)) : (bag ps).count c = 0 := by
  induction ps with
  | nil => rfl
  | cons p ps ih =>
    rw [List.map_cons, List.mem_cons, not_or] at h
    rw [count_bag_cons, if_neg h.1, ih h.2]

theorem mem_keys_of_mem_bag (h : c ∈ bag ps) : c ∈ ps.map (·.1) := by
  by_contra hc
  exact (Multiset.count_ne_zero.2 h) (count_bag_eq_zero hc)

/-- The exponent of a base is how often it is in the bag. -/
theorem exponent_eq (h : ps.Apart) (b : Expr) : ps.exponent b = (bag ps).count b := by
  induction ps with
  | nil => rfl
  | cons p ps ih =>
    rw [Powers.Apart, List.map_cons, List.nodup_cons] at h
    have hih := ih h.2
    rw [Powers.exponent] at hih
    rw [count_bag_cons, Powers.exponent, List.find?_cons]
    by_cases hb : p.1 = b
    · rw [← hb, beq_self_eq_true, if_pos rfl, count_bag_eq_zero h.1]
      rfl
    · rw [beq_eq_false_iff_ne.2 hb, if_neg (Ne.symm hb), zero_add]
      exact hih

/-! ## Multiplying -/

theorem mulPower_cons (p : Expr × ℕ) (ps : Powers) (hn : n ≠ 0) :
    Powers.mulPower (p :: ps) b n =
      if p.1 == b then (p.1, p.2 + n) :: ps.map fun p => if p.1 == b then (p.1, p.2 + n) else p
      else p :: Powers.mulPower ps b n := by
  rw [Powers.mulPower, Powers.mulPower, if_neg hn, if_neg hn, List.any_cons, List.map_cons]
  by_cases hb : (p.1 == b) = true
  · rw [if_pos hb, hb, Bool.true_or, if_pos rfl, if_pos rfl]
  · rw [Bool.not_eq_true] at hb
    rw [hb, Bool.false_or, if_neg Bool.false_ne_true, if_neg Bool.false_ne_true]
    exact (apply_ite (List.cons p) _ _ _).symm

/-- **One more power** adds its base to the bag. -/
theorem bag_mulPower (h : ps.Apart) (b : Expr) (n : ℕ) :
    (ps.mulPower b n).Apart ∧ bag (ps.mulPower b n) = Multiset.replicate n b + bag ps ∧
      ∀ c ∈ (ps.mulPower b n).map (·.1), c = b ∨ c ∈ ps.map (·.1) := by
  by_cases hn : n = 0
  · rw [Powers.mulPower, if_pos hn, hn]
    exact ⟨h, (zero_add _).symm, fun c hc => .inr hc⟩
  induction ps with
  | nil =>
    rw [Powers.mulPower, if_neg hn]
    exact ⟨List.nodup_singleton b, rfl, fun c hc => .inl (List.mem_singleton.1 hc)⟩
  | cons p ps ih =>
    rw [Powers.Apart, List.map_cons, List.nodup_cons] at h
    rw [mulPower_cons p ps hn]
    split
    · rename_i hb
      rw [beq_iff_eq] at hb
      have hrest : (ps.map fun p => if p.1 == b then (p.1, p.2 + n) else p) = ps := by
        conv_rhs => rw [← List.map_id ps]
        refine List.map_congr_left fun q hq => if_neg fun heq => h.1 ?_
        rw [hb, ← beq_iff_eq.1 heq]
        exact List.mem_map_of_mem hq
      rw [hrest]
      refine ⟨List.nodup_cons.2 h, ?_, fun c hc => .inr hc⟩
      rw [bag_cons, bag_cons, ← hb, add_comm p.2 n, Multiset.replicate_add, add_assoc]
    · rename_i hb
      obtain ⟨hapart, hbag, hmem⟩ := ih h.2
      refine ⟨?_, ?_, ?_⟩
      · rw [Powers.Apart, List.map_cons, List.nodup_cons]
        refine ⟨fun hp => ?_, hapart⟩
        rcases hmem _ hp with heq | hp
        · exact hb (beq_iff_eq.2 heq)
        · exact h.1 hp
      · rw [bag_cons, hbag, bag_cons, add_left_comm]
      · intro c hc
        rw [List.map_cons, List.mem_cons] at hc ⊢
        exact hc.elim (fun h => .inr (.inl h)) fun h => (hmem c h).imp_right .inr

/-! ## Dividing -/

/-- Changing exponents one by one. -/
theorem bag_filterMap (h : ps.Apart) (g : Expr → ℕ → ℕ) (hg : ∀ c, g c 0 = 0) :
    Powers.Apart (ps.filterMap fun p =>
      if g p.1 p.2 = 0 then none else some (p.1, g p.1 p.2)) ∧
    (∀ c, (bag (ps.filterMap fun p =>
      if g p.1 p.2 = 0 then none else some (p.1, g p.1 p.2))).count c = g c ((bag ps).count c)) ∧
    ∀ c ∈ (ps.filterMap fun p =>
      if g p.1 p.2 = 0 then none else some (p.1, g p.1 p.2)).map (·.1), c ∈ ps.map (·.1) := by
  induction ps with
  | nil => exact ⟨List.nodup_nil, fun c => (hg c).symm, fun c hc => hc⟩
  | cons p ps ih =>
    rw [Powers.Apart, List.map_cons, List.nodup_cons] at h
    obtain ⟨hapart, hcount, hmem⟩ := ih h.2
    have hzero := count_bag_eq_zero h.1
    by_cases h0 : g p.1 p.2 = 0
    · rw [List.filterMap_cons_none (by rw [if_pos h0])]
      refine ⟨hapart, fun c => ?_, fun c hc => List.mem_cons_of_mem _ (hmem c hc)⟩
      rw [hcount, count_bag_cons]
      by_cases hc : c = p.1
      · rw [if_pos hc, hc, hzero, hg, add_zero, h0]
      · rw [if_neg hc, zero_add]
    · rw [List.filterMap_cons_some (by rw [if_neg h0])]
      refine ⟨List.nodup_cons.2 ⟨fun hp => h.1 (hmem _ hp), hapart⟩, fun c => ?_, fun c hc => ?_⟩
      · rw [count_bag_cons, count_bag_cons, hcount]
        by_cases hc : c = p.1
        · rw [if_pos hc, if_pos hc, hc, hzero, hg]
          rfl
        · rw [if_neg hc, if_neg hc, zero_add, zero_add]
      · rw [List.map_cons, List.mem_cons] at hc ⊢
        exact hc.imp_right (hmem c)

end

/-! ## Powers that stand for a bag -/

/-- Powers of defined bases that stand for a bag. -/
structure Stands (env : String → ℚ) (ps : Powers) (m : Multiset Expr) : Prop where
  /-- no base occurs twice -/
  apart : ps.Apart
  /-- the bases are defined -/
  defined : ∀ b ∈ ps.map (·.1), Defined env b
  /-- the bag -/
  bag_eq : bag ps = m

section

variable {env : String → ℚ} {ps qs : Powers} {s t : Multiset Expr} {b : Expr}

theorem stands_nil : Stands env [] 0 :=
  ⟨List.nodup_nil, fun _ hb => absurd hb List.not_mem_nil, rfl⟩

theorem Stands.mulPower (h : Stands env ps s) (hb : Defined env b) (n : ℕ) :
    Stands env (ps.mulPower b n) (Multiset.replicate n b + s) := by
  obtain ⟨hapart, hbag, hmem⟩ := bag_mulPower h.apart b n
  refine ⟨hapart, fun c hc => ?_, by rw [hbag, h.bag_eq]⟩
  rcases hmem c hc with rfl | hc
  · exact hb
  · exact h.defined c hc

/-- **A product** adds the bags. -/
theorem Stands.mul (h : Stands env ps s) (h' : Stands env qs t) :
    Stands env (ps.mul qs) (s + t) := by
  obtain ⟨-, hdefined, rfl⟩ := h'
  rw [Powers.mul]
  induction qs generalizing ps s with
  | nil => exact ⟨h.apart, h.defined, h.bag_eq.trans (add_zero s).symm⟩
  | cons q qs ih =>
    obtain ⟨hq, hqs⟩ := List.forall_mem_cons.1 hdefined
    have hrest := ih (h.mulPower hq q.2) hqs
    rwa [add_comm (Multiset.replicate _ _), add_assoc] at hrest

theorem Stands.without (h : Stands env ps s) (h' : Stands env qs t) :
    Stands env (ps.without qs) (s - t) := by
  obtain ⟨hapart, hcount, hmem⟩ :=
    bag_filterMap h.apart (fun b n => n - qs.exponent b) fun c => Nat.zero_sub _
  refine ⟨hapart, fun b hb => h.defined b (hmem b hb), Multiset.ext.2 fun c => ?_⟩
  rw [Multiset.count_sub, ← h'.bag_eq, ← exponent_eq h'.apart, ← h.bag_eq]
  exact hcount c

theorem Stands.gcd (h : Stands env ps s) (h' : Stands env qs t) :
    Stands env (ps.gcd qs) (s ∩ t) := by
  obtain ⟨hapart, hcount, hmem⟩ :=
    bag_filterMap h.apart (fun b n => min n (qs.exponent b)) fun c => Nat.zero_min _
  refine ⟨hapart, fun b hb => h.defined b (hmem b hb), Multiset.ext.2 fun c => ?_⟩
  rw [Multiset.count_inter, ← h'.bag_eq, ← exponent_eq h'.apart, ← h.bag_eq]
  exact hcount c

theorem Stands.lcm (h : Stands env ps s) (h' : Stands env qs t) :
    Stands env (ps.lcm qs) (s ∪ t) := by
  have hmul := h.mul (h'.without h)
  rw [add_comm, ← Multiset.union_def, Multiset.union_comm] at hmul
  exact hmul

end

/-! ## Values -/

/-- The product of the values of a bag of bases. -/
noncomputable def bagValue (env : String → ℚ) (m : Multiset Expr) : ℚ := (m.map (value env)).prod

section

variable {env : String → ℚ} {s t u w : Multiset Expr} {ps : Powers} {b : Expr}

theorem bagValue_add (env : String → ℚ) (s t : Multiset Expr) :
    bagValue env (s + t) = bagValue env s * bagValue env t := by
  rw [bagValue, Multiset.map_add, Multiset.prod_add, bagValue, bagValue]

theorem bagValue_bag (env : String → ℚ) (ps : Powers) :
    bagValue env (bag ps) = (ps.map fun p => value env p.1 ^ p.2).prod := by
  induction ps with
  | nil => rfl
  | cons p ps ih =>
    rw [bag_cons, bagValue_add, ih, List.map_cons, List.prod_cons, bagValue, Multiset.map_replicate,
      Multiset.prod_replicate]

/-- The base and the exponent of an expression. -/
theorem Defined.baseExp (h : Defined env b) : ∃ c k, b.baseExp = (c, int k) ∧ Defined env c ∧
    (0 ≤ k ∨ value env c ≠ 0) ∧ value env b = value env c ^ k := by
  have hself : b.baseExp = (b, one) → ∃ c k, b.baseExp = (c, int k) ∧ Defined env c ∧
      (0 ≤ k ∨ value env c ≠ 0) ∧ value env b = value env c ^ k := fun heq =>
    ⟨b, 1, by rw [heq, int, Int.cast_one, one], h, .inl (by decide), (zpow_one _).symm⟩
  cases h with
  | rat | symbol | add | mul => exact hself rfl
  | pow c k base kind ne_zero ne_one regular =>
    refine ⟨c, k, baseExp_rawPow kind _, base, regular_iff.1 regular, ?_⟩
    rw [value_pow, wholePow_rat]

/-- **The powers as a product** have the value of the bag. -/
theorem Stands.denotes (h : Stands env ps s) : Denotes env ps.toExpr (bagValue env s) := by
  rw [← h.bag_eq, bagValue_bag]
  refine denotes_product_map fun p hp => ?_
  have hb := h.defined p.1 (List.mem_map_of_mem hp)
  split
  · rename_i h1
    rw [h1, pow_one]
    exact hb.denotes
  · obtain ⟨c, k, hck, hc, hreg, hv⟩ := hb.baseExp
    rw [hck]
    dsimp only
    have hexp : keepCoeff (int p.2) (int k) = int (p.2 * k) := by
      rw [int, int, keepCoeff_rat, int, Int.cast_mul]
    rw [hexp, hv, ← zpow_natCast, ← zpow_mul, mul_comm k]
    exact hc.denotes.zpow (hreg.imp_left fun hk => Int.mul_nonneg (by omega) hk)

theorem bagValue_ne_zero (h : ∀ b ∈ s, value env b ≠ 0) : bagValue env s ≠ 0 := by
  refine Multiset.prod_ne_zero fun h0 => ?_
  obtain ⟨b, hb, hb0⟩ := Multiset.mem_map.1 h0
  exact h b hb hb0

theorem bagValue_sub (h : t ≤ s) : bagValue env (s - t) * bagValue env t = bagValue env s := by
  rw [← bagValue_add, Multiset.sub_add_cancel h]

/-- What occurs in both bags may be taken out of both. -/
theorem bagValue_sub_div (h : ∀ b ∈ w, value env b ≠ 0) :
    bagValue env (u - w) / bagValue env (w - u) = bagValue env u / bagValue env w := by
  have hinter : bagValue env (u ∩ w) ≠ 0 :=
    bagValue_ne_zero fun b hb => h b (Multiset.mem_inter.1 hb).2
  have hu : bagValue env (u - w) * bagValue env (u ∩ w) = bagValue env u := by
    rw [← bagValue_add, Multiset.sub_add_inter]
  have hw : bagValue env (w - u) * bagValue env (u ∩ w) = bagValue env w := by
    rw [← bagValue_add, Multiset.inter_comm, Multiset.sub_add_inter]
  rw [← hu, ← hw, mul_div_mul_right _ _ hinter]

/-- **A quotient by a part**: what is above and below the line is cancelled in the bags, so that
the part may be zero. -/
theorem bagValue_quotient (hs : t ≤ s) (hu : w ≤ u) (h : ∀ b ∈ u, value env b ≠ 0) :
    bagValue env t / bagValue env w *
      (bagValue env (s + w - (u + t)) / bagValue env (u + t - (s + w))) =
        bagValue env s / bagValue env u := by
  obtain ⟨s', rfl⟩ := Multiset.le_iff_exists_add.1 hs
  obtain ⟨u', rfl⟩ := Multiset.le_iff_exists_add.1 hu
  have habove : t + s' + w - (w + u' + t) = s' - u' := by
    refine Multiset.ext.2 fun b => ?_
    simp only [Multiset.count_sub, Multiset.count_add]
    omega
  have hbelow : w + u' + t - (t + s' + w) = u' - s' := by
    refine Multiset.ext.2 fun b => ?_
    simp only [Multiset.count_sub, Multiset.count_add]
    omega
  rw [habove, hbelow, bagValue_sub_div fun b hb => h b (Multiset.mem_add.2 (.inr hb)),
    bagValue_add, bagValue_add, div_mul_div_comm]

end

end ErrorBars.Expr
