import Mathlib.Algebra.Order.Ring.Cast
import Mathlib.Algebra.Order.Ring.Rat
import Mathlib.Tactic.FieldSimp
import ErrorBars.Proofs.Exact.Content

/-!
# Numerators and denominators keep values

A numerator and a denominator stand for their quotient, the denominator not being zero (`Ratio`).
A sum is brought over one denominator by grouping its terms by their denominators: the groups hold
the terms and nothing else, in some order (`Grouped.add`), so that the sum of the groups is the
sum of the terms.
-/

set_option autoImplicit false

namespace ErrorBars.Expr

/-! ## Grouping by a key -/

/-- What has been grouped, each part with its key. -/
def ungrouped (gs : ByBase) : List (Expr × Expr) := gs.flatMap fun g => g.2.map fun e => (g.1, e)

theorem ungrouped_cons (g : Expr × List Expr) (gs : ByBase) :
    ungrouped (g :: gs) = (g.2.map fun e => (g.1, e)) ++ ungrouped gs := rfl

theorem add_cons (g : Expr × List Expr) (gs : ByBase) (k e : Expr) :
    ByBase.add (g :: gs) k e =
      if g.1 == k then
        (g.1, g.2 ++ [e]) :: gs.map fun p => if p.1 == k then (p.1, p.2 ++ [e]) else p
      else g :: ByBase.add gs k e := by
  rw [ByBase.add, ByBase.add, List.any_cons, List.map_cons]
  by_cases hg : (g.1 == k) = true
  · rw [if_pos hg, hg, Bool.true_or, if_pos rfl, if_pos rfl]
  · rw [Bool.not_eq_true] at hg
    rw [hg, Bool.false_or, if_neg Bool.false_ne_true, if_neg Bool.false_ne_true]
    exact (apply_ite (List.cons g) _ _ _).symm

theorem map_update_eq {gs : ByBase} {k : Expr} (h : k ∉ gs.map (·.1))
    (f : Expr × List Expr → Expr × List Expr) :
    (gs.map fun p => if p.1 == k then f p else p) = gs := by
  conv_rhs => rw [← List.map_id gs]
  refine List.map_congr_left fun p hp => if_neg fun heq => h ?_
  exact List.mem_map.2 ⟨p, hp, beq_iff_eq.1 heq⟩

/-- Groups of parts: each key occurs once, with some part, and the parts are those given. -/
structure Grouped (gs : ByBase) (ps : List (Expr × Expr)) : Prop where
  /-- each key occurs once -/
  nodup : (gs.map (·.1)).Nodup
  /-- no group is empty -/
  nonempty : ∀ g ∈ gs, g.2 ≠ []
  /-- the parts -/
  perm : (ungrouped gs).Perm ps

theorem grouped_nil : Grouped [] [] :=
  ⟨List.nodup_nil, fun _ hg => absurd hg List.not_mem_nil, List.Perm.refl _⟩

/-- **A part is added to its group**, and the others stay where they are. -/
theorem Grouped.add {gs : ByBase} {ps : List (Expr × Expr)} (h : Grouped gs ps) (k e : Expr) :
    Grouped (gs.add k e) ((k, e) :: ps) ∧
      ∀ c ∈ (gs.add k e).map (·.1), c = k ∨ c ∈ gs.map (·.1) := by
  obtain ⟨hnodup, hnonempty, hperm⟩ := h
  induction gs generalizing ps with
  | nil =>
    refine ⟨⟨List.nodup_singleton k, List.forall_mem_singleton.2 (List.cons_ne_nil e []), ?_⟩,
      fun c hc => .inl (List.mem_singleton.1 hc)⟩
    exact hperm.cons (k, e)
  | cons g gs ih =>
    rw [List.map_cons, List.nodup_cons] at hnodup
    obtain ⟨hg, hgs⟩ := List.forall_mem_cons.1 hnonempty
    rw [add_cons]
    split
    · rename_i heq
      rw [beq_iff_eq] at heq
      rw [map_update_eq (heq ▸ hnodup.1)]
      refine ⟨⟨List.nodup_cons.2 hnodup, List.forall_mem_cons.2 ⟨by simp, hgs⟩, ?_⟩,
        fun c hc => .inr hc⟩
      refine List.Perm.trans ?_ (hperm.cons (k, e))
      rw [ungrouped_cons, ungrouped_cons, List.map_append, heq, List.append_assoc]
      exact List.perm_middle
    · rename_i hne
      obtain ⟨⟨hnodup', hnonempty', hperm'⟩, hmem⟩ := ih hnodup.2 hgs (List.Perm.refl _)
      refine ⟨⟨?_, List.forall_mem_cons.2 ⟨hg, hnonempty'⟩, ?_⟩, ?_⟩
      · rw [List.map_cons, List.nodup_cons]
        refine ⟨fun hc => ?_, hnodup'⟩
        rcases hmem _ hc with heq | hc
        · exact hne (beq_iff_eq.2 heq)
        · exact hnodup.1 hc
      · refine List.Perm.trans ?_ (hperm.cons (k, e))
        rw [ungrouped_cons, ungrouped_cons]
        exact (hperm'.append_left _).trans List.perm_middle
      · intro c hc
        rw [List.map_cons, List.mem_cons] at hc ⊢
        exact hc.elim (fun h => .inr (.inl h)) fun h => (hmem c h).imp_right .inr

/-- **Grouping keeps the parts.** -/
theorem grouped_foldl {ι : Type} (l : List ι) (key part : ι → Expr) :
    Grouped (l.foldl (fun gs i => ByBase.add gs (key i) (part i)) [])
      (l.reverse.map fun i => (key i, part i)) := by
  have hfold : ∀ (gs : ByBase) (ps : List (Expr × Expr)), Grouped gs ps →
      Grouped (l.foldl (fun gs i => ByBase.add gs (key i) (part i)) gs)
        ((l.reverse.map fun i => (key i, part i)) ++ ps) := by
    induction l with
    | nil => exact fun gs ps h => h
    | cons i l ih =>
      intro gs ps h
      have hrest := ih _ _ (h.add (key i) (part i)).1
      rw [List.reverse_cons, List.map_append, List.append_assoc]
      exact hrest
  have h := hfold [] [] grouped_nil
  rwa [List.append_nil] at h

section

variable {gs : ByBase} {ps : List (Expr × Expr)} {g : Expr × List Expr}

theorem Grouped.part_mem (h : Grouped gs ps) (hg : g ∈ gs) {e : Expr} (he : e ∈ g.2) :
    (g.1, e) ∈ ps :=
  h.perm.mem_iff.1 (List.mem_flatMap.2 ⟨g, hg, List.mem_map_of_mem he⟩)

theorem Grouped.key_mem (h : Grouped gs ps) (hg : g ∈ gs) : ∃ e, (g.1, e) ∈ ps := by
  obtain ⟨e, he⟩ := List.exists_mem_of_ne_nil _ (h.nonempty g hg)
  exact ⟨e, h.part_mem hg he⟩

theorem sum_ungrouped (gs : ByBase) (f : Expr × Expr → ℚ) :
    ((ungrouped gs).map f).sum = (gs.map fun g => (g.2.map fun e => f (g.1, e)).sum).sum := by
  induction gs with
  | nil => rfl
  | cons g gs ih =>
    rw [ungrouped_cons, List.map_append, List.sum_append, ih, List.map_map, List.map_cons,
      List.sum_cons]
    rfl

/-- The sum over all parts, group by group. -/
theorem Grouped.sum_eq (h : Grouped gs ps) (f : Expr × Expr → ℚ) :
    (gs.map fun g => (g.2.map fun e => f (g.1, e)).sum).sum = (ps.map f).sum := by
  rw [← sum_ungrouped, (h.perm.map f).sum_eq]

end

/-! ## Quotients -/

variable {env : String → ℚ} {e b m n d : Expr} {es ts fs : List Expr} {c q r v : ℚ} {k : ℤ}

/-- A numerator and a denominator that is not zero, with a quotient. -/
structure Ratio (env : String → ℚ) (p : Expr × Expr) (r : ℚ) : Prop where
  /-- the numerator is defined -/
  above : Defined env p.1
  /-- the denominator is defined -/
  below : Defined env p.2
  /-- it is not zero -/
  ne_zero : value env p.2 ≠ 0
  /-- the quotient -/
  value_eq : value env p.1 / value env p.2 = r

theorem ratio_of_denotes {u w : ℚ} (hn : Denotes env n u) (hd : Denotes env d w) (hw : w ≠ 0)
    (hr : u / w = r) : Ratio env (n, d) r :=
  ⟨hn.defined, hd.defined, by rwa [hd.value_eq], by rw [hn.value_eq, hd.value_eq, hr]⟩

theorem Denotes.ratio_one (h : Denotes env e r) : Ratio env (e, one) r :=
  ratio_of_denotes h denotes_one one_ne_zero (div_one r)

theorem Ratio.of_eq {p : Expr × Expr} {s : ℚ} (h : Ratio env p r) (hr : r = s) : Ratio env p s :=
  hr ▸ h

theorem Ratio.self {p : Expr × Expr} (h : Ratio env p r) :
    Ratio env p (value env p.1 / value env p.2) := h.of_eq h.value_eq.symm

theorem ratio_rat (q : ℚ) : Ratio env (int q.num, int q.den) q :=
  ratio_of_denotes (denotes_int q.num) (denotes_int q.den) (by exact_mod_cast q.den_ne_zero)
    (by exact_mod_cast Rat.num_div_den q)

/-- The quotient written down. -/
theorem Ratio.denotes_div {p : Expr × Expr} (h : Ratio env p r) : Denotes env (p.1 / p.2) r :=
  (h.above.denotes.quotient h.below.denotes h.ne_zero).of_eq h.value_eq

theorem prod_map_ne_zero {ι : Type} {l : List ι} {f : ι → ℚ} (h : ∀ i ∈ l, f i ≠ 0) :
    (l.map f).prod ≠ 0 := by
  refine List.prod_ne_zero fun h0 => ?_
  obtain ⟨i, hi, hi0⟩ := List.mem_map.1 h0
  exact h i hi hi0

theorem prod_map_div {ι : Type} (l : List ι) (f g : ι → ℚ) :
    (l.map f).prod / (l.map g).prod = (l.map fun i => f i / g i).prod := by
  induction l with
  | nil => exact div_one 1
  | cons i l ih =>
    rw [List.map_cons, List.map_cons, List.map_cons, List.prod_cons, List.prod_cons, List.prod_cons,
      ← ih, div_mul_div_comm]

/-- **Quotients multiplied** above and below the line. -/
theorem ratio_product {ι : Type} {l : List ι} {f : ι → Expr × Expr} {g : ι → ℚ}
    (h : ∀ i ∈ l, Ratio env (f i) (g i)) :
    Ratio env (product ((l.map f).map (·.1)), product ((l.map f).map (·.2))) (l.map g).prod := by
  rw [List.map_map, List.map_map]
  refine ratio_of_denotes (denotes_product_map fun i hi => (h i hi).above.denotes)
    (denotes_product_map fun i hi => (h i hi).below.denotes)
    (prod_map_ne_zero fun i hi => (h i hi).ne_zero) ?_
  rw [prod_map_div]
  exact congrArg List.prod (List.map_congr_left fun i hi => (h i hi).value_eq)

/-! ## Powers -/

/-- A whole exponent below zero is known to be so. -/
theorem isNegative_int (k : ℤ) : (int k).isNegative = decide (k < 0) := by
  show (some (decide ((k : ℚ) < 0)) == some true) = _
  simp [Int.cast_lt_zero]

theorem Ratio.neg (h : Ratio env (n, d) r) : Ratio env (-n, -d) r :=
  ratio_of_denotes h.above.denotes.neg h.below.denotes.neg (neg_ne_zero.2 h.ne_zero)
    (by rw [neg_div_neg_eq, h.value_eq])

/-- The reciprocal of a quotient that is not zero. -/
theorem Ratio.swap (h : Ratio env (n, d) r) (hr : r ≠ 0) : Ratio env (d, n) r⁻¹ := by
  have hn : value env n ≠ 0 := fun h0 => hr (by rw [← h.value_eq, h0, zero_div])
  exact ratio_of_denotes h.below.denotes h.above.denotes hn (by rw [← h.value_eq, inv_div])

theorem Ratio.pow (h : Ratio env (n, d) r) (hk : 0 ≤ k) :
    Ratio env (power n (int k), power d (int k)) (r ^ k) :=
  ratio_of_denotes (h.above.denotes.zpow (.inl hk)) (h.below.denotes.zpow (.inl hk))
    (zpow_ne_zero k h.ne_zero) (by rw [← div_zpow, h.value_eq])

/-- A minus below the line is taken away from above and below it. -/
def withPositiveDenom (n d : Expr) : Expr × Expr :=
  if d.facts.isNegative || d.facts.zero == some true then (-n, -d) else (n, d)

theorem Ratio.withPositiveDenom (h : Ratio env (n, d) r) :
    Ratio env (withPositiveDenom n d) r := by
  rw [Expr.withPositiveDenom]
  split
  · exact h.neg
  · exact h

/-- For a whole exponent the parts of a power are the powers of the parts, exchanged if it is below
zero. -/
theorem powerNumerDenom_int (b n d : Expr) (k : ℤ) :
    powerNumerDenom b (int k) n d =
      let p := withPositiveDenom n d
      if k < 0 then (power p.2 (int (-k)), power p.1 (int (-k)))
      else (power p.1 (int k), power p.2 (int k)) := by
  have hflips : flipsExponent (int k) = decide (k < 0) := by
    show (_ || (false && _)) = _
    rw [Bool.false_and, Bool.or_false]
    exact isNegative_int k
  have hneg : -int k = int (-k) := by
    rw [int, neg_rat, int, Int.cast_neg]
  have hfinite : ∀ m : ℤ, (int m).isInfinite = false := fun _ => rfl
  rw [powerNumerDenom, hflips, isWhole_int, hneg, withPositiveDenom]
  simp only [Bool.or_true, if_true, Bool.not_true, Bool.and_false, Bool.false_eq_true, if_false]
  by_cases hk : k < 0
  · simp only [hk, decide_true, if_true, hfinite, Bool.false_and, Bool.false_eq_true, if_false]
  · simp only [hk, decide_false, Bool.false_eq_true, if_false, hfinite, Bool.false_and]

/-- **Numerator and denominator of a power.** -/
theorem ratio_powerNumerDenom (h : Ratio env (n, d) r) (hk : 0 ≤ k ∨ r ≠ 0) :
    Ratio env (powerNumerDenom b (int k) n d) (r ^ k) := by
  have hsettled := h.withPositiveDenom
  rw [powerNumerDenom_int]
  generalize withPositiveDenom n d = p at hsettled
  dsimp only
  split
  · rename_i hlt
    refine ((hsettled.swap (hk.resolve_left (not_le.2 hlt))).pow (k := -k) (by omega)).of_eq ?_
    rw [inv_zpow', neg_neg]
  · exact hsettled.pow (by omega)

/-! ## Sums -/

/-- In a list with an index for each element, all but one of them. -/
theorem prod_others {ι : Type} {l : List (ι × ℕ)} (h : (l.map (·.2)).Nodup) {i : ι × ℕ} (hi : i ∈ l)
    (f : ι → ℚ) :
    f i.1 * ((l.filter fun j => j.2 ≠ i.2).map fun j => f j.1).prod =
      (l.map fun j => f j.1).prod := by
  induction l with
  | nil => cases hi
  | cons j l ih =>
    rw [List.map_cons, List.nodup_cons] at h
    rw [List.map_cons, List.prod_cons]
    rcases List.mem_cons.1 hi with rfl | hi
    · have hrest : (l.filter fun j => j.2 ≠ i.2) = l := List.filter_eq_self.2 fun j hj =>
        decide_eq_true fun heq => h.1 (heq ▸ List.mem_map_of_mem hj)
      rw [List.filter_cons_of_neg (by simp), hrest]
    · have hne : j.2 ≠ i.2 := fun heq => h.1 (heq ▸ List.mem_map_of_mem hi)
      rw [List.filter_cons_of_pos (by simpa using hne), List.map_cons, List.prod_cons,
        mul_left_comm, ih h.2 hi]

theorem sum_map_div (es : List Expr) (v : ℚ) :
    (es.map fun e => value env e / v).sum = (es.map (value env)).sum / v := by
  simp only [div_eq_mul_inv]
  rw [List.sum_map_mul_right]

/-- Terms over one denominator. -/
theorem ratio_group (hd : Denotes env d v) (hv : v ≠ 0) (hes : ∀ e ∈ es, Defined env e) (c : ℚ) :
    Ratio env (sum (es.map (keepCoeff (int c.num))), keepCoeff (int c.den) d)
      (c * (es.map fun e => value env e / v).sum) := by
  have hden : (c.den : ℚ) ≠ 0 := by exact_mod_cast c.den_ne_zero
  refine ratio_of_denotes (denotes_sum_map fun e he => (hes e he).denotes.scaled) hd.scaled
    (mul_ne_zero hden hv) ?_
  rw [sum_map_div, List.sum_map_mul_left, mul_div_mul_comm, Int.cast_natCast, Rat.num_div_den]

theorem map_zipIdx_fst {ι : Type} (l : List ι) (f : ι → ℚ) :
    (l.zipIdx.map fun p => f p.1) = l.map f := by
  rw [← Function.comp_def f Prod.fst, ← List.map_map, List.zipIdx_map_fst]

/-- Groups of terms over the product of their denominators. -/
theorem ratio_groups {gs : ByBase} (hkey : ∀ g ∈ gs, Defined env g.1 ∧ value env g.1 ≠ 0)
    (hpart : ∀ g ∈ gs, ∀ e ∈ g.2, Defined env e) (c : ℚ) :
    Ratio env
      (keepCoeff (int c.num) (sum (gs.zipIdx.map fun (g, i) =>
        product (sum g.2 :: (gs.zipIdx.filter fun h => h.2 ≠ i).map fun h => h.1.1))),
        keepCoeff (int c.den) (product (gs.map (·.1))))
      (c * (gs.map fun g => (g.2.map fun e => value env e / value env g.1).sum).sum) := by
  have hden : (c.den : ℚ) ≠ 0 := by exact_mod_cast c.den_ne_zero
  have hproduct := denotes_product_map (l := gs) fun g hg => (hkey g hg).1.denotes
  have hne : (gs.map fun g => value env g.1).prod ≠ 0 := prod_map_ne_zero fun g hg => (hkey g hg).2
  have hnodup : (gs.zipIdx.map (·.2)).Nodup := by
    rw [List.zipIdx_map_snd]
    exact List.nodup_range'
  have hmem : ∀ p ∈ gs.zipIdx, p.1 ∈ gs := fun p hp => List.fst_mem_of_mem_zipIdx hp
  -- each numerator is multiplied by the denominators of the other groups
  have hnumer : ∀ p ∈ gs.zipIdx, Denotes env
      (product (sum p.1.2 :: (gs.zipIdx.filter fun h => h.2 ≠ p.2).map fun h => h.1.1))
      ((gs.map fun g => value env g.1).prod *
        (p.1.2.map fun e => value env e / value env p.1.1).sum) := by
    intro p hp
    have hsum := denotes_sum (hpart p.1 (hmem p hp))
    have hothers := prod_others hnodup hp fun g => value env g.1
    rw [map_zipIdx_fst gs fun g => value env g.1] at hothers
    refine (denotes_product (List.forall_mem_cons.2 ⟨hsum.defined, ?_⟩)).of_eq ?_
    · exact List.forall_mem_map.2 fun h hh => (hkey h.1 (hmem h (List.mem_of_mem_filter hh))).1
    · rw [List.map_cons, List.prod_cons, hsum.value_eq, List.map_map, sum_map_div, ← hothers]
      have hp0 := (hkey p.1 (hmem p hp)).2
      show _ * ((gs.zipIdx.filter fun h => h.2 ≠ p.2).map fun h => value env h.1.1).prod = _
      field_simp
  refine ratio_of_denotes (denotes_sum_map hnumer).scaled hproduct.scaled (mul_ne_zero hden hne) ?_
  rw [List.sum_map_mul_left, map_zipIdx_fst gs fun g =>
    (g.2.map fun e => value env e / value env g.1).sum, Int.cast_natCast, mul_div_mul_comm,
    Rat.num_div_den, mul_div_cancel_left₀ _ hne]

/-- **A sum over one denominator.** -/
theorem ratio_sumNumerDenom {parts : List (Expr × Expr)} {f : Expr × Expr → ℚ}
    (h : ∀ p ∈ parts, Ratio env p (f p)) (c : ℚ) :
    Ratio env (sumNumerDenom c parts) (c * (parts.map f).sum) := by
  have hgrouped : Grouped (parts.foldl groupByDenom []) (parts.reverse.map fun p => (p.2, p.1)) :=
    grouped_foldl parts (·.2) (·.1)
  have hparts : ∀ p ∈ parts.reverse.map fun p => (p.2, p.1),
      Defined env p.1 ∧ value env p.1 ≠ 0 ∧ Defined env p.2 := fun p hp => by
    obtain ⟨q, hq, rfl⟩ := List.mem_map.1 hp
    have hq := h q (List.mem_reverse.1 hq)
    exact ⟨hq.below, hq.ne_zero, hq.above⟩
  have hsum : ((parts.foldl groupByDenom []).map fun g =>
      (g.2.map fun e => value env e / value env g.1).sum).sum = (parts.map f).sum := by
    rw [hgrouped.sum_eq fun p => value env p.2 / value env p.1, List.map_map, List.map_reverse,
      List.sum_reverse]
    exact congrArg List.sum (List.map_congr_left fun p hp => (h p hp).value_eq)
  rw [← hsum, sumNumerDenom]
  generalize parts.foldl groupByDenom [] = gs at hgrouped
  have hkey : ∀ g ∈ gs, Defined env g.1 ∧ value env g.1 ≠ 0 := fun g hg => by
    obtain ⟨e, he⟩ := hgrouped.key_mem hg
    exact ⟨(hparts _ he).1, (hparts _ he).2.1⟩
  have hpart : ∀ g ∈ gs, ∀ e ∈ g.2, Defined env e := fun g hg e he =>
    (hparts _ (hgrouped.part_mem hg he)).2.2
  split
  · rename_i d ns
    obtain ⟨hd, hv⟩ := hkey (d, ns) (List.mem_singleton.2 rfl)
    rw [List.map_singleton, List.sum_singleton]
    exact ratio_group hd.denotes hv (hpart (d, ns) (List.mem_singleton.2 rfl)) c
  · exact ratio_groups hkey hpart c

/-! ## All expressions -/

theorem numerDenoms_eq (es : List Expr) : numerDenoms es = es.map numerDenom := by
  induction es with
  | nil => rfl
  | cons e es ih => rw [numerDenoms, ih, List.map_cons]

/-- The number in front of a quotient divided by another one. -/
theorem ratio_rescaled {p : Expr × Expr} (h : Ratio env p r) (c : ℚ) : Ratio env
    (match p.1.coeffMul.1, p.2.coeffMul.1 with
    | .rat n, .rat d => (keepCoeff (int (n / d / c).num) p.1.coeffMul.2,
      keepCoeff (int (n / d / c).den) p.2.coeffMul.2)
    | _, _ => (.rat (1 / c) * p.1, p.2)) (r / c) := by
  obtain ⟨n, m, hnm, hm, hv, -⟩ := h.above.numberInFront
  obtain ⟨d, k, hdk, hk, hw, -⟩ := h.below.numberInFront
  have hd := h.ne_zero
  rw [hw] at hd
  have hden : ((n / d / c).den : ℚ) ≠ 0 := by exact_mod_cast (n / d / c).den_ne_zero
  rw [hnm, hdk]
  dsimp only
  refine ratio_of_denotes hm.denotes.scaled hk.denotes.scaled
    (mul_ne_zero hden (right_ne_zero_of_mul hd)) ?_
  rw [mul_div_mul_comm, Int.cast_natCast, Rat.num_div_den, ← h.value_eq, hv, hw]
  ring

/-- **Numerator and denominator have the value of the expression as their quotient.** -/
theorem ratio_numerDenom (h : Defined env e) : Ratio env (numerDenom e) (value env e) := by
  induction h with
  | rat q =>
    rw [numerDenom, value_number]
    exact ratio_rat q
  | symbol s => exact (denotes_symbol s).ratio_one.of_eq (value_symbol env s).symm
  | add ts all sym ih =>
    rw [numerDenom, numerDenoms_eq, value_add]
    have hc := primitive_ne_zero (.add ts all sym)
    generalize (primitive (.app .add ts)).1 = c at hc
    dsimp only
    split
    · refine (ratio_sumNumerDenom (f := fun p => value env p.1 / value env p.2) ?_ 1).of_eq ?_
      · intro p hp
        obtain ⟨t, ht, rfl⟩ := List.mem_map.1 hp
        exact (ih t ht).self
      · rw [one_mul, List.map_map]
        exact congrArg List.sum (List.map_congr_left fun t ht => (ih t ht).value_eq)
    · refine (ratio_sumNumerDenom (f := fun p => value env p.1 / value env p.2) ?_ _).of_eq ?_
      · intro p hp
        obtain ⟨s, hs, rfl⟩ := List.mem_map.1 hp
        obtain ⟨t, ht, rfl⟩ := List.mem_map.1 hs
        exact (ratio_rescaled (ih t ht) c).self
      · rw [List.map_map, List.map_map]
        have hterm : ∀ t ∈ ts, _ = value env t / c := fun t ht =>
          (ratio_rescaled (ih t ht) c).value_eq
        refine (congrArg (c * ·) (congrArg List.sum (List.map_congr_left hterm))).trans ?_
        rw [sum_map_div, mul_div_cancel₀ _ hc]
  | mul fs all flat sym ih =>
    rw [numerDenom, numerDenoms_eq, value_mul]
    exact ratio_product ih
  | pow b n base kind ne_zero ne_one regular ih =>
    rw [numerDenom, value_pow, wholePow_rat]
    exact ratio_powerNumerDenom ih (regular_iff.1 regular)

/-! ## Fractions -/

theorem ratio_fractionPart (h : Defined env e) (hm : e.isMul = false) :
    Ratio env (fractionPart e) (value env e) := by
  cases h with
  | rat q => exact (ratio_rat q).of_eq (value_number env q).symm
  | symbol s => exact (denotes_symbol s).ratio_one.of_eq (value_symbol env s).symm
  | add ts all sym => exact (Defined.add ts all sym).denotes.ratio_one
  | mul => cases hm
  | pow b n base kind ne_zero ne_one regular =>
    have hpower := Defined.pow b n base kind ne_zero ne_one regular
    have hbase : (Expr.app .pow [b, .rat n]).baseExp = (b, int n) := baseExp_rawPow kind _
    rw [fractionPart, hbase]
    dsimp only
    split
    · rename_i hn
      have hlt : n < 0 := by
        rw [← Expr.isNegative, isNegative_int] at hn
        exact of_decide_eq_true hn
      have hb : value env b ≠ 0 := (regular_iff.1 regular).resolve_left (not_le.2 hlt)
      rw [value_pow, wholePow_rat]
      split
      · rename_i h1
        rw [Canonical.int_eq_minusOne.1 h1, zpow_neg_one]
        exact ratio_of_denotes denotes_one base.denotes hb (one_div _)
      · have hneg : -int n = int (-n) := by
          rw [int, neg_rat, int, Int.cast_neg]
        rw [hneg]
        refine ratio_of_denotes denotes_one (base.denotes.zpow (.inr hb)) (zpow_ne_zero _ hb) ?_
        rw [zpow_neg, one_div, inv_inv]
    · split
      · exact hpower.denotes.ratio_one
      · exact hpower.denotes.ratio_one

/-- **The factors above and below the line have the value of the expression as their quotient.** -/
theorem ratio_fraction (h : Defined env e) : Ratio env (fraction e) (value env e) := by
  rw [fraction, ← h.prod_factors]
  exact ratio_product fun f hf => ratio_fractionPart (h.factors f hf).1 (h.factors f hf).2

/-- **One fraction keeps the value.** -/
theorem keepsValue_asFraction : KeepsValue env asFraction := by
  rintro e r ⟨h, rfl⟩
  have hratio := ratio_numerDenom h
  rw [asFraction]
  generalize numerDenom e = p at hratio
  obtain ⟨n, d⟩ := p
  have hdiv : Denotes env (n / d) (value env e) := hratio.denotes_div
  dsimp only
  split
  · rename_i q
    obtain ⟨hn, -, hq, hv⟩ := hratio
    dsimp only at hn hq hv
    rw [value_number] at hq hv
    split
    · rename_i h1
      rw [h1, div_one] at hv
      exact hn.denotes.of_eq hv
    · obtain ⟨p, m, hpm, hm, hvn, hone, -⟩ := hn.numberInFront
      rw [hpm]
      dsimp only
      rw [hvn, mul_div_right_comm] at hv
      split
      · rename_i h1
        rw [h1, one_mul] at hv
        exact hm.denotes.of_eq hv
      · split
        · rename_i h1
          rw [beq_iff_eq.1 h1, value_one, mul_one] at hv
          exact (denotes_number _).of_eq hv
        · rename_i h1
          have hs : Symbolic m.factors :=
            symbolic_factors hm (hone.resolve_left fun h => h1 (beq_iff_eq.2 h))
          refine (denotes_rat_rawMul hm.factors hs (p / q)).of_eq ?_
          rw [hm.prod_factors]
          exact hv
  · exact hdiv

/-- There are no roots. -/
theorem numericRoot?_eq_none (h : Defined env e) : numericRoot? e = none := by
  obtain ⟨q, m, hqm, hm, -⟩ := h.numberInFront
  rw [numericRoot?, hqm]
  dsimp only
  split
  · cases hm with
    | pow b n base kind => cases kind
  · rfl

theorem keepsValue_clearRoot : KeepsValue env clearRoot := by
  refine keepsValue_of_eq fun {e} h => ?_
  have hbelow := (ratio_numerDenom h).below
  rw [clearRoot]
  generalize numerDenom e = p at hbelow
  obtain ⟨n, d⟩ := p
  dsimp only
  split
  · rename_i a t
    rw [numericRoot?_eq_none (hbelow.add_mem.1 t (by simp))]
  · rfl

end ErrorBars.Expr
