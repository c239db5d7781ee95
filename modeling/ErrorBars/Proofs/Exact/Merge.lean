import Mathlib.Data.List.Perm.Basic
import ErrorBars.Expr.Canonical.Product
import ErrorBars.Proofs.Exact.Sum

/-!
# Powers of one base merged

A product adds up the exponents of each base before it evaluates anything.  For whole exponents
`gather` is `merged`, and every power that is left is written down as it is (`written`).

Where every power that goes in has a value, so has every power that comes out, and the product is
the same (`merged_regular`).  But a product may have a value although one of its factors has none:
in `x ^ 2 * x ^ (-1)` at zero the exponents add up first.  The derivative of a power leads to such
products.  What comes out depends only on which bases occur and on the total exponent of each
(`merged_perm`), so that the powers that go in may be exchanged for others that have values.
-/

set_option autoImplicit false

namespace ErrorBars

open Expr

variable {R : Type} [CommRing R] [Algebra ℚ R] {A : Arith} {env : String → R}

namespace Canonical

/-! ## Powers of bases -/

/-- Powers of bases, as base and exponent. -/
abbrev BasePowers := List (Expr × ℤ)

/-- Every base is defined. -/
def BasePowers.Based (env : String → R) (L : BasePowers) : Prop :=
  ∀ p ∈ L, Defined env p.1 ∧ p.1.isBase = true

/-- Every power has a value. -/
def BasePowers.Regular (env : String → R) (L : BasePowers) : Prop :=
  ∀ p ∈ L, ErrorBars.Regular (value env p.1) p.2

/-- The product of the values. -/
noncomputable def BasePowers.value (env : String → R) (L : BasePowers) : R :=
  (L.map fun p => wholePow (Expr.value env p.1) p.2).prod

theorem BasePowers.value_cons (p : Expr × ℤ) (L : BasePowers) :
    BasePowers.value env (p :: L) = wholePow (Expr.value env p.1) p.2 * BasePowers.value env L :=
  rfl

/-- A power as a base and an exponent that are expressions. -/
def basePower (p : Expr × ℤ) : Expr × Expr := (p.1, int p.2)

/-- Adds to the exponent of a base. -/
def addExponent (b : Expr) (n : ℤ) : BasePowers → BasePowers
  | [] => [(b, n)]
  | (c, m) :: L => if c == b then (c, m + n) :: L else (c, m) :: addExponent b n L

/-- The exponents of each base added up. -/
def merged (L : BasePowers) : BasePowers := L.foldl (fun M p => addExponent p.1 p.2 M) []

/-- The total exponent of a base. -/
def total (L : BasePowers) (b : Expr) : ℤ := (L.map fun p => if p.1 == b then p.2 else 0).sum

theorem total_cons (p : Expr × ℤ) (L : BasePowers) (b : Expr) :
    total (p :: L) b = (if p.1 == b then p.2 else 0) + total L b := rfl

variable {L M : BasePowers} {b c : Expr} {m n : ℤ}

theorem fst_mem_addExponent : c ∈ (addExponent b n M).map (·.1) ↔ c = b ∨ c ∈ M.map (·.1) := by
  induction M with
  | nil => simp [addExponent]
  | cons p M ih =>
    rw [addExponent]
    split
    · rename_i h
      rw [← beq_iff_eq.1 h]
      simp
    · rw [List.map_cons, List.mem_cons, ih, List.map_cons, List.mem_cons]
      exact or_left_comm

theorem nodup_addExponent (h : (M.map (·.1)).Nodup) : ((addExponent b n M).map (·.1)).Nodup := by
  induction M with
  | nil => exact List.nodup_singleton b
  | cons p M ih =>
    rw [List.map_cons, List.nodup_cons] at h
    rw [addExponent]
    split
    · exact List.nodup_cons.2 h
    · rename_i hne
      rw [List.map_cons, List.nodup_cons, fst_mem_addExponent]
      refine ⟨fun hmem => ?_, ih h.2⟩
      rcases hmem with heq | hmem
      · exact hne (beq_iff_eq.2 heq)
      · exact h.1 hmem

theorem total_addExponent (c : Expr) :
    total (addExponent b n M) c = (if b == c then n else 0) + total M c := by
  induction M with
  | nil => rfl
  | cons p M ih =>
    rw [addExponent, total_cons]
    split
    · rename_i h
      rw [total_cons, beq_iff_eq.1 h]
      split
      · omega
      · omega
    · rw [total_cons, ih]
      exact add_left_comm _ _ _

theorem merged_aux (L M : BasePowers) (h : (M.map (·.1)).Nodup) :
    ((L.foldl (fun M p => addExponent p.1 p.2 M) M).map (·.1)).Nodup ∧
      (∀ c, c ∈ (L.foldl (fun M p => addExponent p.1 p.2 M) M).map (·.1) ↔
        c ∈ L.map (·.1) ∨ c ∈ M.map (·.1)) ∧
      ∀ c, total (L.foldl (fun M p => addExponent p.1 p.2 M) M) c = total L c + total M c := by
  induction L generalizing M with
  | nil => exact ⟨h, fun c => by simp, fun c => (zero_add _).symm⟩
  | cons p L ih =>
    obtain ⟨hnodup, hmem, htotal⟩ := ih (addExponent p.1 p.2 M) (nodup_addExponent h)
    refine ⟨hnodup, fun c => ?_, fun c => ?_⟩
    · rw [List.foldl_cons, hmem, fst_mem_addExponent, List.map_cons, List.mem_cons]
      exact or_left_comm.trans or_assoc.symm
    · rw [List.foldl_cons, htotal, total_addExponent, total_cons]
      omega

/-- The exponent of a base that occurs once is its total. -/
theorem eq_total_of_mem (h : (M.map (·.1)).Nodup) (hm : (b, n) ∈ M) : n = total M b := by
  induction M with
  | nil => cases hm
  | cons p M ih =>
    rw [List.map_cons, List.nodup_cons] at h
    have hzero : ∀ {N : BasePowers} {c : Expr}, c ∉ N.map (·.1) → total N c = 0 := by
      intro N c hc
      induction N with
      | nil => rfl
      | cons q N ih =>
        rw [List.map_cons, List.mem_cons, not_or] at hc
        rw [total_cons, if_neg (by simpa using Ne.symm hc.1), ih hc.2, zero_add]
    rw [total_cons]
    rcases List.mem_cons.1 hm with heq | hm
    · rw [← heq] at h ⊢
      rw [if_pos (beq_self_eq_true b), hzero h.1, add_zero]
    · have hne : p.1 ≠ b := fun heq => h.1 (heq ▸ List.mem_map.2 ⟨(b, n), hm, rfl⟩)
      rw [if_neg (by simpa using hne), zero_add]
      exact ih h.2 hm

/-- **What is merged** holds each base that occurs, with its total exponent. -/
theorem mem_merged : (b, n) ∈ merged L ↔ b ∈ L.map (·.1) ∧ n = total L b := by
  obtain ⟨hnodup, hmem, htotal⟩ := merged_aux L [] List.nodup_nil
  have htotal : total (merged L) b = total L b := (htotal b).trans (add_zero _)
  have hmem : b ∈ (merged L).map (·.1) ↔ b ∈ L.map (·.1) := (hmem b).trans (by simp)
  constructor
  · intro h
    exact ⟨hmem.1 (List.mem_map_of_mem h), htotal ▸ eq_total_of_mem hnodup h⟩
  · rintro ⟨hb, hn⟩
    obtain ⟨⟨c, m⟩, hc, hcb⟩ := List.mem_map.1 (hmem.2 hb)
    obtain rfl : c = b := hcb
    rw [hn, ← htotal, show total (merged L) c = m from (eq_total_of_mem hnodup hc).symm]
    exact hc

theorem nodup_merged (L : BasePowers) : (merged L).Nodup :=
  (merged_aux L [] List.nodup_nil).1.of_map

/-- **What comes out depends only on the bases that occur and on their total exponents.** -/
theorem merged_perm (hb : ∀ b, b ∈ L.map (·.1) ↔ b ∈ M.map (·.1))
    (ht : ∀ b, total L b = total M b) : (merged L).Perm (merged M) := by
  refine (List.perm_ext_iff_of_nodup (nodup_merged L) (nodup_merged M)).2 ?_
  rintro ⟨b, n⟩
  rw [mem_merged, mem_merged, hb, ht]

theorem based_merged (h : BasePowers.Based env L) : BasePowers.Based env (merged L) := by
  rintro ⟨b, n⟩ hp
  obtain ⟨q, hq, rfl⟩ := List.mem_map.1 (mem_merged.1 hp).1
  exact h q hq

/-- Adding to an exponent multiplies by a power. -/
theorem addExponent_regular (hM : BasePowers.Regular env M)
    (hn : ErrorBars.Regular (value env b) n) : BasePowers.Regular env (addExponent b n M) ∧
      BasePowers.value env (addExponent b n M) =
        wholePow (value env b) n * BasePowers.value env M := by
  induction M with
  | nil => exact ⟨List.forall_mem_singleton.2 hn, rfl⟩
  | cons p M ih =>
    obtain ⟨hp, hM⟩ := List.forall_mem_cons.1 hM
    rw [addExponent]
    split
    · rename_i h
      obtain rfl : p.1 = b := beq_iff_eq.1 h
      refine ⟨List.forall_mem_cons.2 ⟨hp.add hn, hM⟩, ?_⟩
      rw [BasePowers.value_cons, BasePowers.value_cons, wholePow_add hp hn]
      ring
    · obtain ⟨hreg, hv⟩ := ih hM
      refine ⟨List.forall_mem_cons.2 ⟨hp, hreg⟩, ?_⟩
      rw [BasePowers.value_cons, BasePowers.value_cons, hv]
      exact mul_left_comm _ _ _

/-- **Powers with values, merged, are powers with values**, and the product is the same. -/
theorem merged_regular (h : BasePowers.Regular env L) : BasePowers.Regular env (merged L) ∧
    BasePowers.value env (merged L) = BasePowers.value env L := by
  have haux : ∀ M : BasePowers, BasePowers.Regular env M →
      BasePowers.Regular env (L.foldl (fun M p => addExponent p.1 p.2 M) M) ∧
        BasePowers.value env (L.foldl (fun M p => addExponent p.1 p.2 M) M) =
          BasePowers.value env L * BasePowers.value env M := by
    induction L with
    | nil => exact fun M hM => ⟨hM, (one_mul _).symm⟩
    | cons p L ih =>
      intro M hM
      obtain ⟨hp, hL⟩ := List.forall_mem_cons.1 h
      obtain ⟨hreg, hv⟩ := addExponent_regular hM hp
      obtain ⟨hreg', hv'⟩ := ih hL _ hreg
      refine ⟨hreg', ?_⟩
      rw [List.foldl_cons, hv', hv, BasePowers.value_cons]
      ring
  obtain ⟨hreg, hv⟩ := haux [] fun p hp => absurd hp List.not_mem_nil
  exact ⟨hreg, hv.trans (mul_one _)⟩

/-! ## Gathering -/

/-- What has been gathered of powers with whole exponents. -/
def gatheredOf (T : List (Expr × List ℤ)) : Gathered :=
  T.map fun p => (p.1, [(one, p.2.map int)])

/-- Adds an exponent to those gathered. -/
def pushExponent (b : Expr) (n : ℤ) : List (Expr × List ℤ) → List (Expr × List ℤ)
  | [] => [(b, [n])]
  | (c, ns) :: T => if c == b then (c, ns ++ [n]) :: T else (c, ns) :: pushExponent b n T

theorem gatherPower_int (b : Expr) (n : ℤ) (T : List (Expr × List ℤ)) :
    gatherPower b (int n) one (gatheredOf T) = gatheredOf (pushExponent b n T) := by
  induction T with
  | nil => rfl
  | cons p T ih =>
    show (if p.1 == b then (p.1, gatherExponent (int n) one [(one, p.2.map int)]) :: gatheredOf T
      else (p.1, [(one, p.2.map int)]) :: gatherPower b (int n) one (gatheredOf T)) = _
    rw [pushExponent]
    split
    · have hpush : gatherExponent (int n) one [(one, p.2.map int)] =
          [(one, (p.2 ++ [n]).map int)] := by
        rw [List.map_append]
        rfl
      rw [hpush]
      rfl
    · rw [ih]
      rfl

/-- The sums of the exponents gathered. -/
def sumExponents (T : List (Expr × List ℤ)) : BasePowers := T.map fun p => (p.1, p.2.sum)

theorem sumExponents_push (b : Expr) (n : ℤ) (T : List (Expr × List ℤ)) :
    sumExponents (pushExponent b n T) = addExponent b n (sumExponents T) := by
  induction T with
  | nil =>
    show [(b, [n].sum)] = [(b, n)]
    rw [List.sum_singleton]
  | cons p T ih =>
    show sumExponents (if p.1 == b then (p.1, p.2 ++ [n]) :: T else p :: pushExponent b n T) =
      if p.1 == b then (p.1, p.2.sum + n) :: sumExponents T
      else (p.1, p.2.sum) :: addExponent b n (sumExponents T)
    split
    · show (p.1, (p.2 ++ [n]).sum) :: _ = _
      rw [List.sum_append, List.sum_singleton]
      rfl
    · rw [← ih]
      rfl

theorem map_int (ns : List ℤ) : ns.map int = (ns.map fun n : ℤ => (n : ℚ)).map Expr.rat := by
  rw [List.map_map]
  rfl

theorem sum_ints (hA : A.Exact env) (ns : List ℤ) : A.sum (ns.map int) = int ns.sum := by
  have hsum : (ns.map fun n : ℤ => (n : ℚ)).sum = (ns.sum : ℚ) := 
    (map_list_sum (Int.castRingHom ℚ) ns).symm
  rw [map_int, hA.sum_rat, hsum]
  rfl

/-- **Gathering powers merges them.** -/
theorem gather_eq (hA : A.Exact env) (L : BasePowers) :
    gather A (L.map basePower) = (merged L).map basePower := by
  have hfold : ∀ T : List (Expr × List ℤ), ∃ T', (L.map basePower).foldl
        (fun g p => gatherPower p.1 p.2.coeffMul.1 p.2.coeffMul.2 g) (gatheredOf T) =
        gatheredOf T' ∧
      sumExponents T' = L.foldl (fun M p => addExponent p.1 p.2 M) (sumExponents T) := by
    induction L with
    | nil => exact fun T => ⟨T, rfl, rfl⟩
    | cons p L ih =>
      intro T
      obtain ⟨T', hT', hsum⟩ := ih (pushExponent p.1 p.2 T)
      refine ⟨T', ?_, ?_⟩
      · rw [← hT', ← gatherPower_int]
        rfl
      · rw [hsum, sumExponents_push]
        rfl
  obtain ⟨T, hT, hsum⟩ := hfold []
  have hgather : gather A (L.map basePower) =
      (gatheredOf T).flatMap fun p => p.2.map fun q => (p.1, A.mul (A.sum q.2) q.1) := by
    rw [← hT]
    rfl
  have hmerged : merged L = sumExponents T := hsum.symm
  rw [hgather, hmerged]
  clear hT hsum hgather hmerged
  induction T with
  | nil => rfl
  | cons p T ih =>
    have hone : A.mul (A.sum (p.2.map int)) one = int p.2.sum := by
      rw [sum_ints hA, int, one, hA.mul_rat, mul_one]
    show (p.1, A.mul (A.sum (p.2.map int)) one) :: _ = (p.1, int p.2.sum) :: _
    rw [hone]
    exact congrArg _ ih

/-! ## Evaluating -/

/-- The factors that merged powers give. -/
def written (L : BasePowers) : List Expr :=
  L.filterMap fun p => if p.2 = 0 then none else some (powerForm p.1 p.2)

theorem written_cons (p : Expr × ℤ) (L : BasePowers) : written (p :: L) =
    (if p.2 = 0 then [] else [powerForm p.1 p.2]) ++ written L := by
  rw [written, List.filterMap_cons]
  split
  · rename_i h
    rw [if_pos (by by_contra h0; simp [h0] at h)]
    rfl
  · rename_i h
    by_cases h0 : p.2 = 0
    · simp [h0] at h
    · rw [if_neg h0] at h ⊢
      rw [← Option.some.inj h]
      rfl

/-- What evaluating a power of a base gives: no factor, or the power as it is. -/
def evaluation (p : Expr × ℤ) : Evaluation :=
  if p.2 = 0 then .gone else .factor (powerForm p.1 p.2) p.1 (int p.2)

theorem flatMap_evaluation {f : Evaluation → List Expr} (h : BasePowers.Based env L)
    (hgone : f .gone = []) (hfactor : ∀ e b x, f (.factor e b x) = e.factors) :
    (L.map evaluation).flatMap f = written L := by
  induction L with
  | nil => rfl
  | cons p L ih =>
    obtain ⟨⟨-, hb⟩, hL⟩ := List.forall_mem_cons.1 h
    rw [List.map_cons, List.flatMap_cons, ih hL, evaluation, written_cons]
    split
    · rw [hgone]
    · rw [hfactor, factors_of_isMul_eq_false (isMul_powerForm hb)]

theorem evaluatePower_base (hA : A.Exact env) {p : Expr × ℤ} (hp : Defined env p.1)
    (hb : p.1.isBase = true) : evaluatePower A (basePower p) = evaluation p := by
  obtain ⟨b, n⟩ := p
  rw [basePower, evaluatePower, evaluation]
  split
  · rename_i h0
    have hn : n = 0 := by
      have hz : ((n : ℚ) == 0) = true := h0
      exact_mod_cast beq_iff_eq.1 hz
    have hinf : (b.isAdd || b.isMul) && b.args.any Expr.isInfinite ↔ False := by
      rw [iff_false, Bool.and_eq_true]
      rintro ⟨-, hany⟩
      obtain ⟨t, ht, hinf⟩ := List.any_eq_true.1 hany
      cases hp with
      | rat | symbol => cases ht
      | add ts all => rw [(all t ht).isInfinite] at hinf; cases hinf
      | mul fs all => rw [(all t ht).isInfinite] at hinf; cases hinf
      | pow => cases hb
    rw [if_neg (by rw [hinf]; exact not_false), if_pos hn]
  · rename_i h0
    have hn : n ≠ 0 := by
      rintro rfl
      exact h0 rfl
    rw [if_neg hn]
    split
    · rename_i h1
      have hn1 : n = 1 := by
        have heq : (n : ℚ) = 1 := Expr.rat.inj (beq_iff_eq.1 h1)
        exact_mod_cast heq
      have hnum : ¬ b.isNumber = true := by
        rw [isNumber_of_isBase hb]
        exact Bool.false_ne_true
      rw [if_neg hnum, hn1, powerForm_one]
    · rename_i h1
      have hn1 : n ≠ 1 := by
        rintro rfl
        exact h1 (beq_iff_eq.2 (by rw [int, Int.cast_one, one]))
      show (if (A.power b (int n)).isPow && !b.isPow then _ else _) = _
      rw [hA.power_base hp hb hn, baseExp_powerForm hb]
      exact ite_self _

theorem changed_base {q : Expr × Expr} {v : Evaluation}
    (h : (match (q, v) with
      | (p, .factor _ b _) => !(b == p.1)
      | _ => false) = true) : ∃ e b x, v = .factor e b x ∧ b ≠ q.1 := by
  cases v with
  | factor e b x => exact ⟨e, b, x, rfl, by simpa using h⟩
  | gone | undefined | number => cases h

/-- Where no base changes, nothing is merged once more. -/
theorem evaluatePowers_eq {powers : List (Expr × Expr)}
    (h : ∀ p ∈ powers, ∀ {e b x}, evaluatePower A p = .factor e b x → b = p.1) :
    evaluatePowers A 1 powers = powers.map (evaluatePower A) := by
  rw [evaluatePowers.eq_def]
  refine if_neg fun hchanged => ?_
  obtain ⟨⟨p, v⟩, hp, hv⟩ := List.any_eq_true.1 (Bool.and_eq_true _ _ ▸ hchanged).1
  rw [← List.map_id powers, List.map_map, List.zip_map', List.mem_map] at hp
  obtain ⟨q, hq, heq⟩ := hp
  obtain ⟨rfl, rfl⟩ := Prod.mk.inj heq
  obtain ⟨e, b, x, hfactor, hne⟩ := changed_base hv
  exact hne (h q hq hfactor)

theorem evaluatePowers_base (hA : A.Exact env) (h : BasePowers.Based env L) :
    evaluatePowers A 1 (L.map basePower) = L.map evaluation := by
  have heval : ∀ p ∈ L, evaluatePower A (basePower p) = evaluation p := fun p hp =>
    evaluatePower_base hA (h p hp).1 (h p hp).2
  rw [evaluatePowers_eq, List.map_map]
  · exact List.map_congr_left heval
  · intro q hq e b x hfactor
    obtain ⟨p, hp, rfl⟩ := List.mem_map.1 hq
    rw [heval p hp, evaluation] at hfactor
    split at hfactor
    · cases hfactor
    · exact (Evaluation.factor.inj hfactor).2.1.symm

end Canonical

end ErrorBars
