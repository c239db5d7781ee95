import ErrorBars.Proofs.Exact.Canonical

/-!
# A pole that is taken away

The derivative of `b ^ n` is written as `b ^ n * (n * b' / b)`.  Where `b` has no inverse the
quotient has no value, and yet the product is `n * b ^ (n - 1) * b'`: what stands below the line
is a single `b`, and it is merged with the power before anything is evaluated.

`denotes_power_mul_div` says so for every defined numerator.  If the powers of `b` in the
numerator already take the pole away, the quotient itself is defined.  If not, its factors are `1
/ b` and others that are defined, none of them a power of `b`, and these are merged with the power
as if there were one power less and nothing below the line.
-/

set_option autoImplicit false

namespace ErrorBars

open Expr

variable {R : Type} [CommRing R] [Algebra ℚ R] {A : Arith} {env : String → R}

namespace Canonical

variable {a b e : Expr} {fs : List Expr} {L M : BasePowers} {c : ℚ} {m n : ℤ}

/-! ## Powers in another order -/

theorem BasePowers.based_of_perm (h : L.Perm M) (hL : BasePowers.Based env L) :
    BasePowers.Based env M := fun p hp => hL p (h.mem_iff.2 hp)

theorem BasePowers.regular_of_perm (h : L.Perm M) (hL : BasePowers.Regular env L) :
    BasePowers.Regular env M := fun p hp => hL p (h.mem_iff.2 hp)

theorem BasePowers.value_perm (h : L.Perm M) :
    BasePowers.value env L = BasePowers.value env M := (h.map _).prod_eq

theorem total_perm (h : L.Perm M) (b : Expr) : total L b = total M b := (h.map _).sum_eq

/-- The order of the powers does not matter. -/
theorem merged_perm_of_perm (h : L.Perm M) : (merged L).Perm (merged M) :=
  merged_perm (fun _ => (h.map _).mem_iff) (total_perm h)

/-- The merged powers of the other bases. -/
def others (b : Expr) (L : BasePowers) : BasePowers := (merged L).filter fun p => !(p.1 == b)

/-- **One more power** changes the exponent of its base and nothing else. -/
theorem merged_cons_perm (b : Expr) (m : ℤ) (L : BasePowers) :
    (merged ((b, m) :: L)).Perm ((b, m + total L b) :: others b L) := by
  have hothers : ∀ {c j}, (c, j) ∈ others b L ↔ (c, j) ∈ merged L ∧ c ≠ b := fun {c j} => by
    rw [others, List.mem_filter, Bool.not_eq_true', beq_eq_false_iff_ne]
  refine (List.perm_ext_iff_of_nodup (nodup_merged _) (List.nodup_cons.2 ⟨?_, ?_⟩)).2 ?_
  · exact fun h => (hothers.1 h).2 rfl
  · exact (nodup_merged L).filter _
  · rintro ⟨c, j⟩
    rw [List.mem_cons, hothers, mem_merged, mem_merged, List.map_cons, List.mem_cons, total_cons,
      Prod.mk.injEq]
    by_cases hc : c = b
    · rw [hc]
      simp
    · simp [hc, Ne.symm hc]

theorem others_regular (h : BasePowers.Regular env L) : BasePowers.Regular env (others b L) :=
  fun p hp => (merged_regular h).1 p (List.mem_of_mem_filter hp)

theorem based_others (h : BasePowers.Based env L) : BasePowers.Based env (others b L) :=
  fun p hp => based_merged h p (List.mem_of_mem_filter hp)

/-- Powers that have values are those of one base and those of the others. -/
theorem value_others (b : Expr) (h : BasePowers.Regular env L) :
    ErrorBars.Regular (value env b) (total L b) ∧ BasePowers.value env L =
      wholePow (value env b) (total L b) * BasePowers.value env (others b L) := by
  have hzero : BasePowers.Regular env ((b, 0) :: L) :=
    List.forall_mem_cons.2 ⟨regular_of_nonneg le_rfl, h⟩
  have hperm := merged_cons_perm b 0 L
  rw [zero_add] at hperm
  obtain ⟨hreg, hv⟩ := merged_regular hzero
  refine ⟨BasePowers.regular_of_perm hperm hreg _ List.mem_cons_self, ?_⟩
  rw [BasePowers.value_perm hperm, BasePowers.value_cons, BasePowers.value_cons] at hv
  rw [hv, wholePow_zero, one_mul]

/-! ## Products of two factors -/

/-- Two factors that are no numbers are taken apart and merged. -/
theorem product_pair (hA : A.Exact env) (ha : Pieces env a) (hb : Pieces env b)
    (han : a.isNumber = false) (hbn : b.isNumber = false) (hae : Ends.of? a = none)
    (hbe : Ends.of? b = none) : product A [a, b] =
      closeProduct A (.rat (numberIn (a.factors ++ b.factors)))
        (written (merged (powersIn (a.factors ++ b.factors)))) := by
  have hne : ∀ {e : Expr}, e.isNumber = false → (e == one) = false := by
    intro e he
    rw [beq_eq_false_iff_ne]
    rintro rfl
    cases he
  have hgeneral := assemble_eq hA (List.forall_mem_cons.2 ⟨ha, List.forall_mem_singleton.2 hb⟩)
  rw [List.flatMap_cons, List.flatMap_singleton] at hgeneral
  rw [product, List.filter_cons_of_pos (by rw [hne han]; rfl),
    List.filter_cons_of_pos (by rw [hne hbn]; rfl), List.filter_nil]
  split
  · rename_i heq
    cases heq
  · rename_i heq
    cases heq
  · rename_i heq
    rw [(List.cons.inj heq).1] at han
    cases han
  · rename_i heq
    rw [(List.cons.inj (List.cons.inj heq).2).1] at hbn
    cases hbn
  · rename_i heq
    rw [← (List.cons.inj heq).1, ← (List.cons.inj (List.cons.inj heq).2).1,
      boundsProduct?_eq_none hae hbe]
    exact hgeneral
  · exact hgeneral

theorem ends_powerForm (hb : b.isBase = true) : Ends.of? (powerForm b n) = none := by
  rw [powerForm]
  split
  · obtain ⟨s, rfl⟩ | ⟨ts, rfl⟩ := cases_of_isBase hb <;> rfl
  · rfl

theorem pieces_powerForm (hb : Defined env b) (hbase : b.isBase = true) (hn : n ≠ 0) :
    Pieces env (powerForm b n) := by
  rw [Pieces, factors_of_isMul_eq_false (isMul_powerForm hbase)]
  exact List.forall_mem_singleton.2 (.power b n hb hbase hn)

theorem numberIn_factors_powerForm (hbase : b.isBase = true) :
    numberIn (powerForm b n).factors = 1 := by
  rw [factors_of_isMul_eq_false (isMul_powerForm hbase), numberIn_cons_power hbase]
  rfl

theorem powersIn_factors_powerForm (hbase : b.isBase = true) :
    powersIn (powerForm b n).factors = [(b, n)] := by
  rw [factors_of_isMul_eq_false (isMul_powerForm hbase), powersIn_cons_power hbase]
  rfl

/-- **A quotient by a base** is taken apart and merged. -/
theorem product_div (hA : A.Exact env) (he : Defined env e) (hb : Defined env b)
    (hbase : b.isBase = true) : ∃ M : BasePowers,
      M.Perm ((b, -1 + total (powersIn e.factors) b) :: others b (powersIn e.factors)) ∧
      product A [e, powerForm b (-1)] = closeProduct A (.rat (numberIn e.factors)) (written M) := by
  have hn : (-1 : ℤ) ≠ 0 := by decide
  by_cases hnum : e.isNumber = true
  · obtain ⟨q, rfl⟩ := he.eq_rat hnum
    refine ⟨merged [(b, -1)], merged_cons_perm b (-1) [], ?_⟩
    have ha : (powerForm b (-1)).isAdd = false := by
      rw [powerForm_of_ne_one (by decide)]
      rfl
    rw [product_rat_power hA hb hbase hn ha, written_single hn]
    show _ = closeProduct A (.rat (q * 1)) _
    rw [mul_one]
  · rw [Bool.not_eq_true] at hnum
    refine ⟨merged (powersIn (e.factors ++ (powerForm b (-1)).factors)), ?_, ?_⟩
    · refine (merged_perm_of_perm ?_).trans (merged_cons_perm b (-1) _)
      rw [powersIn_append, powersIn_factors_powerForm hbase]
      exact List.perm_append_singleton _ _
    · rw [product_pair hA (pieces_of_defined he) (pieces_powerForm hb hbase hn) hnum
        (isNumber_powerForm hbase) he.ends (ends_powerForm hbase), numberIn_append,
        numberIn_factors_powerForm hbase, mul_one]

/-! ## What is written, taken apart again -/

theorem numberIn_written (h : BasePowers.Based env L) : numberIn (written L) = 1 := by
  induction L with
  | nil => rfl
  | cons p L ih =>
    obtain ⟨hp, hL⟩ := List.forall_mem_cons.1 h
    rw [written_cons, numberIn_append, ih hL, mul_one]
    split
    · rfl
    · rw [numberIn_cons_power hp.2]
      rfl

theorem powersIn_written (h : BasePowers.Based env L) :
    powersIn (written L) = L.filter fun p => decide (p.2 ≠ 0) := by
  induction L with
  | nil => rfl
  | cons p L ih =>
    obtain ⟨hp, hL⟩ := List.forall_mem_cons.1 h
    rw [written_cons, powersIn_append, ih hL]
    split
    · rename_i h0
      rw [List.filter_cons_of_neg (by simp [h0])]
      rfl
    · rename_i h0
      rw [List.filter_cons_of_pos (by simp [h0]), powersIn_cons_power hp.2]
      rfl

theorem piece_written (h : BasePowers.Based env L) : ∀ f ∈ written L, Piece env f := by
  intro f hf
  obtain ⟨p, hp, hn, rfl⟩ := mem_written hf
  exact .power p.1 p.2 (h p hp).1 (h p hp).2 hn

theorem Piece.isMul {f : Expr} (h : Piece env f) : f.isMul = false := by
  cases h with
  | rat => rfl
  | power b n base kind _ => exact isMul_powerForm kind

theorem factors_productOf (h : ∀ f ∈ fs, Piece env f) (hne : fs ≠ []) :
    (productOf fs).factors = fs := by
  match fs, hne with
  | [f], _ => exact factors_of_isMul_eq_false (h f (by simp)).isMul
  | _ :: _ :: _, _ => rfl

theorem ends_productOf (h : ∀ f ∈ fs, Piece env f) : Ends.of? (productOf fs) = none := by
  match fs with
  | [] => rfl
  | [f] =>
    cases h f (by simp) with
    | rat => rfl
    | power b n base kind _ => exact ends_powerForm kind
  | _ :: _ :: _ => rfl

/-- The number in front of several factors, where it is not one. -/
def numbered (c : ℚ) (fs : List Expr) : List Expr := if c = 1 then fs else .rat c :: fs

theorem numberIn_numbered : numberIn (numbered c fs) = c * numberIn fs := by
  rw [numbered]
  split
  · rename_i h1
    rw [h1, one_mul]
  · exact numberIn_cons_rat c fs

theorem powersIn_numbered : powersIn (numbered c fs) = powersIn fs := by
  rw [numbered]
  split
  · rfl
  · exact powersIn_cons_rat c fs

theorem mem_numbered {f : Expr} (h : f ∈ numbered c fs) : f = .rat c ∨ f ∈ fs := by
  rw [numbered] at h
  split at h
  · exact .inr h
  · exact List.mem_cons.1 h

/-- A product in which some factor is no sum is not multiplied out. -/
theorem closeProduct_eq_productOf (hc : c ≠ 0) (hu : ∀ f ∈ fs, Unknown f) {f : Expr} (hf : f ∈ fs)
    (ha : f.isAdd = false) :
    closeProduct A (.rat c) fs = productOf (numbered c (sortArgs fs)) := by
  have hmem : f ∈ sortArgs fs := (sortArgs_perm fs).mem_iff.2 hf
  rw [closeProduct_rat hc hu, numbered]
  split
  · rfl
  · split
    · rename_i heq
      rw [heq, List.mem_singleton] at hmem
      rw [hmem] at ha
      cases ha
    · rfl

/-! ## The pole -/

theorem regular_filter (h : BasePowers.Regular env L) :
    BasePowers.Regular env (L.filter fun p => decide (p.2 ≠ 0)) :=
  fun p hp => h p (List.mem_of_mem_filter hp)

theorem value_filter (env : String → R) (L : BasePowers) :
    BasePowers.value env (L.filter fun p => decide (p.2 ≠ 0)) = BasePowers.value env L := by
  induction L with
  | nil => rfl
  | cons p L ih =>
    by_cases h0 : p.2 = 0
    · rw [List.filter_cons_of_neg (by simp [h0]), ih, BasePowers.value_cons, h0, wholePow_zero,
        one_mul]
    · rw [List.filter_cons_of_pos (by simp [h0]), BasePowers.value_cons, BasePowers.value_cons, ih]

/-- **A power times a single pole of its base**: the two are merged before anything is evaluated. -/
theorem denotes_power_mul_pole (hA : A.Exact env) (hb : Defined env b) (hbase : b.isBase = true)
    (hn : 1 ≤ n) (hc : c ≠ 0) (hM : M.Perm ((b, -1) :: L)) (hL : BasePowers.Based env L)
    (hreg : BasePowers.Regular env L) :
    Denotes env (product A [powerForm b n, closeProduct A (.rat c) (written M)])
      (wholePow (value env b) (n - 1) * (algebraMap ℚ R c * BasePowers.value env L)) := by
  have hMb : BasePowers.Based env M :=
    BasePowers.based_of_perm hM.symm (List.forall_mem_cons.2 ⟨⟨hb, hbase⟩, hL⟩)
  have hpole : powerForm b (-1) ∈ written M :=
    List.mem_filterMap.2 ⟨(b, -1), hM.mem_iff.2 List.mem_cons_self, rfl⟩
  have hperm := sortArgs_perm (written M)
  have hpieces : ∀ f ∈ numbered c (sortArgs (written M)), Piece env f := fun f hf => by
    rcases mem_numbered hf with rfl | hf
    · exact .rat c
    · exact piece_written hMb f (hperm.mem_iff.1 hf)
  have hsymbolic : Symbolic (numbered c (sortArgs (written M))) := by
    refine ⟨powerForm b (-1), ?_, isNumber_powerForm hbase⟩
    rw [numbered]
    split
    · exact hperm.mem_iff.2 hpole
    · exact List.mem_cons_of_mem _ (hperm.mem_iff.2 hpole)
  have hfactors := factors_productOf hpieces fun hnil => by
    rw [hnil] at hsymbolic
    exact absurd hsymbolic.choose_spec.1 List.not_mem_nil
  have hquotient : Pieces env (productOf (numbered c (sortArgs (written M)))) := by
    rw [Pieces, hfactors]
    exact hpieces
  have hnumber : numberIn (sortArgs (written M)) = 1 :=
    ((hperm.filterMap _).prod_eq).trans (numberIn_written hMb)
  have hpowers : (powersIn (sortArgs (written M))).Perm
      ((b, -1) :: L.filter fun p => decide (p.2 ≠ 0)) := by
    refine (hperm.filterMap _).trans ?_
    rw [← powersIn, powersIn_written hMb]
    exact (hM.filter _).trans (by rw [List.filter_cons_of_pos (by simp)])
  rw [closeProduct_eq_productOf hc (unknown_written hMb) hpole
      (by rw [powerForm_of_ne_one (by decide)]; rfl),
    product_pair hA (pieces_powerForm hb hbase (by omega)) hquotient (isNumber_powerForm hbase)
      (isNumber_productOf hsymbolic) (ends_powerForm hbase) (ends_productOf hpieces),
    numberIn_append, powersIn_append, hfactors, numberIn_factors_powerForm hbase,
    powersIn_factors_powerForm hbase, numberIn_numbered, powersIn_numbered, hnumber, one_mul,
    mul_one]
  -- the exponents of the base add up to one less
  have hexchange : (merged ([(b, n)] ++ powersIn (sortArgs (written M)))).Perm
      (merged ((b, n - 1) :: L.filter fun p => decide (p.2 ≠ 0))) := by
    refine (merged_perm_of_perm (hpowers.append_left _)).trans (merged_perm ?_ ?_)
    · intro d
      simp
    · intro d
      show total ((b, n) :: (b, -1) :: _) d = _
      rw [total_cons, total_cons, total_cons]
      split <;> omega
  have hbased : BasePowers.Based env ((b, n - 1) :: L.filter fun p => decide (p.2 ≠ 0)) :=
    List.forall_mem_cons.2 ⟨⟨hb, hbase⟩, fun p hp => hL p (List.mem_of_mem_filter hp)⟩
  have hregular : BasePowers.Regular env ((b, n - 1) :: L.filter fun p => decide (p.2 ≠ 0)) :=
    List.forall_mem_cons.2 ⟨regular_of_nonneg (show 0 ≤ n - 1 by omega), regular_filter hreg⟩
  obtain ⟨hmerged, hv⟩ := merged_regular hregular
  refine (denotes_closeProduct_written hA
    (BasePowers.based_of_perm hexchange.symm (based_merged hbased))
    (BasePowers.regular_of_perm hexchange.symm hmerged)).of_eq ?_
  rw [BasePowers.value_perm hexchange, hv, BasePowers.value_cons, value_filter]
  exact mul_left_comm _ _ _

/-- **A power times a quotient by its base** has a value wherever the numerator has one. -/
theorem denotes_power_mul_div (hA : A.Exact env) (he : Defined env e) (hb : Defined env b)
    (hbase : b.isBase = true) (hn : 1 ≤ n) :
    Denotes env (product A [powerForm b n, product A [e, powerForm b (-1)]])
      (wholePow (value env b) (n - 1) * value env e) := by
  obtain ⟨M, hM, hquotient⟩ := product_div hA he hb hbase
  have hpieces : ∀ f ∈ e.factors, Piece env f := pieces_of_defined he
  have hL := based_powersIn hpieces
  obtain ⟨hreg, hv⟩ := value_others b (regular_powersIn he.factors)
  have hvalue := he.prod_factors
  rw [prod_pieces hpieces, hv] at hvalue
  have hothers : BasePowers.Regular env (others b (powersIn e.factors)) :=
    others_regular (regular_powersIn he.factors)
  have hbased : BasePowers.Based env (others b (powersIn e.factors)) := based_others hL
  have hpower := denotes_powerForm (n := n) hb hbase (by omega) (regular_of_nonneg (by omega))
  rw [hquotient, ← hvalue]
  generalize total (powersIn e.factors) b = k at hM hreg
  generalize others b (powersIn e.factors) = L at hM hothers hbased
  generalize numberIn e.factors = c
  have hMb : BasePowers.Based env M :=
    BasePowers.based_of_perm hM.symm (List.forall_mem_cons.2 ⟨⟨hb, hbase⟩, hbased⟩)
  by_cases hk : ErrorBars.Regular (value env b) (-1 + k)
  · -- the quotient is defined
    have hMr : BasePowers.Regular env M :=
      BasePowers.regular_of_perm hM.symm (List.forall_mem_cons.2 ⟨hk, hothers⟩)
    have hmul := denotes_product hA (List.forall_mem_cons.2 ⟨hpower.defined,
      List.forall_mem_singleton.2 (denotes_closeProduct_written (c := c) hA hMb hMr).defined⟩)
    refine hmul.of_eq ?_
    rw [List.map_cons, List.map_singleton, List.prod_cons, List.prod_singleton, hpower.value_eq,
      (denotes_closeProduct_written hA hMb hMr).value_eq, BasePowers.value_perm hM,
      BasePowers.value_cons]
    have hadd : wholePow (value env b) n * wholePow (value env b) (-1 + k) =
        wholePow (value env b) (n - 1) * wholePow (value env b) k := by
      rw [← wholePow_add (regular_of_nonneg (by omega)) hk,
        ← wholePow_add (regular_of_nonneg (by omega)) hreg]
      congr 1
      omega
    rw [mul_left_comm, ← mul_assoc (wholePow _ n), hadd]
    ring
  · by_cases hc : c = 0
    · rw [hc, closeProduct_zero (unknown_written hMb), map_zero, zero_mul, mul_zero]
      refine (denotes_product hA (List.forall_mem_cons.2 ⟨hpower.defined,
        List.forall_mem_singleton.2 (.rat 0)⟩)).of_eq ?_
      simp
    · have hk0 : k = 0 := by
        have hunit : ¬ IsUnit (value env b) := fun h => hk (.inr h)
        have h1 : 0 ≤ k := hreg.resolve_right hunit
        by_contra h0
        exact hk (.inl (by omega))
      rw [hk0, add_zero] at hM
      rw [hk0, wholePow_zero, one_mul]
      exact denotes_power_mul_pole hA hb hbase hn hc hM hbased hothers

end Canonical

end ErrorBars
