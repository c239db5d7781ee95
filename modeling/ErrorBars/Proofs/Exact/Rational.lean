import ErrorBars.Expr.Simplify
import ErrorBars.Proofs.Exact.Canonical

/-!
# Exact values in the rational numbers

At a point with rational coordinates a quotient has a value where the denominator is not zero, and
a power with a negative exponent where the base is not zero.  Here the operations of expressions
are put into that form, together with what is common to all steps that look for a shorter form: no
function occurs in a defined expression (`Defined.any_eq_false`), so that the steps for functions
change nothing, and of several forms with the same value the shortest one has it too
(`denotes_shortest`).
-/

set_option autoImplicit false

namespace ErrorBars.Expr

variable {env : String → ℚ} {a b e : Expr} {es : List Expr} {r s q : ℚ} {n : ℤ}

/-! ## Operations -/

theorem denotes_number (q : ℚ) : Denotes env (.rat q) q := denotes_rat q

theorem value_number (env : String → ℚ) (q : ℚ) : value env (.rat q) = q := value_rat env q

theorem regular_iff : Regular r n ↔ 0 ≤ n ∨ r ≠ 0 := by
  rw [Regular, isUnit_iff_ne_zero]

theorem Denotes.zpow (ha : Denotes env a r) (h : 0 ≤ n ∨ r ≠ 0) :
    Denotes env (power a (int n)) (r ^ n) :=
  (ha.whole (regular_iff.2 h)).of_eq (wholePow_rat r n)

theorem Denotes.quotient (ha : Denotes env a r) (hb : Denotes env b s) (hs : s ≠ 0) :
    Denotes env (a / b) (r / s) :=
  ha.div hb (IsUnit.mk0 s hs) (div_mul_cancel₀ r hs)

theorem Denotes.reciprocal (ha : Denotes env a r) (h : r ≠ 0) : Denotes env (Expr.inv a) r⁻¹ :=
  (ha.inv (IsUnit.mk0 r h)).of_eq (Ring.inverse_eq_inv r)

theorem Denotes.scaled (h : Denotes env e r) : Denotes env (Expr.keepCoeff (.rat q) e) (q * r) :=
  h.keepCoeff

/-- The number in front of an expression, and what remains. -/
theorem Defined.numberInFront (h : Defined env e) :
    ∃ q m, e.coeffMul = (.rat q, m) ∧ Defined env m ∧ value env e = q * value env m ∧
      (m = one ∨ m.isNumber = false) ∧ (e.isNumber = false → m.isNumber = false) := h.coeffMul

/-! ## No functions -/

/-- **No part of a defined expression** is of a kind that neither numbers and variables nor sums,
products and powers are of. -/
theorem Defined.any_eq_false {p : Expr → Bool} (h : Defined env e)
    (hrat : ∀ q, p (.rat q) = false) (hsymbol : ∀ s, p (.symbol s) = false)
    (happ : ∀ k es, k = .add ∨ k = .mul ∨ k = .pow → p (.app k es) = false) : e.any p = false := by
  have hnode : ∀ {k : Head} {es : List Expr}, k = .add ∨ k = .mul ∨ k = .pow →
      (∀ e ∈ es, e.any p = false) → (Expr.app k es).any p = false := fun {k es} hk hes => by
    rw [any, happ k es hk, anyOf_eq, Bool.false_or, List.any_eq_false]
    exact fun e he => by rw [hes e he]; exact Bool.false_ne_true
  induction h with
  | rat q => exact hrat q
  | symbol s => exact hsymbol s
  | add ts _ _ ih => exact hnode (.inl rfl) ih
  | mul fs _ _ _ ih => exact hnode (.inr (.inl rfl)) ih
  | pow b n _ _ _ _ _ ih =>
    refine hnode (.inr (.inr rfl)) fun e he => ?_
    rcases List.mem_cons.1 he with rfl | he
    · exact ih
    · rw [List.mem_singleton.1 he]
      exact hrat n

theorem Defined.hasFn_eq_false (h : Defined env e) (fs : List Func) : e.hasFn fs = false :=
  h.any_eq_false (fun _ => rfl) (fun _ => rfl) fun _ _ hk => by
    rcases hk with rfl | rfl | rfl <;> rfl

theorem Defined.hasBranches_eq_false (h : Defined env e) : e.hasBranches = false :=
  h.any_eq_false (fun _ => rfl) (fun _ => rfl) fun _ _ hk => by
    rcases hk with rfl | rfl | rfl <;> rfl

theorem Defined.insideAbsolute?_eq_none (h : Defined env e) : insideAbsolute? e = none := by
  cases h with
  | rat | symbol | add | mul => rfl
  | pow b n base kind =>
    obtain ⟨s, rfl⟩ | ⟨ts, rfl⟩ := cases_of_isBase kind <;> rfl

/-! ## Steps that change nothing -/

theorem keepsValue_of_eq {f : Expr → Expr} (hf : ∀ {e}, Defined env e → f e = e) :
    KeepsValue env f := fun e r h => by
  rw [hf h.defined]
  exact h

theorem Defined.joinFactorAbsolutes_eq (h : ∀ e ∈ es, Defined env e) (e : Expr) :
    joinFactorAbsolutes es e = e := by
  have hnone : es.filterMap insideAbsolute? = [] :=
    List.filterMap_eq_nil_iff.2 fun f hf => (h f hf).insideAbsolute?_eq_none
  rw [joinFactorAbsolutes, hnone]
  rfl

theorem keepsValue_joinAbsolutes : KeepsValue env joinAbsolutes := by
  refine (keepsValue_bottomUp (keepsValue_of_eq fun {e} h => ?_)).comp
    (keepsValue_bottomUp (keepsValue_of_eq fun {e} h => ?_))
  · split
    · exact Defined.joinFactorAbsolutes_eq (List.forall_mem_singleton.2 h) _
    · rfl
  · split
    · exact Defined.joinFactorAbsolutes_eq (fun f hf => (h.mul_mem.1 f hf).1) _
    · rfl

theorem settleAbsolutes_eq (h : Defined env e) : settleAbsolutes e = e := by
  rw [settleAbsolutes, h.hasFn_eq_false]
  rfl

theorem mapInsideFunctionsAll_eq (f : Expr → Expr) (es : List Expr) :
    mapInsideFunctionsAll f es = es.map (mapInsideFunctions f) := by
  induction es with
  | nil => rfl
  | cons e es ih => rw [mapInsideFunctionsAll, ih, List.map_cons]

/-- There are no functions whose arguments could change. -/
theorem mapInsideFunctions_eq (f : Expr → Expr) (h : Defined env e) :
    mapInsideFunctions f e = e := by
  have hnode : ∀ {k : Head} {es : List Expr}, k = .add ∨ k = .mul ∨ k = .pow →
      (∀ e ∈ es, mapInsideFunctions f e = e) →
      mapInsideFunctions f (.app k es) = .app k es := fun {k es} hk hes => by
    have hall : mapInsideFunctionsAll f es = es := by
      rw [mapInsideFunctionsAll_eq]
      conv_rhs => rw [← List.map_id es]
      exact List.map_congr_left hes
    rcases hk with rfl | rfl | rfl <;>
    · rw [mapInsideFunctions, hall]
      exact if_pos (beq_self_eq_true es)
  induction h with
  | rat q => rfl
  | symbol s => rfl
  | add ts _ _ ih => exact hnode (.inl rfl) ih
  | mul fs _ _ _ ih => exact hnode (.inr (.inl rfl)) ih
  | pow b n _ _ _ _ _ ih =>
    refine hnode (.inr (.inr rfl)) fun e he => ?_
    rcases List.mem_cons.1 he with rfl | he
    · exact ih
    · rw [List.mem_singleton.1 he]
      rfl

/-! ## The shortest form -/

theorem shortest_mem (first : Expr) (others : List Expr) :
    shortest first others ∈ first :: others := by
  have hfold : ∀ (es : List Expr) (best : Expr × ℕ),
      (es.foldl (fun (best : Expr × ℕ) e =>
        if e.opCount < best.2 then (e, e.opCount) else best) best).1 ∈ best.1 :: es := by
    intro es
    induction es with
    | nil => exact fun best => List.mem_cons_self
    | cons e es ih =>
      intro best
      rw [List.foldl_cons]
      split
      · exact List.mem_cons_of_mem _ (ih (e, e.opCount))
      · rcases List.mem_cons.1 (ih best) with h | h
        · exact List.mem_cons.2 (.inl h)
        · exact List.mem_cons_of_mem _ (List.mem_cons_of_mem _ h)
  exact hfold others (first, first.opCount)

/-- **Of several forms with the same value the shortest one has it too.** -/
theorem denotes_shortest (h : Denotes env a r) (hes : ∀ e ∈ es, Denotes env e r) :
    Denotes env (shortest a es) r := by
  rcases List.mem_cons.1 (shortest_mem a es) with heq | hmem
  · rw [heq]
    exact h
  · exact hes _ hmem

end ErrorBars.Expr
