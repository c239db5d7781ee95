import ErrorBars.Proofs.Exact.Cancel
import ErrorBars.Proofs.Exact.Content
import ErrorBars.Proofs.Exact.JoinPowers

/-!
# Simplifying keeps values

`simplify` is a composition of steps that keep values, with the shortest of several forms chosen
here and there.  No function occurs in an expression with an exact value, so that the steps for
functions are passed over (`simplifyFunctions_eq`), and the recursion into the arguments of
functions finds nothing (`mapInsideFunctions_eq`).  Which form is chosen in the end depends on how
long the forms are, and does not matter: all of them have the value that is asked for.
-/

set_option autoImplicit false

namespace ErrorBars.Expr

variable {env : String → ℚ} {e : Expr} {r : ℚ}

/-! ## Steps -/

theorem keepsValue_settleQuotient : KeepsValue env settleQuotient := by
  rintro e r ⟨h, rfl⟩
  have hratio := ratio_fraction h
  rw [settleQuotient]
  split
  · dsimp only
    split
    · exact h.denotes
    · refine keepsValue_settleSigns ((hratio.above.denotes.neg.quotient hratio.below.denotes.neg
        (neg_ne_zero.2 hratio.ne_zero)).of_eq ?_)
      rw [neg_div_neg_eq, hratio.value_eq]
  · exact h.denotes

theorem keepsValue_shortestQuotient : KeepsValue env shortestQuotient := by
  intro e r he
  have hfraction := keepsValue_bottomUp keepsValue_asFraction he
  have hsplits := splits_contentPrimitive true (keepsValue_joinPowers .all false hfraction).defined
  have hproduct := ((denotes_number _).mul hsplits.defined.denotes).of_eq hsplits.value_eq
  rw [(keepsValue_joinPowers .all false hfraction).value_eq] at hproduct
  have hcancelled := keepsValue_cancel hproduct
  have hexpanded := denotes_shortest hcancelled (List.forall_mem_singleton.2
    (keepsValue_cancel (keepsValue_expand Expansion.algebraic hcancelled)))
  have hjoined := denotes_shortest (keepsValue_together hproduct)
    (List.forall_mem_singleton.2 (keepsValue_together hexpanded))
  exact keepsValue_factorTerms false (denotes_shortest hjoined
    (List.forall_mem_cons.2 ⟨hexpanded, List.forall_mem_singleton.2 hproduct⟩))

theorem keepsValue_shortestProduct : KeepsValue env shortestProduct := by
  intro e r he
  have hjoined := denotes_shortest (keepsValue_joinPowers .exponents true he)
    (List.forall_mem_cons.2 ⟨keepsValue_joinPowers .all false he, List.forall_mem_singleton.2 he⟩)
  have hcancelled := denotes_shortest hjoined
    (List.forall_mem_singleton.2 (keepsValue_cancel hjoined))
  exact denotes_shortest hcancelled (List.forall_mem_cons.2
    ⟨keepsValue_factorTerms true hcancelled, List.forall_mem_singleton.2
      (keepsValue_expand _ (keepsValue_expand Expansion.productsOnly hcancelled))⟩)

/-- Without functions there is only the shortest form of powers and products. -/
theorem simplifyFunctions_eq (h : Defined env e) : simplifyFunctions e = shortestProduct e := by
  have hcircular : ∀ {e}, Defined env e → (e.hasCircular || e.hasHyperbolic) = false := fun he => by
    rw [hasCircular, hasHyperbolic, he.hasFn_eq_false, he.hasFn_eq_false, Bool.or_self]
  have hproduct := (keepsValue_shortestProduct h.denotes).defined
  rw [simplifyFunctions, hcircular h, if_neg Bool.false_ne_true,
    h.hasFn_eq_false, if_neg Bool.false_ne_true, h.hasFn_eq_false, if_neg Bool.false_ne_true,
    hcircular hproduct, hproduct.hasFn_eq_false, Bool.or_self, if_neg Bool.false_ne_true]

/-! ## The whole -/

/-- **Looking for a shorter form keeps the value.** -/
theorem keepsValue_simplifyTo (fuel : ℕ) : KeepsValue env (simplifyTo fuel) := by
  induction fuel with
  | zero => exact keepsValue_id
  | succ fuel ih =>
    intro e r he
    have hbefore := keepsValue_joinAbsolutes (keepsValue_settleSigns he)
    have hquotient := keepsValue_shortestQuotient hbefore
    have hproduct := keepsValue_shortestProduct hquotient
    have hafter := keepsValue_settleQuotient
      (keepsValue_clearRoot (keepsValue_spreadNumbers hproduct))
    rw [simplifyTo]
    split
    · rename_i hzero
      exact denotes_zero.of_eq (he.eq_zero hzero).symm
    · -- every test for functions fails, so that only the steps for quotients and products are left
      dsimp only
      rw [mapInsideFunctions_eq _ hbefore.defined, settleAbsolutes_eq hbefore.defined,
        hquotient.defined.hasFn_eq_false, if_neg Bool.false_ne_true,
        hquotient.defined.hasBranches_eq_false, if_neg Bool.false_ne_true, simplifyFunctions_eq hquotient.defined]
      split
      · exact hbefore
      · split
        · rw [settleAbsolutes_eq hbefore.defined]
          exact hbefore
        · rw [settleAbsolutes_eq hafter.defined]
          exact hafter

/-- **Simplifying keeps the value.** -/
theorem keepsValue_simplify : KeepsValue env simplify := fun e _ h =>
  keepsValue_simplifyTo (e.size + 2) h

end ErrorBars.Expr
