import ErrorBars.Expr.Simplify.Absolute
import ErrorBars.Expr.Simplify.Expand
import ErrorBars.Expr.Simplify.Sign
import ErrorBars.Proofs.Names.Fraction

/-!
# Expansions are over the same variables

Signs, expansions, absolute values and roots below the line, and the shortest of several forms.
-/

set_option autoImplicit false

namespace ErrorBars.Expr

variable {S : String → Prop} {e : Expr}

/-! ## Signs -/

theorem over_liftMinus (he : Over S e) : Over S (liftMinus e) := by
  unfold liftMinus
  split
  · rename_i ts
    have hneg := over_neg he
    split
    · split
      · rename_i heq
        rw [heq] at hneg
        exact over_rawMul_pair.2 ⟨over_minusOne, hneg⟩
      · exact he
    · exact he
  · exact he

theorem over_lowerMinus (he : Over S e) : Over S (lowerMinus e) := by
  unfold lowerMinus
  split
  · have has := over_app.1 he
    simp only [overAll_cons] at has
    split
    · exact over_neg has.2.1
    · exact he
  · exact he

@[grind ←] theorem over_settleSigns (he : Over S e) : Over S (settleSigns e) := by
  have hsettle : ∀ e, Over S e → Over S ((e.bottomUp liftMinus).bottomUp lowerMinus) :=
    fun e he => over_bottomUp (fun _ => over_lowerMinus) (over_bottomUp (fun _ => over_liftMinus) he)
  have hwhole := hsettle e he
  unfold settleSigns
  extract_lets settle
  split
  · rename_i ts heq
    have hwhole : Over S (settle e) := hwhole
    rw [heq] at hwhole
    exact over_sum (overAll_map fun t ht => hsettle t (over_app.1 hwhole t ht))
  · exact hwhole

/-! ## The shortest form -/

@[grind ←] theorem over_shortest {others : List Expr} (he : Over S e)
    (hothers : OverAll S others) : Over S (shortest e others) := by
  unfold shortest
  refine List.foldlRecOn (motive := fun (best : Expr × Nat) => Over S best.1) _ _ he fun best hbest x hx => ?_
  simp only
  split
  · exact hothers x hx
  · exact hbest

/-! ## Expansions -/

@[grind ←] theorem over_expandFactors {fs : List Expr} (hfs : OverAll S fs) :
    Over S (expandFactors fs) := by
  have hplain : Over S (product (fs.filter fun f => !f.isAdd)) :=
    over_product (overAll_filter hfs)
  have hbody : Over S ((fs.filter isAdd).foldl (fun acc s =>
      sum (acc.terms.flatMap fun t => s.terms.map fun u => t * u)) one) :=
    over_foldl over_one fun acc hacc s hs => over_sum (overAll_flatMap fun t ht =>
      overAll_map fun u hu => over_mul (overAll_terms hacc t ht)
        (overAll_terms (overAll_filter hfs s hs) u hu))
  unfold expandFactors
  extract_lets sums plain count body
  split
  · exact over_product hfs
  · exact over_sum (overAll_map fun t ht => over_mul hplain (overAll_terms hbody t ht))

theorem over_expandPower {b : Expr} (hb : Over S b) :
    ∀ {fuel n : Nat}, Over S (expandPower b fuel n)
  | 0, _ => over_one
  | fuel + 1, n => by
    have hhalf : Over S (expandPower b fuel (n / 2)) := over_expandPower hb
    have hsquare : Over S (expandFactors [expandPower b fuel (n / 2),
      expandPower b fuel (n / 2)]) := over_expandFactors (by simp [hhalf])
    unfold expandPower
    split
    · exact over_one
    · split
      · exact hb
      · simp only
        split
        · exact hsquare
        · exact over_expandFactors (by simp [hsquare, hb])

theorem over_expandQuotient (he : Over S e) : Over S (expandQuotient e) := by
  have hparts := over_fraction he
  unfold expandQuotient
  split
  · simp only
    split
    · have hquotient := over_div (over_expandFactors (overAll_factors hparts.1))
        (over_expandFactors (overAll_factors hparts.2))
      split
      · rename_i heq
        rw [heq] at hquotient
        exact over_expandFactors (over_app.1 hquotient)
      · exact hquotient
    · exact over_expandFactors (over_app.1 he)
  · exact he

theorem over_expandSumPower {b : Expr} {q : Rat} (hb : Over S b) : Over S (expandSumPower b q) := by
  unfold expandSumPower
  extract_lets n whole part value
  have hvalue : Over S value := by
    simp only [value]
    split
    · exact over_expandPower hb
    · exact over_sum (overAll_map fun t ht =>
        over_mul (overAll_terms (over_expandPower hb) t ht) (over_power hb (over_rat _)))
  split
  · exact over_power hb (over_rat _)
  · split
    · exact over_inv hvalue
    · exact hvalue

theorem over_expandLog (he : Over S e) : Over S (expandLog e) := by
  have hlog : ∀ x, Over S x → Over S (apply .log [x]) := fun _ => over_apply_single
  unfold expandLog
  split
  · split
    · split
      · exact over_mul (over_int _) (hlog _ (over_int _))
      · exact hlog _ he
    · exact over_sub (hlog _ (over_int _)) (hlog _ (over_int _))
  · rename_i fs
    have hfs := over_app.1 he
    simp only
    split
    · exact hlog _ he
    · refine over_sum ?_
      simp only [overAll_append, overAll_cons]
      refine ⟨⟨overAll_map fun f hf => hlog f (overAll_filter hfs f hf),
        overAll_map fun f hf => hlog _ (over_neg (overAll_filter hfs f hf))⟩,
        hlog _ (over_product (overAll_append.2
          ⟨overAll_filter hfs, overAll_map fun _ _ => over_minusOne⟩)), overAll_nil⟩
  · have has := over_app.1 he
    simp only [overAll_cons] at has
    split
    · exact over_mul has.2.1 (hlog _ has.1)
    · exact hlog _ he
  · exact hlog _ he

theorem over_expandNode {laws : Expansion} (he : Over S e) : Over S (expandNode laws e) := by
  unfold expandNode
  split
  · have hproduct := over_product (over_app.1 he)
    split
    · split
      · rename_i heq
        rw [heq] at hproduct
        exact over_expandQuotient hproduct
      · exact hproduct
    · exact he
  · have has := over_app.1 he
    simp only [overAll_cons, over_app] at has
    split
    · exact over_product (overAll_map fun t ht => over_power has.1 (has.2.1 t ht))
    · exact he
  · have has := over_app.1 he
    simp only [overAll_cons] at has
    split
    · exact over_expandSumPower has.1
    · exact he
  · have has := over_app.1 he
    simp only [overAll_cons, over_app] at has
    split
    · exact over_product (overAll_map fun t ht => over_apply_single (has.1 t ht))
    · exact he
  · have has := over_app.1 he
    simp only [overAll_cons] at has
    split
    · exact over_expandLog has.1
    · exact he
  · exact he

@[grind ←] theorem over_expand {laws : Expansion} (he : Over S e) : Over S (expand laws e) :=
  over_bottomUp (fun _ => over_expandNode) he

/-! ## Absolute values -/

@[grind →] theorem over_insideAbsolute {v : Expr} (h : insideAbsolute? e = some v)
    (he : Over S e) : Over S v := by
  unfold insideAbsolute? at h
  grind

theorem over_joinFactorAbsolutes {fs : List Expr} (hfs : OverAll S fs) (he : Over S e) :
    Over S (joinFactorAbsolutes fs e) := by
  have hinside : Over S (product (fs.filterMap insideAbsolute?)) :=
    over_product (overAll_filterMap fun f hf v hv => over_insideAbsolute hv (hfs f hf))
  have hsize : Over S (apply .abs [product (fs.filterMap insideAbsolute?)]) :=
    over_apply_single hinside
  have hothers : OverAll S (fs.filter fun f => (insideAbsolute? f).isNone) := overAll_filter hfs
  unfold joinFactorAbsolutes
  simp only
  split
  · exact he
  · split
    · exact over_product (overAll_cons.2 ⟨hsize, hothers⟩)
    · refine over_productOf (overAll_sortArgs (overAll_cons.2 ⟨?_, hothers⟩))
      split
      · exact hsize
      · exact over_rawFn_single.2 hinside

@[grind ←] theorem over_joinAbsolutes (he : Over S e) : Over S (joinAbsolutes e) := by
  unfold joinAbsolutes
  refine over_bottomUp (fun e he => ?_) (over_bottomUp (fun e he => ?_) he)
  · split
    · exact over_joinFactorAbsolutes (by simp [over_app.1 he]) he
    · exact he
  · split
    · exact over_joinFactorAbsolutes (over_app.1 he) he
    · exact he

@[grind ←] theorem over_settleAbsolutes (he : Over S e) : Over S (settleAbsolutes e) := by
  unfold settleAbsolutes
  grind

/-! ## Roots below the line -/

@[grind ←] theorem over_clearRoot (he : Over S e) : Over S (clearRoot e) := by
  have hparts := over_numerDenom he
  unfold clearRoot
  simp only
  split
  · split
    · split
      · exact he
      · have hconjugate : ∀ q r c : Rat, Over S (fraction (factorTerms true
            (.rat q + .rat r * sqrt (.rat c)))).1 ∧ Over S (fraction (factorTerms true
              (.rat q + .rat r * sqrt (.rat c)))).2 := fun q r c =>
          over_fraction (over_factorTerms (over_add (over_rat q)
            (over_mul (over_rat r) (over_sqrt (over_rat c)))))
        exact over_div (over_expand (over_mul hparts.1 (hconjugate _ _ _).1)) (hconjugate _ _ _).2
    · exact he
  · exact he

end ErrorBars.Expr
