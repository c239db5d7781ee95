import ErrorBars.Expr.Simplify.Exponential
import ErrorBars.Proofs.Names.Waves

/-!
# Simpler circular, hyperbolic and exponential functions are over the same variables

Hyperbolic functions are treated as circular functions of marked angles, and parts that are to be
left alone are hidden behind placeholders for a while.  Placeholders are no variables, so all that is
needed is that what is filled in for them is over the variables.
-/

set_option autoImplicit false

namespace ErrorBars.Expr

variable {S : String → Prop} {e : Expr}

/-! ## Circular functions -/

theorem over_simplestTrig {others : List Expr} (he : Over S e) (hothers : OverAll S others) :
    Over S (simplestTrig e others) := by
  unfold simplestTrig
  refine List.foldlRecOn (motive := fun (best : Expr × List Nat) => Over S best.1) _ _ he
    fun best hbest x hx => ?_
  simp only
  split
  · exact hothers x hx
  · exact hbest

/-- A step makes up no variables. -/
def TrigStep.Preserves (S : String → Prop) (step : TrigStep) : Prop :=
  ∀ e, Over S e → Over S (step e)

theorem preserves_anyOfSteps {first other : TrigStep} (hfirst : first.Preserves S)
    (hother : other.Preserves S) : (anyOfSteps first [other]).Preserves S := fun e he =>
  over_simplestTrig (hfirst e he) (by simpa using hother e he)

theorem preserves_stay : stay.Preserves S := fun _ he => he

theorem preserves_factorQuotient : factorQuotient.Preserves S := by
  intro e he
  have hparts := over_numerDenom he
  refine over_factor ?_
  split
  · exact hparts.1
  · exact over_div hparts.1 hparts.2

theorem preserves_trigSteps : ∀ step ∈ trigSteps, step.Preserves S := by
  have hsquares : ∀ {r : SquareRule}, r.Preserves S → TrigStep.Preserves S r.apply :=
    fun hr _ => SquareRule.over_apply hr
  have hchoice : ∀ {step : TrigStep}, step.Preserves S →
      (anyOfSteps stay [step]).Preserves S := preserves_anyOfSteps preserves_stay
  have houter : TrigStep.Preserves S multiplyProducts := fun _ => over_expand
  simp only [trigSteps, List.forall_mem_cons]
  refine ⟨fun _ => over_turnAngles, fun _ => over_secantsToReciprocals,
    fun _ => over_openTangents, fun _ => over_factor, fun _ => over_tangentsToQuotients,
    hchoice fun _ => over_expand, fun _ => over_quotientsToTangents, preserves_factorQuotient,
    fun _ => over_joinConjugates, hsquares preserves_sineSquares, fun _ => over_openAngles,
    fun _ => over_openDoubles, fun _ => over_openSharedDoubles, hsquares preserves_cosineSquares,
    fun _ => over_factor, fun _ => over_joinConjugates, hchoice fun _ => over_expand,
    fun _ => over_joinAngles, fun _ => over_joinDoubledCosines,
    hchoice fun _ => over_productsToSums,
    hchoice fun e he => over_quotientsToTangents (over_tangentsToQuotients he),
    preserves_anyOfSteps (fun e he => houter _ (hsquares preserves_sineSquares e he))
      fun e he => houter _ (SquareRule.over_applyBelow preserves_sineReciprocals he),
    preserves_anyOfSteps (fun e he => houter _ (hsquares preserves_cosineSquares e he))
      fun e he => houter _ (SquareRule.over_applyBelow preserves_cosineReciprocals he),
    fun _ => over_reciprocalsToSecants, hchoice fun _ => over_quotientsToTangents,
    hchoice fun e he => houter _ (hsquares preserves_cotangentSquares _
      (hsquares preserves_tangentSquares e he)),
    fun _ => over_secantsToReciprocals, fun _ => over_tangentsToQuotients,
    fun _ => over_quotientsToTangents,
    hchoice fun e he => over_factorTerms (over_openTangents he),
    fun _ h => absurd h List.not_mem_nil⟩

theorem over_circularStep (he : Over S e) : Over S (circularStep e) := by
  have hsteps : ∀ inner, Over S inner →
      Over S (trigSteps.foldl (fun acc step => step acc) inner) := fun inner hinner =>
    over_foldl hinner fun e he step hstep => preserves_trigSteps step hstep e he
  unfold circularStep
  generalize trigSteps = steps at hsteps
  have hclose : ∀ outer inner, Over S outer → Over S inner →
      Over S (if outer == one then
        simplestTrig inner [steps.foldl (fun acc step => step acc) inner]
        else outer * simplestTrig inner [steps.foldl (fun acc step => step acc) inner]) := by
    intro outer inner houter hinner
    have hbest : Over S (simplestTrig inner [steps.foldl (fun acc step => step acc) inner]) :=
      over_simplestTrig hinner (by simpa using hsteps inner hinner)
    split
    · exact hbest
    · exact over_mul houter hbest
  split
  · exact he
  · simp -zeta only
    split
    · have hfs := over_app.1 he
      exact hclose _ _ (over_product (overAll_filter hfs)) (over_product (overAll_filter hfs))
    · exact hclose _ _ over_one he

/-! ## Hyperbolic functions -/

theorem over_markAngle (he : Over S e) : Over S (markAngle e) := by
  have hmark : Over S hyperbolicMark := over_dummy _
  unfold markAngle
  split
  · exact over_sum (overAll_map fun t ht => over_mul (over_app.1 he t ht) hmark)
  · exact over_mul he hmark

theorem over_hyperbolicToCircular (he : Over S e) : Over S (hyperbolicToCircular e) := by
  refine over_bottomUp (fun e he => ?_) he
  split
  · have hx := over_app.1 he
    simp only [overAll_cons] at hx
    have hcircular : ∀ (f : Func) (x : Expr), Over S x → Over S (apply f [markAngle x]) :=
      fun f x hx => over_apply_single (over_markAngle hx)
    split
    · exact over_mul over_imaginary (hcircular _ _ hx.1)
    · exact hcircular _ _ hx.1
    · exact over_mul over_imaginary (hcircular _ _ hx.1)
    · exact over_div (hcircular _ _ hx.1) over_imaginary
    · exact hcircular _ _ hx.1
    · exact over_div (hcircular _ _ hx.1) over_imaginary
    · exact he
  · exact he

@[grind ←] theorem over_fill {name : String} {value : Expr} (hvalue : Over S value)
    (he : Over S e) : Over S (fill name value e) := by
  refine over_foldUp (fun l hl => ?_) (fun h as has => over_rebuild has) _ he
  split
  · exact hvalue
  · exact hl

theorem over_unmarkAngle (he : Over S e) : Over S (unmarkAngle e) := by
  have hts := overAll_terms he
  exact over_add (over_fill over_one (over_sum (overAll_filter hts)))
    (over_mul (over_sum (overAll_filter hts)) over_imaginary)

theorem over_circularToHyperbolic (he : Over S e) : Over S (circularToHyperbolic e) := by
  refine over_bottomUp (fun e he => ?_) he
  split
  · have hy := over_app.1 he
    simp only [overAll_cons] at hy
    have hhyperbolic : ∀ (f : Func) (x : Expr), Over S x → Over S (apply f [unmarkAngle x]) :=
      fun f x hx => over_apply_single (over_unmarkAngle hx)
    split
    · split
      · exact over_div (hhyperbolic _ _ hy.1) over_imaginary
      · exact hhyperbolic _ _ hy.1
      · exact over_div (hhyperbolic _ _ hy.1) over_imaginary
      · exact over_mul over_imaginary (hhyperbolic _ _ hy.1)
      · exact hhyperbolic _ _ hy.1
      · exact over_mul over_imaginary (hhyperbolic _ _ hy.1)
      · exact he
    · exact he
  · exact he

mutual

theorem over_gatherImaginary : ∀ {e : Expr}, Over S e → Over S (gatherImaginary e)
  | .app h as, he => by
    have has := over_app.1 he
    have hall : OverAll S (gatherImaginaryAll as) := overAll_gatherImaginaryAll has
    unfold gatherImaginary
    split
    · rename_i happ
      obtain ⟨rfl, rfl⟩ := Expr.app.inj happ
      have hsum := over_sum hall
      split
      · rename_i heq
        rw [heq] at hsum
        have hus := over_app.1 hsum
        refine over_add (over_mul over_imaginary (over_sum (overAll_map fun t ht => ?_)))
          (over_sum (overAll_filter hus))
        exact over_product (overAll_filter (overAll_factors (overAll_filter hus t ht)))
      · exact hsum
    · rename_i happ
      obtain ⟨rfl, rfl⟩ := Expr.app.inj happ
      exact over_product hall
    · rename_i happ
      obtain ⟨rfl, rfl⟩ := Expr.app.inj happ
      simp only [gatherImaginaryAll, overAll_cons] at has hall
      exact over_power hall.1 has.2.1
    · exact he
  | .rat _, he | .float _ _, he | .const _, he | .symbol _, he | .dummy _, he => he

theorem overAll_gatherImaginaryAll :
    ∀ {es : List Expr}, OverAll S es → OverAll S (gatherImaginaryAll es)
  | [], _ => overAll_nil
  | _ :: _, hes =>
    overAll_cons.2 ⟨over_gatherImaginary (overAll_cons.1 hes).1,
      overAll_gatherImaginaryAll (overAll_cons.1 hes).2⟩

end

theorem over_hide {parts : List (Expr × String)} (he : Over S e) : Over S (hide parts e) := by
  refine over_foldl he fun e he p _ => over_bottomUp (fun x hx => ?_) he
  split
  · exact over_dummy _
  · exact hx

theorem over_onHyperbolic {step : Expr → Expr} (hstep : ∀ e, Over S e → Over S (step e))
    (he : Over S e) : Over S (onHyperbolic step e) := by
  have hnamed : FirstsOver S ((e.partsWith isCircular).zipIdx.map
      fun p => (p.1, "part" ++ toString p.2)) :=
    firstsOver_map fun p hp => over_partsWith he p.1 (List.fst_mem_of_mem_zipIdx hp)
  unfold onHyperbolic
  refine over_gatherImaginary (over_settleSigns (over_foldl ?_ fun e he p hp =>
    over_fill (hnamed p hp) he))
  exact over_circularToHyperbolic (hstep _ (over_hyperbolicToCircular (over_hide he)))

/-! ## The whole -/

theorem over_spreadNumber (he : Over S e) : Over S (spreadNumber e) := by
  unfold spreadNumber
  split
  · have hts := over_app.1 he
    simp only [overAll_cons] at hts
    exact over_mul (over_rat _) hts.2.1
  · exact he

@[grind ←] theorem over_trigSimplify (he : Over S e) : Over S (trigSimplify e) := by
  have hcircular : ∀ e, Over S e → Over S (e.bottomUp circularStep) := fun _ he =>
    over_bottomUp (fun _ => over_circularStep) he
  unfold trigSimplify
  extract_lets s t
  have ht : Over S t := by
    simp only [t]
    split
    · exact over_onHyperbolic hcircular (hcircular e he)
    · exact hcircular e he
  split
  · exact he
  · exact over_spreadNumber ht

/-! ## Exponentials -/

theorem over_exponentialsToHyperbolic (he : Over S e) : Over S (exponentialsToHyperbolic e) := by
  refine over_bottomUp (fun e he => ?_) he
  split
  · have hx := over_app.1 he
    simp only [overAll_cons] at hx
    exact over_add (over_apply_single hx.1) (over_apply_single hx.1)
  · exact he

theorem over_hyperbolicToExponentials (he : Over S e) : Over S (hyperbolicToExponentials e) := by
  refine over_bottomUp (fun e he => ?_) he
  split
  · rename_i f x
    have hx := over_app.1 he
    simp only [overAll_cons] at hx
    have hplus : Over S (apply .exp [x]) := over_apply_single hx.1
    have hminus : Over S (apply .exp [-x]) := over_apply_single (over_neg hx.1)
    have htwo : Over S (int 2) := over_int 2
    extract_lets plus minus
    have hsum : Over S (plus + minus) := over_add hplus hminus
    have hdifference : Over S (plus - minus) := over_sub hplus hminus
    split
    · exact over_div hdifference htwo
    · exact over_div hsum htwo
    · exact over_div hdifference hsum
    · exact over_div hsum hdifference
    · exact over_div htwo hsum
    · exact over_div htwo hdifference
    · exact he
  · exact he

theorem over_chooseExponentials (he : Over S e) : Over S (chooseExponentials e) := by
  refine over_shortest he (overAll_append.2 ⟨?_, ?_⟩)
  · split
    · simpa using over_hyperbolicToExponentials he
    · exact overAll_nil
  · split
    · simpa using over_exponentialsToHyperbolic he
    · exact overAll_nil

theorem over_mulTable {t : PowerTable} {b x : Expr} (ht : PairsOver S t) (hb : Over S b)
    (hx : Over S x) : PairsOver S (t.mul b x) := by
  unfold PowerTable.mul
  split
  · refine pairsOver_map fun p hp => ?_
    split
    · exact ⟨(ht p hp).1, over_add (ht p hp).2 hx⟩
    · exact ht p hp
  · exact pairsOver_append.2 ⟨ht, by simp [hb, hx]⟩

theorem over_signedExponent {r : Bool × Expr} (h : signedExponent? e = some r) (he : Over S e) :
    Over S r.2 := by
  unfold signedExponent? at h
  extract_lets exponent at h
  have hexponent : ∀ e v, exponent e = some v → Over S e → Over S v := by
    intro e v hv he
    simp only [exponent] at hv
    split at hv
    · exact Option.some.inj hv ▸ over_one
    · have hx := over_app.1 he
      simp only [overAll_cons] at hx
      exact Option.some.inj hv ▸ hx.1
    · exact absurd hv (by simp)
  clear_value exponent
  split at h
  · rename_i heq
    exact Option.some.inj h ▸ hexponent _ _ heq he
  · obtain ⟨v, hv, rfl⟩ := Option.map_eq_some_iff.1 h
    exact hexponent _ _ hv (over_neg he)

theorem over_gatherBase {t : PowerTable} {b x : Expr} (ht : PairsOver S t) (hb : Over S b)
    (hx : Over S x) : PairsOver S (gatherBase t b x) := by
  unfold gatherBase
  split
  · rename_i c d
    have hparts := over_app.1 hb
    simp only [overAll_cons] at hparts
    obtain ⟨hc, hd, -⟩ := hparts
    split
    · exact ht
    · rename_i negative y hsigned
      have hy : Over S y := over_signedExponent hsigned (over_div hd hc)
      have hhalf : Over S (y / int 2) := over_div hy (over_int _)
      have hfn : ∀ f : Func, Over S (apply f [y / int 2]) := fun f => over_apply_single hhalf
      have hexp : Over S (apply .exp [y]) := over_apply_single hy
      have hwithout : ∀ {t : PowerTable} {p : Expr × Expr → Bool}, PairsOver S t →
          PairsOver S (t.filter p) := fun ht q hq => ht q (List.mem_filter.1 hq).1
      extract_lets grown opposite rest half left value left' value' unit
      have hrest : PairsOver S rest := hwithout ht
      split
      · refine over_mulTable (hwithout hrest) ?_ hx
        simp only [value]
        split
        · exact over_mul (over_mul (over_int _) hc) (hfn _)
        · exact over_mul (over_mul (over_int _) hc) (hfn _)
      · split
        · refine over_mulTable (hwithout hrest) ?_ hx
          simp only [value']
          split
          · exact over_mul (over_neg hc) (hfn _)
          · exact over_div (over_neg hc) (hfn _)
        · refine over_mulTable (over_mulTable hrest (over_add over_one ?_) hx) hc hx
          split
          · exact over_neg hexp
          · exact hexp
  · exact ht

theorem over_gatherExponentials (he : Over S e) : Over S (gatherExponentials e) := by
  unfold gatherExponentials
  split
  · extract_lets powers gathered
    have hpowers : PairsOver S powers :=
      List.foldlRecOn _ _ pairsOver_nil fun t ht f hf =>
        over_mulTable ht (over_baseExp (over_app.1 he f hf)).1
          (over_baseExp (over_app.1 he f hf)).2
    have hgathered : PairsOver S gathered := List.foldlRecOn _ _ hpowers fun t ht p hp => by
      split
      · exact over_gatherBase ht (hpowers p hp).1 (hpowers p hp).2
      · exact ht
    exact over_product (overAll_map fun p hp => over_power (hgathered p hp).1 (hgathered p hp).2)
  · exact he

@[grind ←] theorem over_simplifyExponentials (he : Over S e) :
    Over S (simplifyExponentials e) := by
  have hgathered : Over S ((e.bottomUp chooseExponentials).bottomUp gatherExponentials) :=
    over_bottomUp (fun _ => over_gatherExponentials)
      (over_bottomUp (fun _ => over_chooseExponentials) he)
  unfold simplifyExponentials
  extract_lets s t u
  have ht : Over S t := by
    simp only [t]
    split
    · exact over_onHyperbolic (fun _ => over_quotientsToTangents) hgathered
    · exact hgathered
  have hu : Over S u := by
    simp only [u]
    split
    · exact over_quotientsToTangents ht
    · exact ht
  split
  · exact he
  · exact hu

end ErrorBars.Expr
