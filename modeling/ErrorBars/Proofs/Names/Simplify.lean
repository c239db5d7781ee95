import ErrorBars.Engine
import ErrorBars.Proofs.Names.Gamma
import ErrorBars.Proofs.Names.Substitute

/-!
# The simplified derivative is over the same variables

Cases with their equations, the whole of the simplifier, and with that the derivatives the engine
gives (`over_differentiate`): the variables of a derivative are among those of the expression.
-/

set_option autoImplicit false

namespace ErrorBars.Expr

variable {S : String → Prop} {e : Expr}

/-- All variables satisfy a condition exactly if those that are listed once do. -/
theorem over_iff_freeSymbols : Over S e ↔ ∀ s ∈ e.freeSymbols, S s := by
  simp only [Over, freeSymbols, List.mem_eraseDups]

/-! ## Equations -/

/-- An equation is over these variables. -/
structure Equation.Over (S : String → Prop) (q : Equation) : Prop where
  /-- one side -/
  left : Expr.Over S q.left
  /-- the other side -/
  right : Expr.Over S q.right

namespace Equation

variable {q : Equation}

theorem over_addCoeff {name : String} {c : Expr} (hc : Expr.Over S c) :
    ∀ {cs : List (String × Expr)}, SecondsOver S cs → SecondsOver S (addCoeff name c cs)
  | [], _ => by
    unfold addCoeff
    exact secondsOver_cons.2 ⟨hc, secondsOver_nil⟩
  | (s, d) :: rest, hcs => by
    obtain ⟨hd, hrest⟩ := secondsOver_cons.1 hcs
    unfold addCoeff
    split
    · exact secondsOver_cons.2 ⟨over_add hd hc, hrest⟩
    · exact secondsOver_cons.2 ⟨hd, over_addCoeff hc hrest⟩

theorem over_linear {r : List (String × Expr) × Expr} (h : linear? e = some r)
    (he : Expr.Over S e) : SecondsOver S r.1 ∧ Expr.Over S r.2 := by
  have hall : ∀ r, linear? e = some r → SecondsOver S r.1 ∧ Expr.Over S r.2 := by
    unfold linear?
    refine List.foldlRecOn (motive := fun (acc : Option (List (String × Expr) × Expr)) =>
      ∀ r, acc = some r → SecondsOver S r.1 ∧ Expr.Over S r.2) _ _
      (fun r hr => Option.some.inj hr ▸ ⟨secondsOver_nil, over_zero⟩) fun acc hacc t ht r hr => ?_
    have ht := overAll_terms he t ht
    simp only [Option.bind_eq_bind, Option.bind_eq_some_iff] at hr
    obtain ⟨⟨cs, d⟩, hcs, hr⟩ := hr
    obtain ⟨hcs, hd⟩ := hacc _ hcs
    simp only at hr
    split at hr
    · exact Option.some.inj hr ▸ ⟨hcs, over_add hd ht⟩
    · split at hr
      · exact Option.some.inj hr ▸
          ⟨over_addCoeff (over_product (overAll_filter (overAll_factors ht))) hcs, hd⟩
      · exact absurd hr (by simp)
  exact hall r h

theorem over_polynomial {name : String} {r : List (Rat × Expr) × Rat}
    (h : polynomial? name e = some r) (he : Expr.Over S e) : SecondsOver S r.1 := by
  have hall : ∀ r, polynomial? name e = some r → SecondsOver S r.1 := by
    unfold polynomial?
    refine List.foldlRecOn (motive := fun (acc : Option (List (Rat × Expr) × Rat)) =>
      ∀ r, acc = some r → SecondsOver S r.1) _ _
      (fun r hr => Option.some.inj hr ▸ secondsOver_nil) fun acc hacc t ht r hr => ?_
    have hparts := over_coeffMul (overAll_terms he t ht)
    simp only [Option.bind_eq_bind, Option.bind_eq_some_iff] at hr
    obtain ⟨⟨cs, d⟩, hcs, hr⟩ := hr
    have hcs := hacc _ hcs
    simp only at hr
    split at hr
    · rename_i heq
      rw [heq] at hparts
      split at hr
      · exact Option.some.inj hr ▸ hcs
      · split at hr
        · split at hr
          · exact Option.some.inj hr ▸ secondsOver_append.2
              ⟨hcs, secondsOver_cons.2 ⟨hparts.2, secondsOver_nil⟩⟩
          · exact absurd hr (by simp)
        · exact absurd hr (by simp)
    · exact absurd hr (by simp)
  exact hall r h

theorem over_oriented (hq : q.Over S) : q.oriented.Over S := by
  unfold oriented
  extract_lets r
  have hr : r.Over S := by
    simp only [r]
    split
    · exact hq
    · split
      · exact ⟨hq.right, hq.left⟩
      · split
        · exact hq
        · exact ⟨hq.right, hq.left⟩
  clear_value r
  split
  · exact ⟨over_neg hr.left, over_neg hr.right⟩
  · exact hr

theorem over_solve (he : Expr.Over S e) : (solve e).Over S := by
  have hplain : Equation.Over S ⟨e, zero⟩ := ⟨he, over_zero⟩
  have hnames : ∀ s ∈ e.freeSymbols.mergeSort fun a b => decide (a ≤ b), S s := fun s hs =>
    over_iff_freeSymbols.1 he s ((List.mergeSort_perm _ _).mem_iff.1 hs)
  unfold solve
  extract_lets names
  have hnames : ∀ s ∈ names, S s := hnames
  clear_value names
  split
  · rename_i hlinear
    have hparts := over_linear hlinear he
    simp only [secondsOver_cons] at hparts
    exact ⟨over_symbol.2 (hnames _ List.mem_cons_self), over_div (over_neg hparts.2) hparts.1.1⟩
  · rename_i cs d hlinear
    obtain ⟨hcs, hd⟩ := over_linear hlinear he
    extract_lets coeffs scale terms
    have hscale : Expr.Over S scale := by
      simp only [scale]
      split
      · exact over_rat _
      · exact over_one
    have hterms : OverAll S terms := by
      refine overAll_map fun c hc => ?_
      obtain ⟨s, hs, rfl⟩ := List.mem_map.1 (List.mem_filter.1 hc).1
      refine over_mul (over_div (over_getD (fun v hv => ?_) over_zero) hscale)
        (over_symbol.2 (hnames s hs))
      obtain ⟨before, after, heq, -⟩ := List.lookup_eq_some_iff.1 hv
      exact hcs (s, v) (by simp [heq])
    clear_value terms scale
    split
    · exact hplain
    · obtain ⟨ht, hmore⟩ := overAll_cons.1 hterms
      split
      · exact over_oriented ⟨ht, over_neg (over_sum hmore)⟩
      · exact over_oriented ⟨over_sum hterms, over_div (over_neg hd) hscale⟩
  · split
    · rename_i hpolynomial
      have hcs := over_polynomial hpolynomial he
      simp only
      split
      · exact hplain
      · exact over_oriented ⟨over_sum (overAll_map fun c hc => over_mul (over_rat _) (hcs c hc)),
          over_rat _⟩
    · exact hplain
  · exact hplain

theorem over_simplify {simple : Expr → Expr}
    (hsimple : ∀ e, Expr.Over S e → Expr.Over S (simple e)) (hq : q.Over S) :
    (q.simplify simple).Over S :=
  over_solve (over_expand (over_sub (hsimple _ hq.left) (hsimple _ hq.right)))

theorem over_applyTo (hq : q.Over S) (he : Expr.Over S e) : Expr.Over S (q.applyTo e) := by
  unfold applyTo
  split
  · split
    · rename_i hr
      exact over_substitute hq.right (fun s hs _ => hs) hr he
    · exact he
  · refine over_bottomUp (fun x hx => ?_) he
    split
    · exact hq.right
    · exact hx

end Equation

/-! ## Cases -/

/-- A case is over these variables. -/
structure Case.Over (S : String → Prop) (c : Case) : Prop where
  /-- the value -/
  value : Expr.Over S c.value
  /-- the equations -/
  equations : ∀ q ∈ c.equations, q.Over S

/-- Cases are over these variables. -/
def CasesOver (S : String → Prop) (cs : List Case) : Prop := ∀ c ∈ cs, c.Over S

theorem over_carryOut (he : Over S e) : Over S (carryOut e) := by
  refine over_bottomUp (fun e he => ?_) he
  split
  · have hf := over_app.1 he
    simp only [overAll_cons] at hf
    exact over_derivative hf.1
  · exact he

theorem over_putFor {part value : Expr} (hvalue : Over S value) (he : Over S e) :
    Over S (putFor part value e) := by
  refine over_bottomUp (fun e he => ?_) he
  split
  · exact hvalue
  · split
    · split
      · exact he
      · exact over_zero
    · exact he

theorem overAll_signArguments (he : Over S e) : OverAll S (signArguments e) := by
  have hparts : OverAll S (e.partsWith (isFnOf .sign)) := over_partsWith he
  unfold signArguments
  refine List.foldlRecOn _ _ overAll_nil fun acc hacc p hp => ?_
  have hp := hparts p hp
  split
  · have hx := over_app.1 hp
    simp only [overAll_cons] at hx
    split
    · exact hacc
    · exact overAll_more hacc hx.1
  · exact hacc

theorem over_casesOf (he : Over S e) : CasesOver S (casesOf e) := by
  unfold casesOf
  refine List.foldlRecOn (motive := fun (cs : List Case) => CasesOver S cs) _ _
    (List.forall_mem_singleton.2 ⟨he, fun _ h => absurd h List.not_mem_nil⟩)
    fun cs hcs x hx d hd => ?_
  have hx := overAll_signArguments he x hx
  obtain ⟨c, hc, hd⟩ := List.mem_flatMap.1 hd
  have hc := hcs c hc
  simp only [List.mem_cons, List.not_mem_nil, or_false] at hd
  rcases hd with rfl | rfl
  · exact ⟨over_putFor over_zero hc.value, List.forall_mem_append.2
      ⟨hc.equations, List.forall_mem_singleton.2 ⟨hx, over_zero⟩⟩⟩
  · exact ⟨over_putFor (over_div hx (over_apply_single hx)) hc.value, hc.equations⟩

theorem over_underEquations {all : Bool} {qs : List Equation} (hqs : ∀ q ∈ qs, q.Over S)
    (he : Over S e) : Over S (underEquations all qs e) :=
  over_foldl he fun e he q hq => by
    split
    · exact Equation.over_applyTo (hqs q hq) he
    · exact he

theorem over_mergeCases {all : Bool} :
    ∀ {cs : List Case} {next : Expr}, CasesOver S cs → CasesOver S (mergeCases all next cs)
  | [], _, h => h
  | c :: rest, next, h => by
    obtain ⟨hc, hrest⟩ := List.forall_mem_cons.1 h
    unfold mergeCases
    simp only
    split
    · exact over_mergeCases hrest
    · exact List.forall_mem_cons.2 ⟨hc, over_mergeCases hrest⟩

theorem over_ofCases {cs : List Case} (hcs : CasesOver S cs) : Over S (ofCases cs) := by
  unfold ofCases
  split
  · exact (hcs _ List.mem_cons_self).value
  · refine over_app.2 (overAll_flatMap fun c hc => ?_)
    have hc := hcs c hc
    refine overAll_cons.2 ⟨hc.value, overAll_cons.2 ⟨?_, overAll_nil⟩⟩
    split
    · exact over_app.2 overAll_nil
    · rename_i heq
      have hq := hc.equations _ (heq ▸ List.mem_cons_self)
      exact over_app.2 (by simp [hq.left, hq.right])

/-- Cases with their values changed. -/
theorem casesOver_mapValue {f : Case → Expr} (hf : ∀ c, c.Over S → Over S (f c))
    {cs : List Case} (hcs : CasesOver S cs) :
    CasesOver S (cs.map fun c => { c with value := f c }) :=
  List.forall_mem_map.2 fun c hc => ⟨hf c (hcs c hc), (hcs c hc).equations⟩

theorem over_simplifyCases {simple : Expr → Expr}
    (hsimple : ∀ e, Over S e → Over S (simple e)) (he : Over S e) :
    Over S (simplifyCases simple e) := by
  unfold simplifyCases
  extract_lets carried joined count chosen simplified settled
  have hcarried : CasesOver S carried :=
    casesOver_mapValue (fun c hc => over_carryOut hc.value) (over_casesOf he)
  have hjoined : CasesOver S joined :=
    casesOver_mapValue (fun c hc => over_joinAbsolutes hc.value) hcarried
  have hchosen : CasesOver S chosen := by
    simp only [chosen]
    split
    · exact hjoined
    · exact hcarried
  have hsimplified : CasesOver S simplified := List.forall_mem_map.2 fun c hc =>
    ⟨hsimple _ (hchosen c hc).value, List.forall_mem_map.2 fun q hq =>
      Equation.over_simplify hsimple ((hchosen c hc).equations q hq)⟩
  have hsettled : CasesOver S settled := casesOver_mapValue
    (fun c hc => over_underEquations hc.equations hc.value) fun c hc =>
      hsimplified c (List.mem_filter.1 hc).1
  split
  · exact he
  · rename_i last before heq
    have hreversed : CasesOver S (last :: before) := fun c hc =>
      hsettled c (List.mem_reverse.1 (heq ▸ hc))
    obtain ⟨hlast, hbefore⟩ := List.forall_mem_cons.1 hreversed
    extract_lets merged factored
    have hmerged : CasesOver S merged := fun c hc => by
      have hall : CasesOver S (last :: mergeCases (settled.length ≤ 2) last.value before) :=
        List.forall_mem_cons.2 ⟨hlast, over_mergeCases hbefore⟩
      exact hall c (List.mem_reverse.1 hc)
    have hfactored : CasesOver S factored :=
      casesOver_mapValue (fun c hc => over_factorTerms hc.value) hmerged
    refine over_ofCases ?_
    split
    · exact hfactored
    · exact hmerged

/-! ## Steps -/

mutual

theorem over_mapInsideFunctions {f : Expr → Expr} (hf : ∀ e, Over S e → Over S (f e)) :
    ∀ {e : Expr}, Over S e → Over S (mapInsideFunctions f e)
  | .app h as, he => by
    have has := over_app.1 he
    have hall : OverAll S (mapInsideFunctionsAll f as) := overAll_mapInsideFunctionsAll hf has
    have houter : Over S (if mapInsideFunctionsAll f as == as then .app h as
        else rebuild h (mapInsideFunctionsAll f as)) := by
      split
      · exact he
      · exact over_rebuild hall
    unfold mapInsideFunctions
    split
    · exact houter
    · exact houter
    · exact houter
    · exact houter
    · simp only
      split
      · exact he
      · exact over_rebuild (overAll_map fun a ha => hf a (has a ha))
    · exact he
  | .rat _, he | .float _ _, he | .const _, he | .symbol _, he | .dummy _, he => he

theorem overAll_mapInsideFunctionsAll {f : Expr → Expr} (hf : ∀ e, Over S e → Over S (f e)) :
    ∀ {es : List Expr}, OverAll S es → OverAll S (mapInsideFunctionsAll f es)
  | [], _ => overAll_nil
  | _ :: _, hes =>
    overAll_cons.2 ⟨over_mapInsideFunctions hf (overAll_cons.1 hes).1,
      overAll_mapInsideFunctionsAll hf (overAll_cons.1 hes).2⟩

end

theorem over_asFraction (he : Over S e) : Over S (asFraction e) := by
  have hparts := over_numerDenom he
  have hcoeff := over_coeffMul hparts.1
  unfold asFraction
  simp only
  split
  · split
    · exact hparts.1
    · split
      · split
        · exact hcoeff.2
        · split
          · exact over_rat _
          · exact over_rawMul.2 (overAll_cons.2 ⟨over_rat _, overAll_factors hcoeff.2⟩)
      · exact over_div hparts.1 hparts.2
  · exact over_div hparts.1 hparts.2

theorem over_spreadNumbers (he : Over S e) : Over S (spreadNumbers e) := by
  refine over_bottomUp (fun e he => ?_) he
  split
  · have has := over_app.1 he
    simp only [overAll_cons] at has
    split
    · exact over_mul has.1 has.2.1
    · exact he
  · exact he

theorem over_shortestQuotient (he : Over S e) : Over S (shortestQuotient e) := by
  unfold shortestQuotient
  extract_lets fractions
  have hfractions : Over S fractions := over_bottomUp (fun _ => over_asFraction) he
  have hprimitive : Over S ((joinPowers .all false fractions).contentPrimitive true).2 :=
    over_contentPrimitive (over_joinPowers hfractions)
  generalize (joinPowers .all false fractions).contentPrimitive true = r at hprimitive
  obtain ⟨c, p⟩ := r
  have he : Over S (.rat c * p) := over_mul (over_rat c) hprimitive
  simp only
  generalize (.rat c * p : Expr) = e at he
  have hcancelled : Over S (shortest (cancel e) [cancel (expand Expansion.algebraic (cancel e))]) :=
    over_shortest (over_cancel he) (by simp [over_cancel (over_expand (over_cancel he))])
  generalize shortest (cancel e) [cancel (expand Expansion.algebraic (cancel e))] = cancelled
    at hcancelled
  have hjoined : Over S (shortest (together e) [together cancelled]) :=
    over_shortest (over_together he) (by simp [over_together hcancelled])
  exact over_factorTerms (over_shortest hjoined (by simp [hcancelled, he]))

theorem over_shortestProduct (he : Over S e) : Over S (shortestProduct e) := by
  unfold shortestProduct
  have hfirst : Over S (shortest (joinPowers .exponents true e) [joinPowers .all false e, e]) :=
    over_shortest (over_joinPowers he) (by simp [over_joinPowers he, he])
  simp only
  generalize shortest (joinPowers .exponents true e) [joinPowers .all false e, e] = s at hfirst
  have hsecond : Over S (shortest s [cancel s]) :=
    over_shortest hfirst (by simp [over_cancel hfirst])
  generalize shortest s [cancel s] = t at hsecond
  exact over_shortest hsecond
    (by simp [over_factorTerms hsecond, over_expand (over_expand hsecond)])

theorem over_settleQuotient (he : Over S e) : Over S (settleQuotient e) := by
  have hparts := over_fraction he
  unfold settleQuotient
  simp only
  split
  · split
    · exact he
    · exact over_settleSigns (over_div (over_neg hparts.1) (over_neg hparts.2))
  · exact he

theorem over_simplifyFunctions (he : Over S e) : Over S (simplifyFunctions e) := by
  unfold simplifyFunctions
  extract_lets a b c d
  have ha : Over S a := by
    simp only [a]
    split
    · exact over_trigSimplify he
    · exact he
  have hb : Over S b := by
    simp only [b]
    split
    · exact over_shortest (over_expand ha) (by simp [over_joinLogs ha])
    · exact ha
  have hc : Over S c := by
    simp only [c]
    split
    · exact over_simplifyGammas hb
    · exact hb
  have hd : Over S d := over_shortestProduct hc
  split
  · exact over_simplifyExponentials hd
  · exact hd

/-! ## The whole -/

theorem over_simplifyTo : ∀ {fuel : Nat} {e : Expr}, Over S e → Over S (simplifyTo fuel e)
  | 0, _, he => by
    unfold simplifyTo
    exact he
  | fuel + 1, e, he => by
    have ih : ∀ e, Over S e → Over S (simplifyTo fuel e) := fun _ => over_simplifyTo
    unfold simplifyTo
    extract_lets before inner quotient cased whole
    have hbefore : Over S before := over_joinAbsolutes (over_settleSigns he)
    have hinner : Over S inner := over_mapInsideFunctions ih hbefore
    have hquotient : Over S quotient := over_shortestQuotient hinner
    have hcased : Over S cased := by
      simp only [cased]
      split
      · exact over_simplifyCases ih hquotient
      · exact hquotient
    have hwhole : Over S whole := over_settleQuotient
      (over_clearRoot (over_spreadNumbers (over_simplifyFunctions hcased)))
    split
    · exact over_zero
    · split
      · exact over_settleAbsolutes hinner
      · split
        · exact hcased
        · refine over_settleAbsolutes ?_
          split
          · exact hbefore
          · exact hwhole

/-- **The simplifier makes up no variables.** -/
theorem over_simplify (he : Over S e) : Over S (simplify e) := over_simplifyTo he

/-- **The simplified derivative makes up no variables.** -/
theorem over_differentiate {name : String} (he : Over S e) : Over S (e.differentiate name) :=
  over_simplify (over_derivative he)

end ErrorBars.Expr
