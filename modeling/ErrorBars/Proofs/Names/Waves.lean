import ErrorBars.Proofs.Names.Angles

/-!
# Products and sums of circular functions are over the same variables

The second half of the laws of circular functions: shared double angles, conjugate factors, doubled
cosines, products as sums and sums as products.
-/

set_option autoImplicit false

namespace ErrorBars.Expr

variable {S : String → Prop} {e : Expr}

/-! ## Double angles on both sides of a line -/

theorem overAll_factorAngles (he : Over S e) :
    OverAll S (factorAngles e).1 ∧ OverAll S (factorAngles e).2 := by
  unfold factorAngles
  refine List.foldlRecOn (motive := fun (acc : List Expr × List Expr) =>
    OverAll S acc.1 ∧ OverAll S acc.2) _ _ ⟨overAll_nil, overAll_nil⟩ fun acc hacc f hf => ?_
  have hb := over_baseExp (overAll_factors he f hf)
  grind -ring -linarith -lia

theorem over_openDoubleOf {angle : Expr} (hangle : Over S angle) (he : Over S e) :
    Over S (openDoubleOf angle e) := by
  refine over_bottomUp (fun e he => ?_) he
  have hsin := over_apply_single (f := .sin) hangle
  have hcos := over_apply_single (f := .cos) hangle
  split
  · split
    · exact over_mul (over_mul (over_int _) hcos) hsin
    · exact he
  · split
    · exact over_sub (over_power hcos (over_int _)) (over_power hsin (over_int _))
    · exact he
  · exact he

theorem over_openShared {sines : List Expr} {other : List Expr × List Expr}
    (hsines : OverAll S sines) (he : Over S e) : Over S (openShared sines other e).1 := by
  unfold openShared
  refine List.foldlRecOn (motive := fun (acc : Expr × (List Expr × List Expr)) =>
    Over S acc.1) _ _ he fun acc hacc x hx => ?_
  have hhalf : Over S (.rat (1 / 2) * x) := over_mul (over_rat _) (hsines x hx)
  simp only
  split
  · exact over_openDoubleOf hhalf hacc
  · split
    · exact over_openDoubleOf hhalf hacc
    · exact hacc

@[grind ←] theorem over_openSharedDoubles (he : Over S e) : Over S (openSharedDoubles e) := by
  refine over_bottomUp (fun e he => ?_) he
  have hparts := over_numerDenom he
  have hbelow : OverAll S (openShared (factorAngles e.numerDenom.1).1
      (factorAngles e.numerDenom.2) e).2.1 := by
    unfold openShared
    refine List.foldlRecOn (motive := fun (acc : Expr × (List Expr × List Expr)) =>
      OverAll S acc.2.1) _ _ (overAll_factorAngles hparts.2).1 fun acc hacc x _ => ?_
    simp only
    split
    · exact hacc
    · split
      · exact overAll_filter hacc
      · exact hacc
  exact over_openShared hbelow (over_openShared (overAll_factorAngles hparts.1).1 he)

@[grind ←] theorem over_turnAngles (he : Over S e) : Over S (turnAngles e) := by
  refine over_bottomUp (fun e he => ?_) he
  split
  · exact he
  · split
    · rename_i f x _
      have hx := over_app.1 he
      simp only [overAll_cons] at hx
      have hturned : Over S (apply f [settleSigns x]) :=
        over_apply_single (over_settleSigns hx.1)
      split
      · rename_i heq
        rw [heq] at hturned
        split
        · exact over_apply_single (over_mul (over_rat _) over_pi)
        · exact hturned
      · exact hturned
    · exact he

/-! ## Conjugate factors -/

/-- A conjugate factor is over these variables. -/
structure ConjugateFactor.Over (S : String → Prop) (c : ConjugateFactor) : Prop where
  /-- what is in front -/
  scale : Expr.Over S c.scale
  /-- the exponent -/
  exponent : Expr.Over S c.exponent
  /-- the function -/
  func : Expr.Over S c.func
  /-- the sum as it was -/
  whole : Expr.Over S c.whole

theorem over_conjugateFactor {exponent : Expr} {c : ConjugateFactor}
    (h : conjugateFactor? e exponent = some c) (he : Over S e) (hx : Over S exponent) :
    c.Over S := by
  unfold conjugateFactor? at h
  simp only at h
  split at h
  · rename_i q b
    have hb := over_app.1 he
    simp only [overAll_cons] at hb
    have hscaled : ∀ r : Rat, Over S (.rat r * b) := fun r => over_mul (over_rat r) hb.2.1
    generalize (if q < 0 then -q else q) = magnitude at h
    split at h
    · obtain rfl := Option.some.inj h
      exact ⟨over_rat _, hx, hscaled _, he⟩
    · split at h
      · obtain rfl := Option.some.inj h
        exact ⟨over_rat _, hx, over_neg (hscaled _), he⟩
      · exact absurd h (by simp)
  · exact absurd h (by simp)

theorem ConjugateFactor.over_join {a b : ConjugateFactor} {v : Expr} (h : a.join? b = some v)
    (ha : a.Over S) (hb : b.Over S) : Expr.Over S v := by
  unfold join? at h
  split at h
  · split at h
    · rename_i heq
      obtain rfl := Option.some.inj h
      have hx := ha.func
      rw [heq] at hx
      have hx := over_app.1 hx
      simp only [overAll_cons] at hx
      exact over_mul (over_mul (over_neg ha.scale) hb.scale)
        (Expr.over_power (over_apply_single hx.1) (over_int _))
    · exact absurd h (by simp)
  · exact absurd h (by simp)

theorem overAll_joinConjugateList :
    ∀ {fuel : Nat} {cs : List ConjugateFactor}, (∀ c ∈ cs, c.Over S) →
      OverAll S (joinConjugateList fuel cs)
  | 0, cs, hcs => by
    unfold joinConjugateList
    exact overAll_map fun c hc => over_power (hcs c hc).whole (hcs c hc).exponent
  | _ + 1, [], _ => by
    unfold joinConjugateList
    exact overAll_nil
  | fuel + 1, a :: cs, hcs => by
    obtain ⟨ha, hrest⟩ := List.forall_mem_cons.1 hcs
    have halone : OverAll S (power a.whole a.exponent :: joinConjugateList fuel cs) :=
      overAll_cons.2 ⟨over_power ha.whole ha.exponent, overAll_joinConjugateList hrest⟩
    unfold joinConjugateList
    simp only
    split
    · exact halone
    · rename_i b rest
      obtain ⟨hb, hrest⟩ := List.forall_mem_cons.1 hrest
      split
      · exact halone
      · rename_i v hjoin
        have hv := ConjugateFactor.over_join hjoin ha hb
        split
        · rename_i p q _ _
          generalize (if p ≤ q then p else q) = least
          refine overAll_cons.2 ⟨over_power hv (over_rat _), overAll_joinConjugateList
            (List.forall_mem_append.2 ⟨?_, hrest⟩)⟩
          split
          · exact List.forall_mem_singleton.2 ⟨hb.scale, over_rat _, hb.func, hb.whole⟩
          · split
            · exact List.forall_mem_singleton.2 ⟨ha.scale, over_rat _, ha.func, ha.whole⟩
            · exact fun _ h => absurd h List.not_mem_nil
        · split
          · exact overAll_cons.2 ⟨over_power hv ha.exponent, overAll_joinConjugateList hrest⟩
          · exact halone

theorem over_joinConjugateFactors (he : Over S e) : Over S (joinConjugateFactors e) := by
  unfold joinConjugateFactors
  split
  · rename_i fs
    extract_lets parts found other joined
    have hparts : ∀ p ∈ parts, (∀ c, p.1 = some c → c.Over S) ∧ Over S p.2 := by
      refine List.forall_mem_map.2 fun f hf => ?_
      have hf := over_app.1 he f hf
      split
      · have hpower := over_app.1 hf
        simp only [overAll_cons] at hpower
        split
        · exact ⟨fun c hc => over_conjugateFactor hc hpower.1 hpower.2.1, hf⟩
        · exact ⟨fun c hc => absurd hc (by simp), hf⟩
      · exact ⟨fun c hc => over_conjugateFactor hc hf over_one, hf⟩
    have hfound : ∀ c ∈ found, c.Over S := by
      intro c hc
      obtain ⟨p, hp, hpc⟩ := List.mem_filterMap.1 ((List.mergeSort_perm _ _).mem_iff.1 hc)
      exact (hparts p hp).1 c hpc
    have hother : OverAll S other := by
      refine overAll_filterMap fun p hp v hv => ?_
      split at hv
      · exact absurd hv (by simp)
      · exact Option.some.inj hv ▸ (hparts p hp).2
    split
    · exact he
    · exact over_product (overAll_append.2 ⟨hother, overAll_joinConjugateList hfound⟩)
  · exact he

@[grind ←] theorem over_joinConjugates (he : Over S e) : Over S (joinConjugates e) := by
  refine over_bottomUp (fun e he => ?_) he
  split
  · have hparts := over_numerDenom he
    have hjoined : ∀ e, Over S e → Over S (e.bottomUp joinConjugateFactors) := fun _ he =>
      over_bottomUp (fun _ => over_joinConjugateFactors) he
    simp only
    split
    · exact over_joinConjugateFactors he
    · split
      · exact he
      · exact over_div (hjoined _ hparts.1) (hjoined _ hparts.2)
  · exact he

/-! ## Doubled cosines -/

theorem overAll_joinMultiples {angle : Expr} (hangle : Over S angle) :
    ∀ {fuel : Nat} {cs : List (Rat × Int)},
      OverAll S (joinMultiples angle fuel cs).1 ∧ OverAll S (joinMultiples angle fuel cs).2
  | 0, cs => by
    unfold joinMultiples
    exact ⟨overAll_nil, overAll_map fun c _ => over_power
      (over_apply_single (over_mul (over_rat _) hangle)) (over_int _)⟩
  | _ + 1, [] => by
    unfold joinMultiples
    exact ⟨overAll_nil, overAll_nil⟩
  | fuel + 1, c :: cs => by
    have ih : ∀ cs, OverAll S (joinMultiples angle fuel cs).1 ∧
        OverAll S (joinMultiples angle fuel cs).2 := fun cs =>
      overAll_joinMultiples hangle
    have hmultiple : ∀ (f : Func) (q : Rat), Over S (apply f [.rat q * angle]) := fun f q =>
      over_apply_single (over_mul (over_rat q) hangle)
    unfold joinMultiples
    simp only
    split
    · exact ⟨(ih _).1, overAll_cons.2 ⟨over_power (hmultiple _ _) (over_int _), (ih _).2⟩⟩
    · exact ⟨overAll_cons.2 ⟨over_power (over_div (over_div (hmultiple _ _) (over_rat _))
        (hmultiple _ _)) (over_int _), (ih _).1⟩, (ih _).2⟩

theorem over_joinDoubledFactors (he : Over S e) : Over S (joinDoubledFactors e) := by
  unfold joinDoubledFactors
  split
  · rename_i fs
    extract_lets cosine other groups joined
    have hfs := over_app.1 he
    have hcosine : ∀ f ∈ fs, ∀ r, cosine f = some r → Over S r.1 := by
      intro f hf r hr
      have hb := over_baseExp (hfs f hf)
      simp only [cosine] at hr
      split at hr
      · rename_i x k heq hk
        rw [heq] at hb
        have hx := over_app.1 hb.1
        simp only [overAll_cons] at hx
        have hparts := over_coeffMul hx.1
        split at hr
        · rename_i heq
          rw [heq] at hparts
          exact Option.some.inj hr ▸ hparts.2
        · exact Option.some.inj hr ▸ hx.1
      · exact absurd hr (by simp)
    have hgroups : ∀ g ∈ groups, Over S g.1 := by
      refine List.foldlRecOn (motive := fun (gs : List (Expr × List (Rat × Int))) =>
        ∀ g ∈ gs, Over S g.1) _ _ (fun _ h => absurd h List.not_mem_nil) fun gs hgs c hc => ?_
      obtain ⟨f, hf, hr⟩ := List.mem_filterMap.1 hc
      have hangle := hcosine f hf c hr
      split
      · refine List.forall_mem_map.2 fun g hg => ?_
        split
        · exact hgs g hg
        · exact hgs g hg
      · exact List.forall_mem_append.2 ⟨hgs, List.forall_mem_singleton.2 hangle⟩
    have hjoined : ∀ j ∈ joined, OverAll S j.1 ∧ OverAll S j.2 :=
      List.forall_mem_map.2 fun g hg => overAll_joinMultiples (hgroups g hg)
    split
    · exact he
    · exact over_product (overAll_append.2 ⟨overAll_append.2
        ⟨overAll_flatMap fun j hj => (hjoined j hj).1, overAll_filter hfs⟩,
          overAll_flatMap fun j hj => (hjoined j hj).2⟩)
  · exact he

@[grind ←] theorem over_joinDoubledCosines (he : Over S e) : Over S (joinDoubledCosines e) := by
  refine over_bottomUp (fun e he => ?_) he
  split
  · have hparts := over_numerDenom he
    exact over_div (over_joinDoubledFactors hparts.1) (over_joinDoubledFactors hparts.2)
  · exact he

/-! ## Products as sums -/

theorem overAll_sortFactors {fs : List Expr} (hfs : OverAll S fs) :
    OverAll S (sortFactors fs).1 ∧ OverAll S (sortFactors fs).2.1 ∧
      OverAll S (sortFactors fs).2.2 := by
  unfold sortFactors
  refine List.foldlRecOn (motive := fun (acc : List Expr × List Expr × List Expr) =>
    OverAll S acc.1 ∧ OverAll S acc.2.1 ∧ OverAll S acc.2.2) _ _
    ⟨overAll_nil, overAll_nil, overAll_nil⟩ fun acc hacc f hf => ?_
  have hf := hfs f hf
  have hmore : ∀ {es : List Expr} {x : Expr}, OverAll S es → Over S x → OverAll S (es ++ [x]) :=
    fun hes hx => overAll_append.2 ⟨hes, by simp [hx]⟩
  obtain ⟨hss, hcs, hothers⟩ := hacc
  simp only
  split
  · have hx := over_app.1 hf
    simp only [overAll_cons] at hx
    exact ⟨hmore hss hx.1, hcs, hothers⟩
  · have hx := over_app.1 hf
    simp only [overAll_cons] at hx
    exact ⟨hss, hmore hcs hx.1, hothers⟩
  · have hx := over_app.1 hf
    simp only [overAll_cons, over_app] at hx
    have hxs : ∀ n : Nat, OverAll S (List.replicate n _) := fun n y hy =>
      List.eq_of_mem_replicate hy ▸ hx.1.1
    split
    · split
      · exact ⟨overAll_append.2 ⟨hss, hxs _⟩, hcs, hothers⟩
      · exact ⟨hss, overAll_append.2 ⟨hcs, hxs _⟩, hothers⟩
      · exact ⟨hss, hcs, hmore hothers hf⟩
    · exact ⟨hss, hcs, hmore hothers hf⟩
  · exact ⟨hss, hcs, hmore hothers hf⟩

theorem overAll_mixedPairs : ∀ {as bs : List Expr}, OverAll S as → OverAll S bs →
    OverAll S (mixedPairs as bs)
  | a :: as, b :: bs, has, hbs => by
    obtain ⟨ha, has⟩ := overAll_cons.1 has
    obtain ⟨hb, hbs⟩ := overAll_cons.1 hbs
    unfold mixedPairs
    exact overAll_cons.2 ⟨over_div (over_add (over_apply_single (over_add ha hb))
      (over_apply_single (over_sub ha hb))) (over_int _), overAll_mixedPairs has hbs⟩
  | [], _, _, _ | _ :: _, [], _, _ => by
    unfold mixedPairs
    exact overAll_nil

theorem overAll_equalPairs {cosines : Bool} : ∀ {as : List Expr}, OverAll S as →
    OverAll S (equalPairs cosines as)
  | a :: b :: rest, has => by
    simp only [overAll_cons] at has
    have hplus : Over S (apply .cos [a + b]) := over_apply_single (over_add has.1 has.2.1)
    have hminus : Over S (apply .cos [a - b]) := over_apply_single (over_sub has.1 has.2.1)
    unfold equalPairs
    refine overAll_cons.2 ⟨over_div ?_ (over_int _), overAll_equalPairs has.2.2⟩
    split
    · exact over_add hplus hminus
    · exact over_sub hminus hplus
  | [a], has => overAll_cons.2 ⟨over_apply_single (has a List.mem_cons_self), overAll_nil⟩
  | [], _ => overAll_nil

theorem over_openProduct : ∀ {fuel : Nat} {e : Expr}, Over S e → Over S (openProduct fuel e)
  | 0, _, he => by
    unfold openProduct
    exact he
  | fuel + 1, e, he => by
    unfold openProduct
    refine over_sum (overAll_map fun t ht => ?_)
    have ht := overAll_terms he t ht
    obtain ⟨hss, hcs, hothers⟩ := overAll_sortFactors (overAll_factors ht)
    have hdrop : ∀ {es : List Expr} {n : Nat}, OverAll S es → OverAll S (es.reverse.drop n) :=
      fun hes x hx => overAll_reverse hes x (List.mem_of_mem_drop hx)
    simp only
    split
    · exact ht
    · refine over_openProduct (over_expand (over_product ?_))
      simp only [overAll_append]
      exact ⟨⟨⟨hothers, overAll_mixedPairs (overAll_reverse hss) (overAll_reverse hcs)⟩,
        overAll_equalPairs (hdrop hcs)⟩, overAll_equalPairs (hdrop hss)⟩

@[grind ←] theorem over_productsToSums (he : Over S e) : Over S (productsToSums e) := by
  have hopened : ∀ e, Over S e →
      Over S (openProduct 12 (expand Expansion.productsOnly (numerDenom e).1)) ∧
        Over S (openProduct 12 (expand Expansion.productsOnly (numerDenom e).2)) := fun e he =>
    ⟨over_openProduct (over_expand (over_numerDenom he).1),
      over_openProduct (over_expand (over_numerDenom he).2)⟩
  unfold productsToSums
  extract_lets go
  have hgo : ∀ e, Over S e → Over S (go e) := by
    intro e he
    have hparts := hopened e he
    have hjoined := over_outerTogether (over_div hparts.1 hparts.2)
    simp only [go]
    split
    · exact he
    · split
      · rename_i heq
        rw [heq] at hjoined
        have hjoined := over_app.1 hjoined
        simp only [overAll_cons] at hjoined
        exact over_mul (over_rat _) hjoined.2.1
      · exact hjoined
  clear_value go
  refine over_bottomUp (fun e he => ?_) he
  split
  · exact hgo _ he
  · split
    · exact hgo _ he
    · exact he
  · exact he

/-! ## Sums as products -/

/-- A factor of a sum of two is over these variables. -/
structure AngleTerm.Over (S : String → Prop) (t : AngleTerm) : Prop where
  /-- what is in front -/
  scale : Expr.Over S t.scale
  /-- the angles of the functions -/
  angles : SecondsOver S t.functions

theorem over_angleTerm {t : AngleTerm} (h : angleTerm? e = some t) (he : Over S e) : t.Over S := by
  have hstart : AngleTerm.Over S ⟨one, []⟩ := ⟨over_one, secondsOver_nil⟩
  have hall : ∀ t, angleTerm? e = some t → t.Over S := by
    unfold angleTerm?
    refine List.foldlRecOn (motive := fun (acc : Option AngleTerm) =>
      ∀ t, acc = some t → t.Over S) _ _ (fun t ht => Option.some.inj ht ▸ hstart)
      fun acc hacc f hf t ht => ?_
    have hf := overAll_factors he f hf
    simp only [Option.bind_eq_bind, Option.bind_eq_some_iff] at ht
    obtain ⟨u, hu, ht⟩ := ht
    obtain ⟨hscale, hangles⟩ := hacc u hu
    split at ht
    · split at ht
      · exact Option.some.inj ht ▸ ⟨over_rat _, hangles⟩
      · exact absurd ht (by simp)
    · have hx := over_app.1 hf
      simp only [overAll_cons] at hx
      split at ht
      · exact Option.some.inj ht ▸ ⟨hscale, secondsOver_append.2 ⟨hangles, by simp [hx.1]⟩⟩
      · exact absurd ht (by simp)
    · have hx := over_app.1 hf
      simp only [overAll_cons] at hx
      split at ht
      · exact Option.some.inj ht ▸ ⟨hscale, secondsOver_cons.2 ⟨hx.1, hangles⟩⟩
      · exact absurd ht (by simp)
    · split at ht
      · exact Option.some.inj ht ▸ ⟨over_mul hscale hf, hangles⟩
      · exact absurd ht (by simp)
    · exact absurd ht (by simp)
  exact hall t h

theorem over_splitTerms {a b : Expr} (ha : Over S a) (hb : Over S b) :
    Over S (splitTerms a b).1 ∧ Over S (splitTerms a b).2.1.2 ∧
      Over S (splitTerms a b).2.2.2 := by
  have hs := TermParts.over_ofExpr ha
  have ht := TermParts.over_ofExpr hb
  unfold splitTerms
  extract_lets s t common size common' part
  have hcommon : common'.Over S := by
    have hcommon : common.Over S :=
      ⟨over_one, Powers.over_gcd hs.above, Powers.over_gcd hs.below⟩
    simp only [common']
    split
    · exact ⟨over_absNumber hs.coeff, hcommon.above, hcommon.below⟩
    · exact hcommon
  have hpart : ∀ u : TermParts, u.Over S → Over S (part u).2 := by
    intro u hu
    have hquotient := TermParts.over_quo hu hcommon
    exact TermParts.over_toExpr
      ⟨over_absNumber hquotient.coeff, hquotient.above, hquotient.below⟩
  exact ⟨TermParts.over_toExpr hcommon, hpart s hs, hpart t ht⟩

theorem over_joinTwo {a b v : Expr} (h : joinTwo? a b = some v) (ha : Over S a) (hb : Over S b) :
    Over S v := by
  have hsplit := over_splitTerms ha hb
  unfold joinTwo? at h
  simp only [Option.bind_eq_bind, Option.bind_eq_some_iff] at h
  obtain ⟨s, hs, t, ht, h⟩ := h
  obtain ⟨hcommon, ha, hb⟩ := hsplit
  obtain ⟨hscale, hangles⟩ := over_angleTerm hs ha
  obtain ⟨hscale', hangles'⟩ := over_angleTerm ht hb
  generalize splitTerms a b = r at h hcommon
  obtain ⟨common, ⟨m, a⟩, ⟨n, b⟩⟩ := r
  simp only at h hcommon
  have hsigned : ∀ c : Bool, Over S (if c then -common else common) := fun c => by
    cases c
    · exact hcommon
    · exact over_neg hcommon
  split at h
  · rename_i hfs hgs
    rw [hfs] at hangles
    rw [hgs] at hangles'
    simp only [secondsOver_cons] at hangles hangles'
    obtain ⟨hx, hy, -⟩ := hangles
    split at h
    · exact absurd h (by simp)
    · split at h
      · exact absurd h (by simp)
      · split at h
        · exact absurd h (by simp)
        · split at h
          · obtain rfl := Option.some.inj h
            refine over_mul ?_ (over_apply_single ?_)
            · split
              · exact hsigned m
              · exact hsigned n
            · split
              · exact over_sub hx hy
              · exact over_add hx hy
          · split at h
            · obtain rfl := Option.some.inj h
              split
              · exact over_mul (hsigned m) (over_apply_single (over_add hx hy))
              · exact over_mul (hsigned m) (over_apply_single (over_sub hy hx))
            · exact absurd h (by simp)
  · rename_i f x _ _ hfs _
    rw [hfs] at hangles
    simp only [secondsOver_cons] at hangles
    obtain ⟨hx, -⟩ := hangles
    split at h
    · exact absurd h (by simp)
    · have hscales : Over S (if f = .cos then (s.scale, t.scale, m, n)
          else (t.scale, s.scale, n, m)).1 ∧ Over S (if f = .cos then (s.scale, t.scale, m, n)
            else (t.scale, s.scale, n, m)).2.1 := by
        split
        · exact ⟨hscale, hscale'⟩
        · exact ⟨hscale', hscale⟩
      generalize (if f = .cos then (s.scale, t.scale, m, n)
        else (t.scale, s.scale, n, m)) = r at h hscales
      have hturned : ∀ {factor : Expr} (q : Rat), Over S factor →
          Over S ((if r.2.2.1 then -common else common) * factor *
            apply .sin [if r.2.2.1 = r.2.2.2 then x + .rat q * pi else .rat q * pi - x]) := by
        intro factor q hfactor
        have hangle : Over S (.rat q * pi) := over_mul (over_rat q) over_pi
        refine over_mul (over_mul (hsigned _) hfactor) (over_apply_single ?_)
        split
        · exact over_add hx hangle
        · exact over_sub hangle hx
      split at h
      · exact Option.some.inj h ▸ hturned _ (over_mul hscales.1 (over_sqrt (over_int _)))
      · split at h
        · exact Option.some.inj h ▸ hturned _ (over_mul (over_int _) hscales.2)
        · split at h
          · exact Option.some.inj h ▸ hturned _ (over_mul (over_int _) hscales.1)
          · exact absurd h (by simp)
  · exact absurd h (by simp)

theorem over_joinWith {a : Expr} : ∀ {es : List Expr} {r : Expr × List Expr},
    joinWith a es = some r → Over S a → OverAll S es → Over S r.1 ∧ OverAll S r.2
  | [], _, h, _, _ => by
    unfold joinWith at h
    exact absurd h (by simp)
  | b :: rest, r, h, ha, hes => by
    obtain ⟨hb, hrest⟩ := overAll_cons.1 hes
    unfold joinWith at h
    split at h
    · rename_i heq
      obtain rfl := Option.some.inj h
      exact ⟨over_joinTwo heq ha hb, hrest⟩
    · obtain ⟨r, hr, rfl⟩ := Option.map_eq_some_iff.1 h
      have ih := over_joinWith hr ha hrest
      exact ⟨ih.1, overAll_cons.2 ⟨hb, ih.2⟩⟩

theorem overAll_joinPass : ∀ {fuel : Nat} {ts : List Expr}, OverAll S ts →
    OverAll S (joinPass fuel ts)
  | 0, _, hts => by
    unfold joinPass
    exact hts
  | _ + 1, [], _ => by
    unfold joinPass
    exact overAll_nil
  | fuel + 1, a :: rest, hts => by
    obtain ⟨ha, hrest⟩ := overAll_cons.1 hts
    unfold joinPass
    split
    · rename_i heq
      have hjoined := over_joinWith heq ha hrest
      exact overAll_cons.2 ⟨hjoined.1, overAll_joinPass hjoined.2⟩
    · exact overAll_cons.2 ⟨ha, overAll_joinPass hrest⟩

theorem over_joinTerms : ∀ {fuel : Nat} {ts : List Expr} {v : Expr},
    joinTerms? fuel ts = some v → OverAll S ts → Over S v
  | 0, _, _, h, _ => by
    unfold joinTerms? at h
    exact absurd h (by simp)
  | fuel + 1, ts, v, h, hts => by
    have hsum : Over S (sum (joinPass ts.length (sortBySize ts))) :=
      over_sum (overAll_joinPass (Canonical.overAll_sortBySize hts))
    unfold joinTerms? at h
    simp only at h
    split at h
    · exact absurd h (by simp)
    · split at h
      · rename_i heq
        obtain rfl := Option.some.inj h
        have hus := hsum
        rw [heq] at hus
        exact over_getD (fun v hv => over_joinTerms hv (over_app.1 hus)) hsum
      · exact Option.some.inj h ▸ hsum

theorem over_groupTerms {ts : List Expr} (hts : OverAll S ts) :
    ∀ g ∈ groupTerms ts, Over S g.1.1 ∧ OverAll S g.2 := by
  unfold groupTerms
  refine List.foldlRecOn (motive := fun (gs : List ((Expr × List String) × List Expr)) =>
    ∀ g ∈ gs, Over S g.1.1 ∧ OverAll S g.2) _ _ (fun _ h => absurd h List.not_mem_nil)
    fun gs hgs t ht => ?_
  have hparts := over_coeffMul (hts t ht)
  have hsigned : Over S (if t.coeffMul.1.isNegativeNumber then
      (negNumber t.coeffMul.1, -t.coeffMul.2) else t.coeffMul).1 ∧
      Over S (if t.coeffMul.1.isNegativeNumber then
      (negNumber t.coeffMul.1, -t.coeffMul.2) else t.coeffMul).2 := by
    split
    · exact ⟨over_negNumber hparts.1, over_neg hparts.2⟩
    · exact hparts
  simp only
  generalize (if t.coeffMul.1.isNegativeNumber then
      (negNumber t.coeffMul.1, -t.coeffMul.2) else t.coeffMul) = r at hsigned
  split
  · refine List.forall_mem_map.2 fun g hg => ?_
    obtain ⟨hkey, hmembers⟩ := hgs g hg
    split
    · exact ⟨hkey, by simp [hmembers, hsigned.2]⟩
    · exact ⟨hkey, hmembers⟩
  · exact List.forall_mem_append.2 ⟨hgs, List.forall_mem_singleton.2
      ⟨hsigned.1, by simp [hsigned.2]⟩⟩

@[grind ←] theorem over_joinAngles (he : Over S e) : Over S (joinAngles e) := by
  refine over_bottomUp (fun e he => ?_) he
  split
  · rename_i ts
    have hgroups := over_groupTerms (over_app.1 he)
    extract_lets groups joined
    have hjoined : Over S joined := by
      simp only [joined]
      split
      · exact he
      · refine over_sum (overAll_map fun g hg => ?_)
        obtain ⟨k, hk, rfl⟩ := List.mem_map.1 hg
        obtain ⟨hkey, hmembers⟩ := hgroups k hk
        exact over_mul hkey (over_getD (fun v hv => over_joinTerms hv hmembers)
          (over_sum hmembers))
    clear_value joined
    split
    · exact over_getD (fun v hv => over_joinTerms hv (over_app.1 hjoined)) hjoined
    · exact hjoined
  · exact he

end ErrorBars.Expr
