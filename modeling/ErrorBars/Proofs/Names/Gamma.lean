import ErrorBars.Expr.Simplify.Gamma
import ErrorBars.Proofs.Names.Trig

/-!
# Joined gamma functions are over the same variables
-/

set_option autoImplicit false

namespace ErrorBars.Expr

variable {S : String → Prop} {e x y : Expr}

/-! ## Moved arguments -/

theorem over_gammaOf (hx : Over S x) : Over S (gammaOf x) := over_apply_single hx

theorem over_factorialsToGammas (he : Over S e) : Over S (factorialsToGammas e) := by
  have hsuccessor : ∀ x, Over S x → Over S (gammaOf (x + one)) := fun x hx =>
    over_gammaOf (over_add hx over_one)
  refine over_bottomUp (fun e he => ?_) he
  split
  · have hx := over_app.1 he
    simp only [overAll_cons] at hx
    exact hsuccessor _ hx.1
  · have hx := over_app.1 he
    simp only [overAll_cons] at hx
    exact over_div (hsuccessor _ hx.1)
      (over_mul (hsuccessor _ hx.2.1) (hsuccessor _ (over_sub hx.1 hx.2.1)))
  · exact he

theorem over_risingProduct {lo : Int} {count : Nat} (hx : Over S x) :
    Over S (risingProduct x lo count) :=
  over_product (overAll_map fun _ _ => over_add hx (over_int _))

theorem over_shiftGamma (hx : Over S x) : Over S (shiftGamma x) := by
  unfold shiftGamma
  extract_lets y
  have hy : Over S y := over_expand (over_sub hx over_one)
  have hm := (over_coeffAdd hy).2
  have hmoved : Over S (one + y.coeffAdd.2) := over_add over_one hm
  have hwhole : Over S (gammaOf (one + y)) := over_gammaOf (over_add over_one hy)
  clear_value y
  simp only
  split
  · split
    · exact hwhole
    · split
      · exact over_mul (over_gammaOf hmoved) (over_risingProduct hmoved)
      · exact over_div (over_gammaOf hmoved) (over_risingProduct hmoved)
  · exact hwhole

theorem over_shiftGammas (he : Over S e) : Over S (shiftGammas e) := by
  refine over_bottomUp (fun e he => ?_) he
  split
  · have hx := over_app.1 he
    simp only [overAll_cons] at hx
    exact over_shiftGamma hx.1
  · exact he

/-! ## Quotients of gamma functions -/

/-- A side of a quotient is over these variables. -/
structure GammaSide.Over (S : String → Prop) (s : GammaSide) : Prop where
  /-- the arguments of gamma functions -/
  gammas : OverAll S s.gammas
  /-- the other factors -/
  others : OverAll S s.others

/-- A quotient is over these variables. -/
structure GammaQuotient.Over (S : String → Prop) (q : GammaQuotient) : Prop where
  /-- what is above the line -/
  above : q.above.Over S
  /-- what is below the line -/
  below : q.below.Over S

theorem overAll_more {es : List Expr} (hes : OverAll S es) (hx : Over S x) :
    OverAll S (es ++ [x]) := overAll_append.2 ⟨hes, overAll_cons.2 ⟨hx, overAll_nil⟩⟩

theorem overAll_replicate {n : Nat} (hx : Over S x) : OverAll S (List.replicate n x) :=
  fun _ hy => List.eq_of_mem_replicate hy ▸ hx

theorem over_takeGamma {s : GammaSide} {f : Expr} (hs : s.Over S) (hf : Over S f) :
    (s.take f).Over S := by
  have hb := over_baseExp hf
  unfold GammaSide.take
  split
  · exact hs
  · simp only
    split
    · split
      · rename_i heq
        rw [heq] at hb
        have hx := over_app.1 hb.1
        simp only [overAll_cons] at hx
        exact ⟨overAll_append.2 ⟨hs.gammas, overAll_replicate hx.1⟩, hs.others⟩
      · exact ⟨hs.gammas, overAll_append.2 ⟨hs.others, overAll_replicate hb.1⟩⟩
    · exact ⟨hs.gammas, overAll_more hs.others hf⟩

theorem GammaQuotient.over_ofFactors {fs : List Expr} (hfs : OverAll S fs) :
    (ofFactors fs).Over S := by
  refine List.foldlRecOn (motive := fun (q : GammaQuotient) => q.Over S) _ _
    ⟨⟨overAll_nil, overAll_nil⟩, ⟨overAll_nil, overAll_nil⟩⟩ fun q hq f hf => ?_
  have hparts := over_numerDenom
    (overAll_reverse (Canonical.overAll_sortBySize hfs) f hf)
  exact ⟨over_takeGamma hq.above hparts.1, over_takeGamma hq.below hparts.2⟩

theorem GammaQuotient.over_toExpr {q : GammaQuotient} (hq : q.Over S) :
    Expr.Over S q.toExpr := by
  have hgammas : ∀ {es : List Expr}, OverAll S es →
      Expr.Over S (product (es.map gammaOf)) := fun hes =>
    over_product (overAll_map fun x hx => over_gammaOf (hes x hx))
  exact over_div (over_mul (over_div (hgammas hq.above.gammas) (hgammas hq.below.gammas))
    (over_product hq.above.others)) (over_product hq.below.others)

/-! ### Laws -/

theorem over_pick {α : Type} {P : α → Prop} {f : Expr → Option α}
    (hf : ∀ x a, f x = some a → Over S x → P a) :
    ∀ {es : List Expr} {r : α × List Expr}, pick? f es = some r → OverAll S es →
      P r.1 ∧ OverAll S r.2
  | [], _, h, _ => by
    unfold pick? at h
    exact absurd h (by simp)
  | x :: xs, r, h, hes => by
    obtain ⟨hx, hxs⟩ := overAll_cons.1 hes
    unfold pick? at h
    split at h
    · rename_i heq
      exact Option.some.inj h ▸ ⟨hf x _ heq hx, hxs⟩
    · obtain ⟨s, hs, rfl⟩ := Option.map_eq_some_iff.1 h
      have ih := over_pick hf hs hxs
      exact ⟨ih.1, overAll_cons.2 ⟨hx, ih.2⟩⟩

theorem over_reflectGammas : ∀ {fuel : Nat} {xs : List Expr} {q : GammaQuotient},
    OverAll S xs → q.Over S → (reflectGammas fuel xs q).Over S
  | 0, _, _, _, hq => by
    unfold reflectGammas
    exact hq
  | _ + 1, [], _, _, hq => by
    unfold reflectGammas
    exact hq
  | fuel + 1, x :: rest, q, hxs, hq => by
    obtain ⟨hx, hrest⟩ := overAll_cons.1 hxs
    have hkeep : (reflectGammas fuel rest
        { q with above := { q.above with gammas := q.above.gammas ++ [x] } }).Over S :=
      over_reflectGammas hrest
        ⟨⟨overAll_more hq.above.gammas hx, hq.above.others⟩, hq.below⟩
    unfold reflectGammas
    simp only
    split
    · exact hkeep
    · split
      · exact hkeep
      · rename_i n others hpicked
        have hothers := (over_pick (P := fun _ => True) (fun _ _ _ _ => trivial) hpicked
          (overAll_reverse hrest)).2
        have habove : OverAll S (if 0 < n then
            (List.range n.natAbs).map fun (k : Nat) => one - x + int k else []) := by
          split
          · exact overAll_map fun _ _ => over_add (over_sub over_one hx) (over_int _)
          · exact overAll_nil
        have hbelow : OverAll S (if n < 0 then
            (List.range n.natAbs).map fun (k : Nat) => -x - int k else []) := by
          split
          · exact overAll_map fun _ _ => over_sub (over_neg hx) (over_int _)
          · exact overAll_nil
        have hsine : Over S (apply .sin [pi * x]) := over_apply_single (over_mul over_pi hx)
        exact over_reflectGammas (overAll_reverse hothers)
          ⟨⟨hq.above.gammas, overAll_append.2
            ⟨hq.above.others, overAll_cons.2 ⟨over_pi, habove⟩⟩⟩,
            ⟨hq.below.gammas, overAll_append.2
              ⟨hq.below.others, overAll_cons.2 ⟨hsine, hbelow⟩⟩⟩⟩

theorem over_duplicateGammas : ∀ {fuel : Nat} {q : GammaQuotient}, q.Over S →
    (duplicateGammas fuel q).Over S
  | 0, _, hq => by
    unfold duplicateGammas
    exact hq
  | fuel + 1, q, hq => by
    have hpair : ∀ x r, pick? (fun y => (x - int 2 * y).int?.map fun n => (n, y))
        q.below.gammas = some r → Over S x → Over S r.1.2 ∧ OverAll S r.2 := by
      intro x r hr _
      refine over_pick (P := fun (a : Int × Expr) => Over S a.2) (fun y a ha hy => ?_) hr
        hq.below.gammas
      obtain ⟨n, -, rfl⟩ := Option.map_eq_some_iff.1 ha
      exact hy
    unfold duplicateGammas
    simp only
    split
    · exact hq
    · rename_i n y below above hpicked
      obtain ⟨⟨hy, hbelow⟩, habove⟩ := over_pick
        (P := fun (r : (Int × Expr) × List Expr) => Over S r.1.2 ∧ OverAll S r.2) hpair hpicked
        hq.above.gammas
      have htwice : Over S (int 2 * y) := over_mul (over_int _) hy
      have hodd : Over S (int 2 * y - one) := over_sub htwice over_one
      have hmore : OverAll S (if 0 < n then
          (List.range n.natAbs).map fun (k : Nat) => int 2 * y + int k else []) := by
        split
        · exact overAll_map fun _ _ => over_add htwice (over_int _)
        · exact overAll_nil
      have hless : OverAll S (if n < 0 then
          (List.range n.natAbs).map fun (k : Nat) => int 2 * y - one - int k else []) := by
        split
        · exact overAll_map fun _ _ => over_sub hodd (over_int _)
        · exact overAll_nil
      refine over_duplicateGammas
        ⟨⟨overAll_more habove (over_add hy over_half), overAll_more ?_ ?_⟩,
          ⟨hbelow, overAll_more (overAll_append.2 ⟨hq.below.others, hless⟩)
            (over_sqrt over_pi)⟩⟩
      · exact overAll_append.2 ⟨hq.above.others, hmore⟩
      · exact over_power (over_int _) hodd

theorem overAll_sortByKey {key : Expr → SortKey} {es : List Expr} (hes : OverAll S es) :
    OverAll S (sortByKey key es) := by
  refine overAll_map fun p hp => ?_
  obtain ⟨e, he, rfl⟩ := List.mem_map.1 ((List.mergeSort_perm _ _).mem_iff.1 hp)
  exact hes e he

theorem over_multiplyRuns {tail : Expr} (htail : Over S tail) :
    ∀ {fuel : Nat} {cs : List Rat}, OverAll S (multiplyRuns tail fuel cs).1 ∧
      OverAll S (multiplyRuns tail fuel cs).2.2
  | 0, _ => by
    unfold multiplyRuns
    exact ⟨overAll_nil, overAll_nil⟩
  | fuel + 1, cs => by
    unfold multiplyRuns
    simp only
    split
    · exact ⟨overAll_nil, overAll_nil⟩
    · rename_i c n others _ _
      have harg : Over S (int n * (tail + .rat c)) :=
        over_mul (over_int _) (over_add htail (over_rat _))
      generalize others.foldl (fun ds u => ds.erase u) (cs.erase c) = rest
      have ih : OverAll S (multiplyRuns tail fuel rest).1 ∧
          OverAll S (multiplyRuns tail fuel rest).2.2 := over_multiplyRuns htail
      refine ⟨overAll_append.2 ⟨overAll_flatMap fun u _ => overAll_map fun k _ =>
        over_add htail (over_rat _), overAll_cons.2 ⟨?_, ih.1⟩⟩, overAll_cons.2 ⟨harg, ih.2⟩⟩
      exact over_mul (over_power (over_mul (over_int _) over_pi) (over_rat _))
        (over_power (over_int _) (over_sub over_half harg))

namespace GammaQuotient

theorem over_swap {q : GammaQuotient} (hq : q.Over S) : q.swap.Over S := ⟨hq.below, hq.above⟩

theorem over_onBoth {law : GammaQuotient → GammaQuotient}
    (hlaw : ∀ q, q.Over S → (law q).Over S) {q : GammaQuotient} (hq : q.Over S) :
    (q.onBoth law).Over S := over_swap (hlaw _ (over_swap (hlaw q hq)))

theorem over_reflect {q : GammaQuotient} (hq : q.Over S) : q.reflect.Over S :=
  over_reflectGammas (overAll_reverse hq.above.gammas)
    ⟨⟨overAll_nil, hq.above.others⟩, hq.below⟩

theorem over_duplicate {q : GammaQuotient} (hq : q.Over S) : q.duplicate.Over S :=
  over_duplicateGammas hq

theorem over_multiply {q : GammaQuotient} (hq : q.Over S) : q.multiply.Over S := by
  unfold multiply
  extract_lets split tails fixed parts
  have hsplit : ∀ s ∈ split, Expr.Over S s.1 := by
    refine List.forall_mem_map.2 fun g hg => ?_
    have hg := hq.above.gammas g hg
    have hparts := over_coeffAdd hg
    split
    · rename_i heq
      rw [heq] at hparts
      exact hparts.2
    · exact hg
  have htails : OverAll S tails := by
    refine overAll_sortByKey (overAll_eraseDups (overAll_filterMap fun s hs v hv => ?_))
    obtain ⟨_, -, rfl⟩ := Option.map_eq_some_iff.1 hv
    exact hsplit s hs
  have hfixed : OverAll S fixed := by
    refine overAll_filterMap fun s hs v hv => ?_
    split at hv
    · exact Option.some.inj hv ▸ hsplit s hs
    · exact absurd hv (by simp)
  have hparts : ∀ p ∈ parts, Expr.Over S p.1 ∧ OverAll S p.2.1 ∧ OverAll S p.2.2.2 := by
    refine List.forall_mem_map.2 fun t ht => ?_
    exact ⟨htails t ht, over_multiplyRuns (htails t ht)⟩
  split
  · exact hq
  · refine ⟨⟨overAll_append.2 ⟨hfixed, overAll_flatMap fun p hp => overAll_append.2
      ⟨overAll_map fun c _ => over_add (hparts p hp).1 (over_rat _), (hparts p hp).2.2⟩⟩,
      overAll_append.2 ⟨hq.above.others, overAll_flatMap fun p hp => (hparts p hp).2.1⟩⟩,
      hq.below⟩

end GammaQuotient

/-! ### Absorption -/

theorem over_absorbInto : ∀ {fuel : Nat} {g : Expr} {q : GammaQuotient}, Over S g → q.Over S →
    Over S (absorbInto fuel g q).1 ∧ (absorbInto fuel g q).2.Over S
  | 0, _, _, hg, hq => ⟨hg, hq⟩
  | fuel + 1, g, q, hg, hq => by
    unfold absorbInto
    extract_lets test side up raised g' side' side'' down
    have htest : ∀ x y v, test x y = some v → Over S y → Over S v := by
      intro x y v hv hy
      simp only [test] at hv
      split at hv
      · exact Option.some.inj hv ▸ hy
      · exact absurd hv (by simp)
    have hup : ∀ r, up = some r → Over S r.1 ∧ r.2.Over S := by
      intro r hr
      simp only [up] at hr
      split at hr
      · exact absurd hr (by simp)
      · rename_i y others hpicked
        obtain ⟨hy, hothers⟩ := over_pick (P := Over S) (htest g) hpicked hq.above.others
        obtain rfl := Option.some.inj hr
        refine ⟨over_add hg over_one, ⟨hq.above.gammas, ?_⟩, hq.below⟩
        simp only
        split
        · exact hothers
        · exact overAll_more hothers (over_div hy hg)
    have hraised : Over S raised.1 ∧ raised.2.Over S := by
      cases hr : up with
      | none => simpa [raised, hr] using ⟨hg, hq⟩
      | some r => simpa [raised, hr] using hup r hr
    have hlower : Over S g' := over_sub hraised.1 over_one
    have hdown : ∀ r, down = some r → Over S r.1 ∧ r.2.Over S := by
      intro r hr
      simp only [down] at hr
      split at hr
      · exact absurd hr (by simp)
      · rename_i y others hpicked
        obtain ⟨hy, hothers⟩ := over_pick (P := Over S) (htest g') hpicked
          hraised.2.below.others
        obtain rfl := Option.some.inj hr
        refine ⟨hlower, ?_, ⟨hraised.2.below.gammas, hothers⟩⟩
        simp only
        split
        · exact hraised.2.above
        · exact ⟨hraised.2.above.gammas,
            overAll_more hraised.2.above.others (over_div hlower hy)⟩
    clear_value up down
    split
    · exact ⟨hg, hq⟩
    · have hdown := hdown _ rfl
      exact over_absorbInto hdown.1 hdown.2
    · have hup := hup _ rfl
      exact over_absorbInto hup.1 hup.2

theorem GammaQuotient.over_absorb {q : GammaQuotient} (hq : q.Over S) : q.absorb.Over S := by
  refine List.foldlRecOn (motive := fun (q : GammaQuotient) => q.Over S) _ _
    ⟨⟨overAll_nil, hq.above.others⟩, hq.below⟩ fun r hr g hg => ?_
  have hgamma : Expr.Over S g := overAll_reverse hq.above.gammas g hg
  have hstep :=
    @over_absorbInto S (q.above.others.length + q.below.others.length + 1) g r hgamma hr
  exact ⟨⟨overAll_more hstep.2.above.gammas hstep.1, hstep.2.above.others⟩, hstep.2.below⟩

/-! ## Joining gamma functions -/

theorem over_applyGammaLaws (he : Over S e) : Over S (applyGammaLaws e) := by
  unfold applyGammaLaws
  split
  · have hq := GammaQuotient.over_ofFactors (over_app.1 he)
    have hreflected := GammaQuotient.over_onBoth (fun _ => GammaQuotient.over_reflect) hq
    have hdoubled := GammaQuotient.over_onBoth (fun _ => GammaQuotient.over_duplicate) hreflected
    have hmultiplied := GammaQuotient.over_onBoth (fun _ => GammaQuotient.over_multiply) hdoubled
    exact GammaQuotient.over_toExpr
      (GammaQuotient.over_onBoth (fun _ => GammaQuotient.over_absorb) hmultiplied)
  · exact he

theorem over_settleGammas : ∀ {fuel : Nat} {e : Expr}, Over S e → Over S (settleGammas fuel e)
  | 0, _, he => by
    unfold settleGammas
    exact he
  | fuel + 1, e, he => by
    unfold settleGammas
    simp only
    split
    · exact he
    · exact over_settleGammas (over_applyGammaLaws he)

theorem over_cancelGammas (he : Over S e) : Over S (cancelGammas e) := by
  unfold cancelGammas
  simp only
  split
  · exact over_shiftGammas he
  · exact he

theorem over_joinInSums : ∀ {fs before : List Expr} {d : Expr}, OverAll S before → OverAll S fs →
    Over S d → Over S (joinInSums before fs d).1 ∧ Over S (joinInSums before fs d).2
  | [], _, _, hbefore, _, hd => by
    unfold joinInSums
    exact ⟨over_product hbefore, hd⟩
  | f :: fs, before, d, hbefore, hfs, hd => by
    obtain ⟨hf, hrest⟩ := overAll_cons.1 hfs
    unfold joinInSums
    split
    · rename_i ts
      have hsum : Over S (sum (ts.map fun t =>
          settleGammas gammaRounds (cancelGammas (t / d)))) :=
        over_sum (overAll_map fun t ht =>
          over_settleGammas (over_cancelGammas (over_div (over_app.1 hf t ht) hd)))
      have hparts := over_numerDenom hsum
      simp only
      split
      · exact over_joinInSums (overAll_more hbefore hparts.1) hrest hparts.2
      · exact ⟨over_product (overAll_append.2
          ⟨hbefore, overAll_cons.2 ⟨hparts.1, hrest⟩⟩), hparts.2⟩
    · exact over_joinInSums (overAll_more hbefore hf) hrest hd

theorem over_joinProductGammas (he : Over S e) : Over S (joinProductGammas e) := by
  unfold joinProductGammas
  split
  · rename_i fs
    have hfs := over_app.1 he
    have hother : Over S (product (fs.filter fun f => !f.hasGammaFactor)) :=
      over_product (overAll_filter hfs)
    have hparts : Over S (product (fs.filter hasGammaFactor)).numerDenom.1 ∧
        Over S (product (fs.filter hasGammaFactor)).numerDenom.2 :=
      over_numerDenom (over_product (overAll_filter hfs))
    have hsplit : ∀ n d, Over S n → Over S d →
        Over S (joinInSums [] (sortBySize n.factors) d).1 ∧
          Over S (joinInSums [] (sortBySize n.factors) d).2 := fun n d hn hd =>
      over_joinInSums overAll_nil (Canonical.overAll_sortBySize (overAll_factors hn)) hd
    have habove := hsplit _ _ hparts.1 hparts.2
    simp only
    generalize joinInSums [] (sortBySize (product (fs.filter hasGammaFactor)).numerDenom.1.factors)
      (product (fs.filter hasGammaFactor)).numerDenom.2 = r at habove
    have hbelow := hsplit _ _ habove.2 habove.1
    generalize hr : (if r.1.hasGammaFactor then
      ((joinInSums [] (sortBySize r.2.factors) r.1).2,
        (joinInSums [] (sortBySize r.2.factors) r.1).1) else (r.1, r.2)) = s
    have hs : Over S s.1 ∧ Over S s.2 := by
      rw [← hr]
      split
      · exact ⟨hbelow.2, hbelow.1⟩
      · exact habove
    have hjoined : Over S (product (fs.filter fun f => !f.hasGammaFactor) * s.1 / s.2) :=
      over_div (over_mul hother hs.1) hs.2
    split
    · exact over_settleGammas hjoined
    · exact hjoined
  · exact he

theorem over_joinGammas (he : Over S e) : Over S (joinGammas e) := by
  unfold joinGammas
  split
  · exact over_joinProductGammas (over_rebuild (overAll_map fun a ha =>
      over_joinProductGammas (over_app.1 he a ha)))
  · exact he

theorem over_reduceGamma {q : Rat} : Over S (reduceGamma q) := by
  unfold reduceGamma
  split
  · exact over_gammaOf (over_rat q)
  · simp only
    split
    · exact over_mul (over_gammaOf (over_rat _)) (over_risingProduct (over_rat _))
    · exact over_div (over_gammaOf (over_rat _)) (over_risingProduct (over_rat _))

theorem over_settlePlainGammas (he : Over S e) : Over S (settlePlainGammas e) := by
  have hfirst := over_factor (over_shiftGammas he)
  unfold settlePlainGammas
  refine over_bottomUp (fun e he => ?_) ?_
  · split
    · exact over_reduceGamma
    · exact he
  · split
    · exact hfirst
    · exact over_factor (over_joinGammas hfirst)

/-! ## The whole -/

theorem over_mask {parts : List (Expr × String)} : ∀ {fuel : Nat} {e : Expr}, Over S e →
    Over S (mask parts fuel e)
  | 0, _, he => by
    unfold mask
    exact he
  | fuel + 1, e, he => by
    unfold mask
    split
    · exact over_dummy _
    · split
      · simp only
        split
        · exact he
        · exact over_rebuild (overAll_map fun a ha => over_mask (over_app.1 he a ha))
      · exact he

theorem over_unmask {parts : List (String × Expr)} (hparts : SecondsOver S parts)
    (he : Over S e) : Over S (unmask parts e) := by
  refine over_foldUp (fun l hl => ?_) (fun h as has => over_rebuild has) _ he
  split
  · rename_i name
    refine over_getD (fun v hv => ?_) hl
    obtain ⟨before, after, heq, -⟩ := List.lookup_eq_some_iff.1 hv
    exact hparts (name, v) (by simp [heq])
  · exact hl

@[grind ←] theorem over_simplifyGammas (he : Over S e) : Over S (simplifyGammas e) := by
  have hg := over_factorialsToGammas he
  unfold simplifyGammas
  extract_lets g gammas parts values
  have hvalues : SecondsOver S values := by
    refine secondsOver_map fun p hp => ?_
    obtain ⟨r, hr, rfl⟩ := List.mem_map.1 hp
    have hpart : Over S r.1 := Canonical.overAll_sortBySize
      (overAll_eraseDups (over_partsWith hg)) r.1 (List.fst_mem_of_mem_zipIdx hr)
    split
    · rename_i heq
      rw [heq] at hpart
      exact over_apply (overAll_map fun a ha => over_settlePlainGammas (over_app.1 hpart a ha))
    · exact hpart
  split
  · exact over_settlePlainGammas hg
  · split
    · exact he
    · exact over_unmask hvalues (over_settlePlainGammas (over_mask hg))

end ErrorBars.Expr
