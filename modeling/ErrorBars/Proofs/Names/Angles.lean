import ErrorBars.Expr.Simplify.Trig.Rules
import ErrorBars.Proofs.Names.Cancel

/-!
# The laws of circular functions are over the same variables

Quotients, squares, sums of angles, products and sums of sines and cosines.
-/

set_option autoImplicit false

namespace ErrorBars.Expr

variable {S : String → Prop} {e : Expr}

/-! ## Quotients -/

@[grind ←] theorem over_secantsToReciprocals (he : Over S e) :
    Over S (secantsToReciprocals e) := by
  refine over_bottomUp (fun e he => ?_) he
  split <;> grind -ring -linarith -lia

@[grind ←] theorem over_tangentsToQuotients (he : Over S e) :
    Over S (tangentsToQuotients e) := by
  refine over_bottomUp (fun e he => ?_) he
  split <;> grind -ring -linarith -lia

theorem over_joinTangents :
    ∀ {fuel : Nat} {ps : List (Expr × Expr)}, PairsOver S ps → PairsOver S (joinTangents fuel ps)
  | 0, ps, hps => by
    unfold joinTangents
    exact hps
  | _ + 1, [], _ => by
    unfold joinTangents
    exact pairsOver_nil
  | fuel + 1, (b, n) :: rest, hps => by
    obtain ⟨⟨hb, hn⟩, hrest⟩ := pairsOver_cons.1 hps
    have hplain : PairsOver S ((b, n) :: joinTangents fuel rest) :=
      pairsOver_cons.2 ⟨⟨hb, hn⟩, over_joinTangents hrest⟩
    unfold joinTangents
    extract_lets other
    have hangle : ∀ r, other = some r → Over S r.2 := by
      intro r hr
      simp only [other] at hr
      split at hr
      · grind
      · grind
      · exact absurd hr (by simp)
    split
    · rename_i heq _
      split
      · refine pairsOver_cons.2 ⟨⟨over_apply_single (hangle _ heq), over_int _⟩, ?_⟩
        exact over_joinTangents fun p hp => hrest p (List.mem_filter.1 hp).1
      · exact hplain
    · exact hplain

@[grind ←] theorem over_quotientsToTangents (he : Over S e) :
    Over S (quotientsToTangents e) := by
  refine over_bottomUp (fun e he => ?_) he
  split
  · rename_i fs
    have hpowers : PairsOver S (fs.map baseExp) :=
      pairsOver_map fun f hf => over_baseExp (over_app.1 he f hf)
    have hjoined : PairsOver S (joinTangents (fs.map baseExp).length (fs.map baseExp)) :=
      over_joinTangents hpowers
    simp only
    split
    · exact he
    · exact over_product (overAll_map fun p hp => over_power (hjoined p hp).1 (hjoined p hp).2)
  · exact he

@[grind ←] theorem over_reciprocalsToSecants (he : Over S e) :
    Over S (reciprocalsToSecants e) := by
  refine over_bottomUp (fun e he => ?_) he
  split
  · have hx := over_app.1 he
    simp only [overAll_cons, over_app] at hx
    simp only
    split
    · split
      · exact over_power (over_apply_single hx.1.1) (over_rat _)
      · exact over_power (over_apply_single hx.1.1) (over_rat _)
      · exact over_power (over_apply_single hx.1.1) (over_rat _)
      · exact he
    · exact he
  · exact he

/-! ## Squares -/

/-- A rule for squares makes up no variables. -/
def SquareRule.Preserves (S : String → Prop) (r : SquareRule) : Prop :=
  ∀ s, Expr.Over S s → Expr.Over S (r.square s)

theorem SquareRule.over_power {r : SquareRule} {f : Func} {x v : Expr} {n : Int}
    (h : r.power? f x n = some v) (hr : r.Preserves S) (hx : Over S x) : Over S v := by
  have hsquare : ∀ k : Int, Over S (Expr.power (r.square (Expr.power (Expr.apply r.target [x])
      (int 2))) (int k)) := fun k =>
    Expr.over_power (hr _ (Expr.over_power (over_apply_single hx) (over_int _))) (over_int _)
  unfold power? at h
  split at h
  · obtain rfl := Option.some.inj h
    split
    · exact hsquare _
    · exact over_mul (over_apply_single hx) (hsquare _)
  · exact absurd h (by simp)

theorem SquareRule.over_apply {r : SquareRule} (hr : r.Preserves S) (he : Over S e) :
    Over S (r.apply e) := by
  refine over_bottomUp (fun e he => ?_) he
  split
  · have hx := over_app.1 he
    simp only [overAll_cons, over_app] at hx
    simp only
    split
    · exact over_getD (fun v hv => SquareRule.over_power hv hr hx.1.1) he
    · exact he
  · exact he

theorem SquareRule.over_applyBelow {r : SquareRule} (hr : r.Preserves S) (he : Over S e) :
    Over S (r.applyBelow e) := by
  refine over_bottomUp (fun e he => ?_) he
  split
  · have hx := over_app.1 he
    simp only [overAll_cons, over_app] at hx
    simp only
    split
    · split
      · exact over_getD (fun v hv => SquareRule.over_power hv hr hx.1.1) he
      · split
        · rename_i heq
          exact over_div (SquareRule.over_power heq hr hx.1.1) (over_apply_single hx.1.1)
        · exact he
    · exact he
  · exact he

theorem preserves_sineSquares : sineSquares.Preserves S := fun _ hs => over_sub over_one hs

theorem preserves_cosineSquares : cosineSquares.Preserves S := fun _ hs => over_sub over_one hs

theorem preserves_tangentSquares : tangentSquares.Preserves S := fun _ hs => over_sub hs over_one

theorem preserves_cotangentSquares : cotangentSquares.Preserves S :=
  fun _ hs => over_sub hs over_one

theorem preserves_sineReciprocals : sineReciprocals.Preserves S :=
  fun _ hs => over_add over_one hs

theorem preserves_cosineReciprocals : cosineReciprocals.Preserves S :=
  fun _ hs => over_add over_one hs

/-! ## Sums of angles -/

theorem over_sumOfAngles : ∀ {as : List Expr}, OverAll S as →
    Over S (sumOfAngles as).1 ∧ Over S (sumOfAngles as).2
  | [], _ => ⟨over_zero, over_one⟩
  | [a], has => by
    have ha := has a List.mem_cons_self
    exact ⟨over_apply_single ha, over_apply_single ha⟩
  | a :: b :: rest, has => by
    have ha := over_apply_single (f := .sin) (has a List.mem_cons_self)
    have ha' := over_apply_single (f := .cos) (has a List.mem_cons_self)
    have hrest := over_sumOfAngles (overAll_cons.1 has).2
    unfold sumOfAngles
    exact ⟨over_add (over_mul ha hrest.2) (over_mul ha' hrest.1),
      over_sub (over_mul ha' hrest.2) (over_mul ha hrest.1)⟩

@[grind ←] theorem over_openAngles (he : Over S e) : Over S (openAngles e) := by
  refine over_bottomUp (fun e he => ?_) he
  split
  · have hts := over_app.1 he
    simp only [overAll_cons, over_app] at hts
    have hopened := over_sumOfAngles (overAll_reverse (Canonical.overAll_sortBySize hts.1))
    simp only
    split
    · exact he
    · split
      · exact hopened.1
      · split
        · exact hopened.2
        · exact he
  · exact he

theorem over_tangentOfSum : ∀ {as : List Expr}, OverAll S as → Over S (tangentOfSum as)
  | [], _ => over_zero
  | [a], has => over_apply_single (has a List.mem_cons_self)
  | a :: b :: rest, has => by
    have ha := over_apply_single (f := .tan) (has a List.mem_cons_self)
    have hrest := over_tangentOfSum (overAll_cons.1 has).2
    unfold tangentOfSum
    exact over_div (over_add ha hrest) (over_sub over_one (over_mul ha hrest))

@[grind ←] theorem over_openTangents (he : Over S e) : Over S (openTangents e) := by
  refine over_bottomUp (fun e he => ?_) he
  split
  · have hts := over_app.1 he
    simp only [overAll_cons, over_app] at hts
    split
    · exact he
    · exact over_tangentOfSum (overAll_reverse (Canonical.overAll_sortBySize hts.1))
  · exact he

theorem over_halfAngles : ∀ {fuel : Nat} {x : Expr}, Over S x →
    Over S (halfAngles fuel x).1 ∧ Over S (halfAngles fuel x).2
  | 0, _, hx => ⟨over_apply_single hx, over_apply_single hx⟩
  | fuel + 1, x, hx => by
    have hplain : Over S (apply .sin [x]) ∧ Over S (apply .cos [x]) :=
      ⟨over_apply_single hx, over_apply_single hx⟩
    have hhalf : ∀ (q : Rat) (m : Expr), Over S m →
        Over S (int 2 * (halfAngles fuel (.rat (q / 2) * m)).1 *
          (halfAngles fuel (.rat (q / 2) * m)).2) ∧
        Over S (power (halfAngles fuel (.rat (q / 2) * m)).2 (int 2) -
          power (halfAngles fuel (.rat (q / 2) * m)).1 (int 2)) := by
      intro q m hm
      have hhalf : Over S (.rat (q / 2) * m) := over_mul (over_rat (q / 2)) hm
      have ih : Over S (halfAngles fuel (.rat (q / 2) * m)).1 ∧
          Over S (halfAngles fuel (.rat (q / 2) * m)).2 := over_halfAngles hhalf
      exact ⟨over_mul (over_mul (over_int _) ih.1) ih.2,
        over_sub (over_power ih.2 (over_int _)) (over_power ih.1 (over_int _))⟩
    unfold halfAngles
    simp -zeta only
    split
    · have hrest := over_app.1 hx
      simp only [overAll_cons] at hrest
      split
      · exact hhalf _ _ (over_productOf hrest.2)
      · exact hplain
    · split
      · exact hhalf _ _ hx
      · exact hplain

@[grind ←] theorem over_openDoubles (he : Over S e) : Over S (openDoubles e) := by
  refine over_bottomUp (fun e he => ?_) he
  split
  · have hx := over_app.1 he
    simp only [overAll_cons] at hx
    exact (over_halfAngles hx.1).1
  · have hx := over_app.1 he
    simp only [overAll_cons] at hx
    exact (over_halfAngles hx.1).2
  · exact he

end ErrorBars.Expr
