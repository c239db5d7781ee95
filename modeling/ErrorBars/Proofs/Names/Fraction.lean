import ErrorBars.Expr.Simplify.Fraction
import ErrorBars.Expr.Simplify.Together
import ErrorBars.Proofs.Names.Content

/-!
# Fractions are over the same variables

Numerators and denominators, and expressions brought over one denominator.
-/

set_option autoImplicit false

namespace ErrorBars.Expr

variable {S : String → Prop} {e : Expr}

/-! ## Numerators and denominators -/

theorem over_powerNumerDenom {b x n d : Expr} (hb : Over S b) (hx : Over S x) (hn : Over S n)
    (hd : Over S d) :
    Over S (powerNumerDenom b x n d).1 ∧ Over S (powerNumerDenom b x n d).2 := by
  have hone : Over S one := over_one
  have hneg := over_neg hx
  unfold powerNumerDenom
  grind -ring -linarith -lia

/-- Groups, each with what it is for, are over these variables. -/
def GroupsOver (S : String → Prop) (gs : List (Expr × List Expr)) : Prop :=
  ∀ g ∈ gs, Over S g.1 ∧ OverAll S g.2

theorem groupsOver_nil : GroupsOver S [] := fun _ h => absurd h List.not_mem_nil

/-- One more member in its group, which is made up if it is not there. -/
theorem groupsOver_insert {gs : List (Expr × List Expr)} {key member : Expr}
    (hgs : GroupsOver S gs) (hkey : Over S key) (hmember : Over S member) :
    GroupsOver S (if gs.any fun g => g.1 == key then
      gs.map fun g => if g.1 == key then (g.1, g.2 ++ [member]) else g
      else gs ++ [(key, [member])]) := by
  split
  · refine List.forall_mem_map.2 fun g hg => ?_
    obtain ⟨houter, hinner⟩ := hgs g hg
    split
    · exact ⟨houter, by simp [hinner, hmember]⟩
    · exact ⟨houter, hinner⟩
  · exact List.forall_mem_append.2
      ⟨hgs, List.forall_mem_singleton.2 ⟨hkey, by simp [hmember]⟩⟩

theorem over_groupByDenom {gs : List (Expr × List Expr)} {nd : Expr × Expr}
    (hgs : GroupsOver S gs) (hn : Over S nd.1) (hd : Over S nd.2) :
    GroupsOver S (groupByDenom gs nd) := groupsOver_insert hgs hd hn

theorem over_sumNumerDenom {content : Rat} {parts : List (Expr × Expr)}
    (hparts : PairsOver S parts) :
    Over S (sumNumerDenom content parts).1 ∧ Over S (sumNumerDenom content parts).2 := by
  have hgroups : GroupsOver S (parts.foldl groupByDenom []) :=
    List.foldlRecOn _ _ groupsOver_nil fun gs hgs p hp =>
      over_groupByDenom hgs (hparts p hp).1 (hparts p hp).2
  have hnumber : ∀ {n : Int} {e : Expr}, Over S e → Over S (keepCoeff (int n) e) := fun he =>
    over_keepCoeff (over_int _) he
  unfold sumNumerDenom
  simp only
  split
  · rename_i d ns hone
    obtain ⟨hd, hns⟩ := hgroups (d, ns) (by simp [hone])
    exact ⟨over_sum (overAll_map fun n h => hnumber (hns n h)), hnumber hd⟩
  · have hindexed : ∀ g ∈ (parts.foldl groupByDenom []).zipIdx,
        Over S g.1.1 ∧ OverAll S g.1.2 := fun g hg =>
      hgroups g.1 (List.fst_mem_of_mem_zipIdx hg)
    refine ⟨hnumber (over_sum (overAll_map fun g hg => over_product (overAll_cons.2
      ⟨over_sum (hindexed g hg).2, overAll_map fun h hh => ?_⟩))),
      hnumber (over_product (overAll_map fun g hg => (hgroups g hg).1))⟩
    exact (hindexed h (List.mem_filter.1 hh).1).1

mutual

theorem over_numerDenom :
    ∀ {e : Expr}, Over S e → Over S (numerDenom e).1 ∧ Over S (numerDenom e).2
  | .rat q, _ => by
    unfold numerDenom
    exact ⟨over_int _, over_int _⟩
  | .app h as, he => by
    have has := over_app.1 he
    have hparts : PairsOver S (numerDenoms as) := over_numerDenoms has
    unfold numerDenom
    split
    · rename_i happ
      cases happ
    · rename_i happ
      obtain ⟨rfl, rfl⟩ := Expr.app.inj happ
      simp only
      split
      · exact over_sumNumerDenom hparts
      · refine over_sumNumerDenom (pairsOver_map fun p hp => ?_)
        obtain ⟨hn, hd⟩ := hparts p hp
        have hn' := over_coeffMul hn
        have hd' := over_coeffMul hd
        split
        · exact ⟨over_keepCoeff (over_int _) hn'.2, over_keepCoeff (over_int _) hd'.2⟩
        · exact ⟨over_mul (over_rat _) hn, hd⟩
    · rename_i happ
      obtain ⟨rfl, rfl⟩ := Expr.app.inj happ
      exact ⟨over_product (overAll_map fun p hp => (hparts p hp).1),
        over_product (overAll_map fun p hp => (hparts p hp).2)⟩
    · rename_i happ
      obtain ⟨rfl, rfl⟩ := Expr.app.inj happ
      simp only [numerDenoms, pairsOver_cons] at hparts
      simp only [overAll_cons] at has
      exact over_powerNumerDenom has.1 has.2.1 hparts.1.1 hparts.1.2
    · rename_i happ
      obtain ⟨rfl, rfl⟩ := Expr.app.inj happ
      simp only [overAll_cons] at has
      simp only
      split
      · exact ⟨over_one, over_apply_single (over_neg has.1)⟩
      · exact ⟨over_rawFn.2 (by simp [has.1]), over_one⟩
    · exact ⟨he, over_one⟩
  | .float _ _, he | .const _, he | .symbol _, he | .dummy _, he => ⟨he, over_one⟩

theorem over_numerDenoms :
    ∀ {es : List Expr}, OverAll S es → PairsOver S (numerDenoms es)
  | [], _ => pairsOver_nil
  | _ :: _, hes =>
    pairsOver_cons.2 ⟨over_numerDenom (overAll_cons.1 hes).1,
      over_numerDenoms (overAll_cons.1 hes).2⟩

end

theorem over_fractionPart {f : Expr} (hf : Over S f) :
    Over S (fractionPart f).1 ∧ Over S (fractionPart f).2 := by
  have hbase := over_baseExp hf
  have hparts := over_numerDenom hf
  unfold fractionPart
  split
  · exact ⟨over_int _, over_int _⟩
  all_goals grind

theorem over_fraction (he : Over S e) : Over S (fraction e).1 ∧ Over S (fraction e).2 := by
  have hparts : PairsOver S (e.factors.map fractionPart) :=
    pairsOver_map fun f hf => over_fractionPart (overAll_factors he f hf)
  exact ⟨over_product (overAll_map fun p hp => (hparts p hp).1),
    over_product (overAll_map fun p hp => (hparts p hp).2)⟩

/-! ## One denominator -/

@[grind ←] theorem over_together (he : Over S e) : Over S (together e) := by
  refine over_foldUp (fun _ h => h) (fun h as has => ?_) _ he
  unfold togetherNode
  split
  · exact over_gcdTerms has
  · exact over_rebuild has

mutual

theorem over_outerTogether : ∀ {e : Expr}, Over S e → Over S (outerTogether e)
  | .app h as, he => by
    have has := over_app.1 he
    have hall : OverAll S (outerTogetherAll as) := overAll_outerTogetherAll has
    unfold outerTogether
    split
    · rename_i happ
      obtain ⟨rfl, rfl⟩ := Expr.app.inj happ
      exact over_gcdTerms has
    · rename_i happ
      obtain ⟨rfl, rfl⟩ := Expr.app.inj happ
      simp only [outerTogetherAll, overAll_cons] at has hall
      split
      · exact over_scale has.1 (over_product hall.2)
      · exact over_product (overAll_cons.2 hall)
    · rename_i happ
      obtain ⟨rfl, rfl⟩ := Expr.app.inj happ
      exact over_rebuild hall
    · exact he
  | .rat _, he | .float _ _, he | .const _, he | .symbol _, he | .dummy _, he => he

theorem overAll_outerTogetherAll :
    ∀ {es : List Expr}, OverAll S es → OverAll S (outerTogetherAll es)
  | [], _ => overAll_nil
  | _ :: _, hes =>
    overAll_cons.2 ⟨over_outerTogether (overAll_cons.1 hes).1,
      overAll_outerTogetherAll (overAll_cons.1 hes).2⟩

end

mutual

theorem over_shallowTogether : ∀ {e : Expr}, Over S e → Over S (shallowTogether e)
  | .app h as, he => by
    have has := over_app.1 he
    have hall : OverAll S (shallowTogetherAll as) := overAll_shallowTogetherAll has
    unfold shallowTogether
    split
    · rename_i happ
      obtain ⟨rfl, rfl⟩ := Expr.app.inj happ
      exact over_gcdTerms hall
    · rename_i happ
      obtain ⟨rfl, rfl⟩ := Expr.app.inj happ
      exact over_product hall
    · rename_i happ
      obtain ⟨rfl, rfl⟩ := Expr.app.inj happ
      simp only [shallowTogetherAll, overAll_cons] at has hall
      exact over_power hall.1 has.2.1
    · exact he
  | .rat _, he | .float _ _, he | .const _, he | .symbol _, he | .dummy _, he => he

theorem overAll_shallowTogetherAll :
    ∀ {es : List Expr}, OverAll S es → OverAll S (shallowTogetherAll es)
  | [], _ => overAll_nil
  | _ :: _, hes =>
    overAll_cons.2 ⟨over_shallowTogether (overAll_cons.1 hes).1,
      overAll_shallowTogetherAll (overAll_cons.1 hes).2⟩

end

end ErrorBars.Expr
