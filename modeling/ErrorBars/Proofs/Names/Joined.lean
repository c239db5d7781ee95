import ErrorBars.Expr.Simplify.JoinLogs
import ErrorBars.Expr.Simplify.JoinPowers
import ErrorBars.Proofs.Names.Expand

/-!
# Joined logarithms and powers are over the same variables
-/

set_option autoImplicit false

namespace ErrorBars.Expr

variable {S : String → Prop} {e : Expr}

/-! ## Logarithms -/

theorem over_addLog {gs : LogGroups} {outer arg : Expr} (hgs : GroupsOver S gs)
    (houter : Over S outer) (harg : Over S arg) : GroupsOver S (gs.add outer arg) :=
  groupsOver_insert hgs houter harg

@[grind →] theorem over_logArg {v : Expr} (h : logArg? e = some v) (he : Over S e) : Over S v := by
  unfold logArg? at h
  grind

theorem over_splitLogTerm {r : Expr × Expr × Expr} (h : splitLogTerm? e = some r)
    (he : Over S e) : Over S r.1 ∧ Over S r.2.1 ∧ Over S r.2.2 := by
  have hfs := overAll_factors he
  unfold splitLogTerm? at h
  simp only at h
  split at h
  · rename_i x hone
    obtain rfl := Option.some.inj h
    have hrest : OverAll S (e.factors.filter fun f => (logArg? f).isNone) := overAll_filter hfs
    have hx : Over S x := by
      have hargs : OverAll S (e.factors.filterMap logArg?) :=
        overAll_filterMap fun f hf v hv => over_logArg hv (hfs f hf)
      exact hargs x (by simp [hone])
    refine ⟨over_product (overAll_append.2 ⟨overAll_map fun _ _ => over_minusOne,
        overAll_filter hrest⟩), over_product (overAll_append.2 ⟨overAll_map fun f hf => ?_,
        overAll_filter hrest⟩), hx⟩
    exact over_negNumber (overAll_filter hrest f hf)
  · exact absurd h (by simp)

theorem over_joinOppositeLogs :
    ∀ {fuel : Nat} {gs : List (Expr × Expr)}, PairsOver S gs →
      OverAll S (joinOppositeLogs fuel gs)
  | 0, gs, hgs => by
    unfold joinOppositeLogs
    exact overAll_map fun g hg => over_mul (hgs g hg).1 (over_rawFn_single.2 (hgs g hg).2)
  | _ + 1, [], _ => by
    unfold joinOppositeLogs
    exact overAll_nil
  | fuel + 1, (c, x) :: rest, hgs => by
    obtain ⟨⟨hc, hx⟩, hrest⟩ := pairsOver_cons.1 hgs
    have hlog : ∀ {c x : Expr}, Over S c → Over S x → Over S (c * rawFn .log [x]) :=
      fun hc hx => over_mul hc (over_rawFn_single.2 hx)
    unfold joinOppositeLogs
    split
    · rename_i y hfound
      have hy : Over S y := (hrest _ (List.mem_of_find?_eq_some hfound)).2
      have hothers : OverAll S (joinOppositeLogs fuel (rest.filter fun g => !(g.1 == -c))) :=
        over_joinOppositeLogs fun g hg => hrest g (List.mem_filter.1 hg).1
      simp only
      split
      · exact overAll_cons.2 ⟨hlog (over_neg hc) (over_div hy hx), hothers⟩
      · exact overAll_cons.2 ⟨hlog hc (over_div hx hy), hothers⟩
    · exact overAll_cons.2 ⟨hlog hc hx, over_joinOppositeLogs hrest⟩

theorem over_splitLogs {ts : List Expr} (hts : OverAll S ts) :
    GroupsOver S (ts.foldl (fun (acc : LogGroups × List Expr) t =>
      match splitLogTerm? t with
      | some (outer, c, x) => (acc.1.add outer (power x c), acc.2)
      | none => (acc.1, acc.2 ++ [t])) ([], [])).1 ∧
    OverAll S (ts.foldl (fun (acc : LogGroups × List Expr) t =>
      match splitLogTerm? t with
      | some (outer, c, x) => (acc.1.add outer (power x c), acc.2)
      | none => (acc.1, acc.2 ++ [t])) ([], [])).2 := by
  refine List.foldlRecOn (motive := fun (acc : LogGroups × List Expr) =>
    GroupsOver S acc.1 ∧ OverAll S acc.2) _ _ ⟨groupsOver_nil, overAll_nil⟩
    fun acc hacc t ht => ?_
  split
  · rename_i heq
    have hparts := over_splitLogTerm heq (hts t ht)
    exact ⟨over_addLog hacc.1 hparts.1 (over_power hparts.2.2 hparts.2.1), hacc.2⟩
  · exact ⟨hacc.1, overAll_append.2 ⟨hacc.2, by simp [hts t ht]⟩⟩

theorem over_joinLogsOf {ts : List Expr} (hts : OverAll S ts) : Over S (joinLogsOf ts) := by
  have hsplit := over_splitLogs hts
  unfold joinLogsOf
  simp only
  generalize List.foldl _ ([], []) ts = r at hsplit
  have hclose : ∀ (gs : LogGroups) (others : List Expr), GroupsOver S gs → OverAll S others →
      Over S (if gs.isEmpty then sum ts else
        sum (others ++ joinOppositeLogs (gs.map fun g => (g.1, product g.2)).length
          (gs.map fun g => (g.1, product g.2)))) := by
    intro gs others hgs hothers
    split
    · exact over_sum hts
    · have hjoined : PairsOver S (gs.map fun g => (g.1, product g.2)) :=
        pairsOver_map fun g hg => ⟨(hgs g hg).1, over_product (hgs g hg).2⟩
      exact over_sum (overAll_append.2 ⟨hothers, over_joinOppositeLogs hjoined⟩)
  obtain ⟨hgroups, hothers⟩ := hsplit
  split
  · rename_i heq
    rw [heq] at hothers
    simp only [overAll_cons, over_app] at hothers
    exact hclose _ _ (over_addLog hgroups over_one hothers.1.1) overAll_nil
  · exact hclose _ _ hgroups hothers

@[grind ←] theorem over_joinLogs (he : Over S e) : Over S (joinLogs e) := by
  refine over_bottomUp (fun e he => ?_) he
  split
  · exact over_joinLogsOf (over_app.1 he)
  · exact over_joinLogsOf (by simpa using he)
  · exact he

/-! ## Powers of one base -/

theorem over_rootedPower (he : Over S e) : Over S (rootedPower e).1 ∧ Over S (rootedPower e).2 := by
  have hbase := over_baseExp he
  unfold rootedPower
  simp only
  split
  · split
    · split
      · exact ⟨over_int _, over_mul (over_int _) hbase.2⟩
      · exact hbase
    · exact hbase
  · exact hbase

theorem over_addExponent {ps : ByBase} {b x : Expr} (hps : GroupsOver S ps) (hb : Over S b)
    (hx : Over S x) : GroupsOver S (ps.add b x) := groupsOver_insert hps hb hx

theorem over_absorbCoeff {ps : ByBase} {coeff : Rat} (hps : GroupsOver S ps) :
    GroupsOver S (absorbCoeff ps coeff).2 := by
  induction ps with
  | nil => exact groupsOver_nil
  | cons p ps ih =>
    have hp := hps p List.mem_cons_self
    have ih := ih fun q hq => hps q (List.mem_cons_of_mem p hq)
    have hkept : GroupsOver S (p :: (absorbCoeff ps coeff).2) :=
      List.forall_mem_cons.2 ⟨hp, ih⟩
    have htaken : ∀ m : Int, GroupsOver S ((p.1, p.2 ++ [int m]) :: (absorbCoeff ps coeff).2) :=
      fun m => List.forall_mem_cons.2 ⟨⟨hp.1, by simp [hp.2]⟩, ih⟩
    unfold absorbCoeff at hkept htaken ⊢
    rw [List.foldr_cons]
    grind -ring -linarith -lia

theorem over_joinOpposites :
    ∀ {fuel : Nat} {ps : List (Expr × Expr)}, PairsOver S ps → PairsOver S (joinOpposites fuel ps)
  | 0, ps, hps => by
    unfold joinOpposites
    exact hps
  | _ + 1, [], _ => by
    unfold joinOpposites
    exact pairsOver_nil
  | fuel + 1, (b, x) :: rest, hps => by
    obtain ⟨⟨hb, hx⟩, hrest⟩ := pairsOver_cons.1 hps
    have hplain : PairsOver S ((b, x) :: joinOpposites fuel rest) :=
      pairsOver_cons.2 ⟨⟨hb, hx⟩, over_joinOpposites hrest⟩
    unfold joinOpposites
    extract_lets named opposite
    split
    · rename_i f hfound
      have hf : Over S f := (hrest _ (List.mem_of_find?_eq_some hfound)).2
      split
      · refine pairsOver_cons.2 ⟨⟨over_minusOne, hx⟩, over_joinOpposites (pairsOver_map
          fun p hp => ?_)⟩
        split
        · exact ⟨(hrest p hp).1, over_add hf hx⟩
        · exact hrest p hp
      · split
        · exact pairsOver_cons.2 ⟨⟨hb, over_add hx hf⟩, pairsOver_cons.2 ⟨⟨over_minusOne, hf⟩,
            over_joinOpposites fun p hp => hrest p (List.mem_filter.1 hp).1⟩⟩
        · exact hplain
    · exact hplain

theorem over_joinRoots {ps : List (Expr × Expr)} (hps : PairsOver S ps) :
    PairsOver S (joinRoots ps) := by
  refine List.foldlRecOn _ _ hps fun qs hqs p hp => ?_
  have hfactors := overAll_factors (hps p hp).1
  split
  · split
    · extract_lets n
      split
      · exact hqs
      · refine pairsOver_map fun q hq => ?_
        obtain ⟨hbase, hexponent⟩ := hqs q hq
        split
        · exact ⟨hbase, over_rat _⟩
        · split
          · rename_i f hfound
            have hf := over_baseExp (hfactors f (List.mem_of_find?_eq_some hfound))
            exact ⟨hbase, over_sub hexponent (over_mul (over_int _) hf.2)⟩
          · exact ⟨hbase, hexponent⟩
    · exact hqs
  · exact hqs

theorem over_joinExponents {fs : List Expr} (hfs : OverAll S fs) : Over S (joinExponents fs) := by
  have hpowers : GroupsOver S ((fs.filter fun f => !f.isRational).foldl (fun (ps : ByBase) f =>
      if (rootedPower f).1.isPow || (rootedPower f).1.isFnOf .exp then
        ps.add (power (rootedPower f).1 (rootedPower f).2) one
      else ps.add (rootedPower f).1 (rootedPower f).2) []) := by
    refine List.foldlRecOn _ _ groupsOver_nil fun ps hps f hf => ?_
    have hroot := over_rootedPower (overAll_filter hfs f hf)
    split
    · exact over_addExponent hps (over_power hroot.1 hroot.2) over_one
    · exact over_addExponent hps hroot.1 hroot.2
  unfold joinExponents
  extract_lets coeff powers
  have habsorbed : GroupsOver S (absorbCoeff powers coeff).2 := over_absorbCoeff hpowers
  generalize absorbCoeff powers coeff = r at habsorbed
  obtain ⟨coeff, powers⟩ := r
  simp only
  have hall : GroupsOver S (if coeff = 1 then powers else powers.add (.rat coeff) one) := by
    split
    · exact habsorbed
    · exact over_addExponent habsorbed (over_rat _) over_one
  generalize (if coeff = 1 then powers else powers.add (.rat coeff) one) = powers at hall
  have hjoined : PairsOver S ((powers.map fun p => (p.1, sum p.2)).filter fun p => !p.2.isZero) := by
    intro p hp
    obtain ⟨q, hq, rfl⟩ := List.mem_map.1 (List.mem_filter.1 hp).1
    exact ⟨(hall q hq).1, over_sum (hall q hq).2⟩
  generalize (powers.map fun p => (p.1, sum p.2)).filter (fun p => !p.2.isZero) = ps at hjoined
  have hroots : PairsOver S (joinRoots (joinOpposites ps.length ps)) :=
    over_joinRoots (over_joinOpposites hjoined)
  exact over_product (overAll_map fun p hp => over_power (hroots p hp).1 (hroots p hp).2)

/-! ## Powers with one exponent -/

theorem over_coeffToBase {p : Expr × Expr} (hb : Over S p.1) (hx : Over S p.2) :
    Over S (coeffToBase p).1 ∧ Over S (coeffToBase p).2 := by
  obtain ⟨b, x⟩ := p
  unfold coeffToBase
  grind -ring -linarith -lia

theorem over_joinedBases {bases : List Expr} (hbases : OverAll S bases) :
    OverAll S (joinedBases e bases) := by
  unfold joinedBases
  split
  · exact hbases
  · split
    · simpa using over_product hbases
    · extract_lets negative nonnegative unknown
      have hnegative : OverAll S negative := overAll_filter hbases
      have hnonnegative : OverAll S nonnegative := overAll_filter hbases
      have hunknown : OverAll S unknown := overAll_filter hbases
      clear_value negative nonnegative unknown
      generalize hsplit : (if (unknown.length = 1 && negative.isEmpty) ||
          (negative.length = 1 && unknown.isEmpty) then
          (nonnegative ++ unknown ++ negative, [])
        else if negative.isEmpty then (nonnegative, unknown)
        else if e.isRational then
          (nonnegative ++ negative.map (- ·), unknown ++ negative.map fun _ => minusOne)
        else (nonnegative, unknown ++ negative)) = r
      have hr : OverAll S r.1 ∧ OverAll S r.2 := by
        have hneg : OverAll S (negative.map (- ·)) :=
          overAll_map fun b hb => over_neg (hnegative b hb)
        have hone : OverAll S (negative.map fun _ => minusOne) :=
          overAll_map fun _ _ => over_minusOne
        rw [← hsplit]
        split
        · simp [hnegative, hnonnegative, hunknown]
        · split
          · exact ⟨hnonnegative, hunknown⟩
          · split
            · exact ⟨overAll_append.2 ⟨hnonnegative, hneg⟩, overAll_append.2 ⟨hunknown, hone⟩⟩
            · exact ⟨hnonnegative, overAll_append.2 ⟨hunknown, hnegative⟩⟩
      obtain ⟨together, apart⟩ := r
      have hlines : ∀ (fs acc : List Expr), OverAll S fs → OverAll S acc →
          OverAll S (fs.foldl (fun acc f => acc.flatMap fun t => f.terms.map fun u => t * u) acc) :=
        fun fs acc hfs hacc => List.foldlRecOn _ _ hacc fun acc hacc f hf =>
          overAll_flatMap fun t ht => overAll_map fun u hu =>
            over_mul (hacc t ht) (overAll_terms (hfs f hf) u hu)
      simp -zeta only
      extract_lets base opened body
      have hbase : Over S base := over_product hr.1
      have hopened : Over S opened := by
        simp only [opened]
        clear_value base
        split
        · split
          · exact hbase
          · exact over_sum (hlines _ _ (over_app.1 hbase) (by simp))
        · exact hbase
      have hbody : Over S body := by
        simp only [body]
        split
        · exact over_factorTerms hopened
        · exact hbase
      exact overAll_append.2 ⟨hr.2, overAll_cons.2 ⟨hbody, overAll_nil⟩⟩

theorem over_joinBases {fs : List Expr} (hfs : OverAll S fs) : Over S (joinBases fs) := by
  have hpowers : PairsOver S (fs.map fun f => coeffToBase f.baseExp) := pairsOver_map fun f hf =>
    over_coeffToBase (over_baseExp (hfs f hf)).1 (over_baseExp (hfs f hf)).2
  have hexponents : GroupsOver S ((fs.map fun f => coeffToBase f.baseExp).foldl
      (fun (ps : ByBase) p =>
        if p.2.isAdd && (p.1.isPositive || p.2.isWhole) then
          let e := factorTerms true p.2
          if e.hasNegativeCoeff then ps.add (-e) (inv p.1) else ps.add e p.1
        else ps.add p.2 p.1) []) := by
    refine List.foldlRecOn _ _ groupsOver_nil fun ps hps p hp => ?_
    obtain ⟨hb, hx⟩ := hpowers p hp
    have hfactored : Over S (factorTerms true p.2) := over_factorTerms hx
    simp only
    split
    · split
      · exact over_addExponent hps (over_neg hfactored) (over_inv hb)
      · exact over_addExponent hps hfactored hb
    · exact over_addExponent hps hx hb
  unfold joinBases
  extract_lets powers byExponent byBase
  have hbases : GroupsOver S byBase :=
    List.foldlRecOn _ _ groupsOver_nil fun ps hps p hp =>
      List.foldlRecOn _ _ hps fun ps hps b hb =>
        over_addExponent hps (over_joinedBases (hexponents p hp).2 b hb) (hexponents p hp).1
  exact over_product (overAll_flatMap fun p hp => overAll_map fun x hx =>
    over_power (hbases p hp).1 ((hbases p hp).2 x hx))

/-! ## Everywhere -/

theorem over_joinPowersTo :
    ∀ {fuel : Nat} {join : Join} {deep : Bool} {e : Expr}, Over S e →
      Over S (joinPowersTo fuel join deep e)
  | 0, _, _, _, he => by
    unfold joinPowersTo
    exact he
  | fuel + 1, join, deep, e, he => by
    have hargs : OverAll S e.args → OverAll S (e.args.map (joinPowersTo fuel join deep)) :=
      fun h => overAll_map fun a ha => over_joinPowersTo (h a ha)
    unfold joinPowersTo
    extract_lets go inner joined
    have hinner : Over S inner := by
      simp only [inner]
      split
      · split
        · exact over_rebuild (hargs (over_app.1 he))
        · exact he
      · exact he
    have hjoined : ∀ (deep : Bool) (fs : List Expr), OverAll S fs → Over S (joined deep fs) := by
      intro deep fs hfs
      simp only [joined]
      split
      · exact over_joinExponents hfs
      · exact over_joinBases hfs
      · exact over_joinPowersTo (over_joinExponents hfs)
    clear_value inner joined
    split
    · exact hjoined _ _ (by simpa using hinner)
    · exact hjoined _ _ (over_app.1 hinner)
    · exact hinner

@[grind ←] theorem over_joinPowers {join : Join} {deep : Bool} (he : Over S e) :
    Over S (joinPowers join deep e) := over_joinPowersTo he

end ErrorBars.Expr
