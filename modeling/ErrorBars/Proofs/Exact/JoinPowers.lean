import ErrorBars.Proofs.Exact.CommonFactor

/-!
# Joining powers keeps values

The factors of a product are numbers and whole powers.  Powers of one base are grouped, and the
group is replaced by the power with the sum of the exponents (`exists_joined`); a base and its
opposite are joined once more (`exists_joinOpposites`).  Powers with one exponent are grouped in
the same way, and the group is replaced by the power of the product of the bases
(`denotes_joinBases`).
-/

set_option autoImplicit false

namespace ErrorBars.Expr

open Canonical (BasePowers basePower numberIn powersIn)

variable {env : String → ℚ} {b e f : Expr} {es fs : List Expr} {L M : BasePowers} {q r v : ℚ}
  {m n : ℤ}

/-! ## Powers with values -/

/-- Powers of defined bases with values. -/
structure Joined (env : String → ℚ) (L : BasePowers) (r : ℚ) : Prop where
  /-- the bases are defined -/
  defined : ∀ p ∈ L, Defined env p.1
  /-- the powers have values -/
  regular : L.Regular env
  /-- the product -/
  value_eq : L.value env = r

theorem zpow_add_of_regular (hm : Regular v m) (hn : Regular v n) :
    v ^ (m + n) = v ^ m * v ^ n := by
  rw [← wholePow_rat, wholePow_add hm hn, wholePow_rat, wholePow_rat]

theorem joined_nil : Joined env [] 1 :=
  ⟨fun _ hp => absurd hp List.not_mem_nil, fun _ hp => absurd hp List.not_mem_nil, rfl⟩

theorem Joined.cons (h : Joined env L r) (hb : Denotes env b v) (hn : Regular v n) :
    Joined env ((b, n) :: L) (v ^ n * r) := by
  obtain ⟨hb, rfl⟩ := hb
  refine ⟨List.forall_mem_cons.2 ⟨hb, h.defined⟩, List.forall_mem_cons.2 ⟨hn, h.regular⟩, ?_⟩
  rw [BasePowers.value_cons, wholePow_rat, h.value_eq]

/-- **The product of the powers.** -/
theorem Joined.denotes (h : Joined env L r) :
    Denotes env (product ((L.map basePower).map fun p => power p.1 p.2)) r := by
  rw [List.map_map, ← h.value_eq]
  exact denotes_product_map fun p hp => (h.defined p hp).denotes.whole (h.regular p hp)

/-! ## Exponents -/

/-- The whole number that an exponent is. -/
def wholeExponent (e : Expr) : ℤ := e.int?.getD 0

theorem wholeExponent_int (n : ℤ) : wholeExponent (int n) = n := by
  rw [wholeExponent, Arith.int?_int]
  rfl

/-- A base with several exponents. -/
theorem exponents_joined (es : List Expr) (h : ∀ e ∈ es, ∃ n, e = int n ∧ Regular v n) :
    sum es = int (es.map wholeExponent).sum ∧ Regular v (es.map wholeExponent).sum ∧
      v ^ (es.map wholeExponent).sum = (es.map fun e => v ^ wholeExponent e).prod := by
  have hints : es = (es.map wholeExponent).map int := by
    rw [List.map_map]
    conv_lhs => rw [← List.map_id es]
    refine List.map_congr_left fun e he => ?_
    obtain ⟨n, rfl, -⟩ := h e he
    exact congrArg int (wholeExponent_int n).symm
  refine ⟨?_, ?_⟩
  · conv_lhs => rw [hints]
    exact sum_ints _
  · clear hints
    induction es with
    | nil => exact ⟨.inl le_rfl, zpow_zero v⟩
    | cons e es ih =>
      obtain ⟨⟨n, rfl, hn⟩, hes⟩ := List.forall_mem_cons.1 h
      obtain ⟨hreg, hv⟩ := ih hes
      rw [List.map_cons, List.sum_cons, List.map_cons, List.prod_cons, wholeExponent_int, ← hv]
      exact ⟨hn.add hreg, zpow_add_of_regular hn hreg⟩

theorem prod_ungrouped (gs : ByBase) (f : Expr × Expr → ℚ) :
    ((ungrouped gs).map f).prod = (gs.map fun g => (g.2.map fun e => f (g.1, e)).prod).prod := by
  induction gs with
  | nil => rfl
  | cons g gs ih =>
    rw [ungrouped_cons, List.map_append, List.prod_append, ih, List.map_map, List.map_cons,
      List.prod_cons]
    rfl

/-- The product over all parts, group by group. -/
theorem Grouped.prod_eq {gs : ByBase} {ps : List (Expr × Expr)} (h : Grouped gs ps)
    (f : Expr × Expr → ℚ) :
    (gs.map fun g => (g.2.map fun e => f (g.1, e)).prod).prod = (ps.map f).prod := by
  rw [← prod_ungrouped, (h.perm.map f).prod_eq]

/-- **The exponents of each base added up.** -/
theorem exists_joined {gs : ByBase} (hg : Grouped gs (L.map basePower)) (h : Joined env L r) :
    ∃ M : BasePowers, (gs.map fun g => (g.1, sum g.2)) = M.map basePower ∧ (M.map (·.1)).Nodup ∧
      Joined env M r := by
  have hparts : ∀ g ∈ gs, Defined env g.1 ∧
      ∀ e ∈ g.2, ∃ n, e = int n ∧ Regular (value env g.1) n := by
    intro g hgs
    have hpart : ∀ e, (g.1, e) ∈ L.map basePower →
        Defined env g.1 ∧ ∃ n, e = int n ∧ Regular (value env g.1) n := by
      intro e he
      obtain ⟨p, hp, heq⟩ := List.mem_map.1 he
      obtain ⟨hfst, hsnd⟩ := Prod.mk.inj heq
      rw [← hfst]
      exact ⟨h.defined p hp, p.2, hsnd.symm, h.regular p hp⟩
    obtain ⟨e, he⟩ := hg.key_mem hgs
    exact ⟨(hpart e he).1, fun e he => (hpart e (hg.part_mem hgs he)).2⟩
  have hjoined : ∀ g ∈ gs, sum g.2 = int (g.2.map wholeExponent).sum ∧
      Regular (value env g.1) (g.2.map wholeExponent).sum ∧
      value env g.1 ^ (g.2.map wholeExponent).sum =
        (g.2.map fun e => value env g.1 ^ wholeExponent e).prod := fun g hgs =>
    exponents_joined g.2 (hparts g hgs).2
  refine ⟨gs.map fun g => (g.1, (g.2.map wholeExponent).sum), ?_, ?_, ?_, ?_, ?_⟩
  · rw [List.map_map]
    exact List.map_congr_left fun g hgs => congrArg (Prod.mk g.1) (hjoined g hgs).1
  · rw [List.map_map]
    exact hg.nodup
  · exact List.forall_mem_map.2 fun g hgs => (hparts g hgs).1
  · exact List.forall_mem_map.2 fun g hgs => (hjoined g hgs).2.1
  · rw [← h.value_eq, BasePowers.value, List.map_map]
    have hprod := hg.prod_eq fun p => value env p.1 ^ wholeExponent p.2
    rw [List.map_map] at hprod
    refine (congrArg List.prod (List.map_congr_left fun g hgs => ?_)).trans (hprod.trans ?_)
    · exact (wholePow_rat _ _).trans (hjoined g hgs).2.2
    · refine congrArg List.prod (List.map_congr_left fun p hp => ?_)
      exact (congrArg (value env p.1 ^ ·) (wholeExponent_int p.2)).trans (wholePow_rat _ _).symm

/-! ## Opposites -/

theorem Joined.tail {p : Expr × ℤ} (h : Joined env (p :: L) r) : ∃ s, Joined env L s ∧
    Denotes env p.1 (value env p.1) ∧ Regular (value env p.1) p.2 ∧
      r = value env p.1 ^ p.2 * s := by
  obtain ⟨hp, hL⟩ := List.forall_mem_cons.1 h.defined
  obtain ⟨hreg, hregs⟩ := List.forall_mem_cons.1 h.regular
  refine ⟨L.value env, ⟨hL, hregs, rfl⟩, hp.denotes, hreg, ?_⟩
  rw [← h.value_eq, BasePowers.value_cons, wholePow_rat]

/-- Another exponent for a base. -/
def reset (b : Expr) (n : ℤ) (L : BasePowers) : BasePowers :=
  L.map fun p => if p.1 == b then (p.1, n) else p

theorem map_fst_reset (b : Expr) (n : ℤ) (L : BasePowers) :
    (reset b n L).map (·.1) = L.map (·.1) := by
  rw [reset, List.map_map]
  refine List.map_congr_left fun p _ => ?_
  rw [Function.comp_apply]
  split <;> rfl

theorem map_basePower_reset (b : Expr) (n : ℤ) (L : BasePowers) :
    ((L.map basePower).map fun p => if p.1 == b then (p.1, int n) else p) =
      (reset b n L).map basePower := by
  rw [reset, List.map_map, List.map_map]
  refine List.map_congr_left fun p _ => ?_
  rw [Function.comp_apply, Function.comp_apply, basePower]
  exact (apply_ite basePower (p.1 == b) (p.1, n) p).symm

/-- Adding to the exponent of a base that occurs once multiplies by a power of it. -/
theorem joined_reset (h : Joined env L r) (hnodup : (L.map (·.1)).Nodup) (hmem : (b, m) ∈ L)
    (hn : Regular (value env b) n) : Joined env (reset b (m + n) L) (value env b ^ n * r) := by
  induction L generalizing r with
  | nil => exact absurd hmem List.not_mem_nil
  | cons p L ih =>
    rw [List.map_cons, List.nodup_cons] at hnodup
    obtain ⟨s, hs, hp, hreg, rfl⟩ := h.tail
    rw [reset, List.map_cons]
    rcases List.mem_cons.1 hmem with rfl | hL
    · have hrest : (L.map fun p => if p.1 == b then (p.1, m + n) else p) = L := by
        conv_rhs => rw [← List.map_id L]
        refine List.map_congr_left fun q hq => if_neg fun hqb => hnodup.1 ?_
        exact List.mem_map.2 ⟨q, hq, beq_iff_eq.1 hqb⟩
      rw [if_pos (beq_self_eq_true b), hrest, ← mul_assoc, mul_comm (_ ^ n),
        ← zpow_add_of_regular hreg hn]
      exact hs.cons hp (hreg.add hn)
    · have hne : ¬(p.1 == b) = true := fun heq => hnodup.1 (by
        rw [beq_iff_eq.1 heq]
        exact List.mem_map_of_mem hL)
      rw [if_neg hne, mul_left_comm]
      exact (ih hs hnodup.2 hL).cons hp hreg

theorem find?_basePower (c : Expr) (L : BasePowers) :
    (L.map basePower).find? (fun p => p.1 == c) = (L.find? fun p => p.1 == c).map basePower := by
  rw [List.find?_map]
  rfl

/-- Whether a base is joined with its opposite. -/
def isNamed : Expr → Bool
  | .symbol _ => true
  | b => b.isAdd

theorem joinOpposites_cons (fuel : ℕ) (b : Expr) (n : ℤ) (ps : List (Expr × Expr)) :
    joinOpposites (fuel + 1) ((b, int n) :: ps) =
      match ps.find? fun p => p.1 == -b, b.isNamed with
      | some (_, f), true => (minusOne, int n) ::
          joinOpposites fuel (ps.map fun p => if p.1 == -b then (p.1, f + int n) else p)
      | _, _ => (b, int n) :: joinOpposites fuel ps := by
  rw [joinOpposites.eq_def]
  dsimp only
  rw [isWhole_int]
  split
  · rename_i p f heq
    change (if b.isNamed && true then _ else if b.isNamed && f.isWhole then _ else _) = _
    rw [heq]
    cases b.isNamed <;> rfl
  · rename_i heq
    rw [heq]

/-- **A base and its opposite joined**: `(-1) ^ n * (-b) ^ (m + n)` is `b ^ n * (-b) ^ m`. -/
theorem exists_joinOpposites (fuel : ℕ) (hnodup : (L.map (·.1)).Nodup) (h : Joined env L r) :
    ∃ M : BasePowers, joinOpposites fuel (L.map basePower) = M.map basePower ∧ Joined env M r := by
  induction fuel generalizing L r with
  | zero => exact ⟨L, rfl, h⟩
  | succ fuel ih =>
    match L with
    | [] => exact ⟨[], rfl, h⟩
    | (b, n) :: L =>
      rw [List.map_cons, List.nodup_cons] at hnodup
      obtain ⟨s, hs, hb, hreg, rfl⟩ := h.tail
      obtain ⟨N, hN, hjoined⟩ := ih hnodup.2 hs
      have hkeep : ∃ M : BasePowers, (b, int n) :: joinOpposites fuel (L.map basePower) =
          M.map basePower ∧ Joined env M (value env b ^ n * s) :=
        ⟨(b, n) :: N, by rw [hN, List.map_cons, basePower], hjoined.cons hb hreg⟩
      rw [List.map_cons, basePower, joinOpposites_cons, find?_basePower]
      cases hfind : L.find? fun p => p.1 == -b with
      | none => exact hkeep
      | some p =>
        cases b.isNamed with
        | false => exact hkeep
        | true =>
          -- the other power takes in `(-b) ^ n`, and `(-1) ^ n` is left of the first one
          obtain ⟨c, m⟩ := p
          have hfound := List.find?_some hfind
          have hc : c = -b := beq_iff_eq.1 hfound
          have hmem : (-b, m) ∈ L := hc ▸ List.mem_of_find?_eq_some hfind
          have hopposite : value env (-b) = -value env b := hb.neg.value_eq
          have hregular : Regular (value env (-b)) n := by
            rw [hopposite]
            exact hreg.imp_right IsUnit.neg
          obtain ⟨M, hM, hMjoined⟩ := ih (by rw [map_fst_reset]; exact hnodup.2)
            (joined_reset hs hnodup.2 hmem hregular)
          refine ⟨(minusOne, n) :: M, ?_, ?_⟩
          · have hsum : int m + int n = int (m + n) := by
              rw [int, int, rat_add, int, Int.cast_add]
            rw [List.map_cons, ← hM, ← map_basePower_reset, ← hsum]
            rfl
          · have hvalue : (-1) ^ n * (value env (-b) ^ n * s) = value env b ^ n * s := by
              rw [hopposite, ← mul_assoc, ← mul_zpow, neg_one_mul, neg_neg]
            rw [← hvalue]
            exact hMjoined.cons denotes_minusOne (.inr isUnit_one.neg)

/-! ## Joining exponents -/

/-- Whole exponents have no roots. -/
theorem joinRoots_basePower (L : BasePowers) : joinRoots (L.map basePower) = L.map basePower := by
  rw [joinRoots, List.foldl_map]
  refine List.foldl_fixed' (fun p => if_neg ?_) L
  rw [Rat.den_intCast]
  exact Bool.false_ne_true

/-- The number in front of a product is taken into no power with a variable or a sum as its base. -/
theorem absorbCoeff_eq {ps : ByBase} (h : ∀ p ∈ ps, p.1.isNumber = false) (q : ℚ) :
    absorbCoeff ps q = (q, ps) := by
  induction ps with
  | nil => rfl
  | cons p ps ih =>
    obtain ⟨hp, hps⟩ := List.forall_mem_cons.1 h
    have hrest := ih hps
    rw [absorbCoeff] at hrest
    rw [absorbCoeff, List.foldr_cons, hrest]
    dsimp only
    split
    · rename_i heq
      rw [heq] at hp
      cases hp
    · rfl

theorem rootedPower_powerForm (hb : b.isBase = true) :
    rootedPower (powerForm b n) = (b, int n) := by
  have hint : b.int? = none := by
    obtain ⟨s, rfl⟩ | ⟨ts, rfl⟩ := cases_of_isBase hb <;> rfl
  rw [rootedPower, baseExp_powerForm hb]
  dsimp only
  rw [hint]

theorem isRational_of_isNumber_eq_false (h : e.isNumber = false) : e.isRational = false := by
  cases e with
  | rat q => cases h
  | _ => rfl

theorem isRational_powerForm (hb : b.isBase = true) : (powerForm b n).isRational = false :=
  isRational_of_isNumber_eq_false (isNumber_powerForm hb)

theorem numberIn_eq_foldl (h : ∀ f ∈ fs, Canonical.Piece env f) (q : ℚ) :
    fs.foldl (fun (c : ℚ) f => match f with
      | .rat q => c * q
      | _ => c) q = q * numberIn fs := by
  induction fs generalizing q with
  | nil => exact (mul_one q).symm
  | cons f fs ih =>
    obtain ⟨hf, hfs⟩ := List.forall_mem_cons.1 h
    rw [List.foldl_cons, ih hfs]
    cases hf with
    | rat c => rw [Canonical.numberIn_cons_rat, mul_assoc]
    | power b n _ kind =>
      rw [Canonical.numberIn_cons_power kind]
      split
      · rename_i heq
        have hn := isNumber_powerForm (n := n) kind
        rw [heq] at hn
        cases hn
      · rfl

theorem powersIn_eq_foldl (h : ∀ f ∈ fs, Canonical.Piece env f) (gs : ByBase) :
    (fs.filter fun f => !f.isRational).foldl (fun ps f =>
      let (b, e) := rootedPower f
      if b.isPow || b.isFnOf .exp then ByBase.add ps (power b e) one else ByBase.add ps b e) gs =
        (powersIn fs).foldl (fun ps p => ByBase.add ps p.1 (int p.2)) gs := by
  induction fs generalizing gs with
  | nil => rfl
  | cons f fs ih =>
    obtain ⟨hf, hfs⟩ := List.forall_mem_cons.1 h
    cases hf with
    | rat c =>
      rw [Canonical.powersIn_cons_rat, ← ih hfs]
      rfl
    | power b n base kind =>
      have hkind : (b.isPow || b.isFnOf .exp) = false := by
        cases base with
        | rat | mul | pow => cases kind
        | symbol | add => rfl
      rw [Canonical.powersIn_cons_power kind, List.foldl_cons, ← ih hfs,
        List.filter_cons_of_pos (by rw [isRational_powerForm kind]; rfl), List.foldl_cons,
        rootedPower_powerForm kind]
      dsimp only
      rw [hkind]
      rfl

/-- Powers with the exponent zero may be left out. -/
theorem joined_filter (h : Joined env L r) :
    Joined env (L.filter fun p => !(int p.2).isZero) r := by
  induction L generalizing r with
  | nil => exact h
  | cons p L ih =>
    obtain ⟨s, hs, hp, hreg, rfl⟩ := h.tail
    rw [List.filter_cons]
    split
    · exact (ih hs).cons hp hreg
    · rename_i hzero
      have h0 : p.2 = 0 := by
        rw [Bool.not_eq_true, Bool.not_eq_false', int, isZero, beq_iff_eq] at hzero
        exact_mod_cast hzero
      rw [h0, zpow_zero, one_mul]
      exact ih hs

theorem joined_reverse (h : Joined env L r) : Joined env L.reverse r := by
  refine ⟨fun p hp => h.defined p (List.mem_reverse.1 hp),
    fun p hp => h.regular p (List.mem_reverse.1 hp), ?_⟩
  rw [← h.value_eq, BasePowers.value, List.map_reverse, List.prod_reverse, BasePowers.value]

/-- A number in front becomes one more power. -/
theorem exists_numbered {gs : ByBase} (hg : Grouped gs (L.map basePower)) (h : Joined env L r)
    (q : ℚ) : ∃ M : BasePowers,
      Grouped (if q = 1 then gs else gs.add (.rat q) one) (M.map basePower) ∧
        Joined env M (q * r) := by
  split
  · rename_i h1
    rw [h1, one_mul]
    exact ⟨L, hg, h⟩
  · refine ⟨(.rat q, 1) :: L, ?_, ?_⟩
    · have hone : int 1 = one := by rw [int, Int.cast_one, one]
      rw [List.map_cons, basePower, hone]
      exact (hg.add _ _).1
    · have hcons := h.cons (n := 1) (denotes_number q) (.inl (by decide))
      rwa [zpow_one] at hcons

/-- **Joining exponents of one base keeps the value of a product.** -/
theorem denotes_joinExponents (h : Factors env fs) :
    Denotes env (joinExponents fs) (fs.map (value env)).prod := by
  have hpieces : ∀ f ∈ fs, Canonical.Piece env f := fun f hf =>
    Canonical.piece_of_defined (h f hf).1 (h f hf).2
  have hbased := Canonical.based_powersIn hpieces
  have hjoined : Joined env (powersIn fs).reverse (BasePowers.value env (powersIn fs)) :=
    joined_reverse ⟨fun p hp => (hbased p hp).1, Canonical.regular_powersIn h, rfl⟩
  have hgrouped : Grouped
      ((powersIn fs).foldl (fun ps p => ByBase.add ps p.1 (int p.2)) [])
      ((powersIn fs).reverse.map basePower) :=
    grouped_foldl (powersIn fs) (fun p => p.1) fun p => int p.2
  have hsymbolic : ∀ g ∈ (powersIn fs).foldl (fun ps p => ByBase.add ps p.1 (int p.2)) [],
      g.1.isNumber = false := by
    intro g hg
    obtain ⟨e, he⟩ := hgrouped.key_mem hg
    obtain ⟨p, hp, heq⟩ := List.mem_map.1 he
    rw [← (Prod.mk.inj heq).1]
    exact isNumber_of_isBase (hbased p (List.mem_reverse.1 hp)).2
  rw [joinExponents, Canonical.prod_pieces hpieces]
  generalize hcoeff : List.foldl _ (1 : ℚ) fs = q
  obtain rfl : q = numberIn fs :=
    hcoeff.symm.trans ((numberIn_eq_foldl hpieces 1).trans (one_mul _))
  generalize hpowers : List.foldl _ ([] : ByBase) (fs.filter _) = gs
  obtain rfl := hpowers.symm.trans (powersIn_eq_foldl hpieces [])
  -- no base is a number, so that the number in front is not taken into any power
  rw [absorbCoeff_eq hsymbolic]
  dsimp only
  obtain ⟨L, hL, hLjoined⟩ := exists_numbered hgrouped hjoined (numberIn fs)
  obtain ⟨M, hM, hnodup, hMjoined⟩ := exists_joined hL hLjoined
  have hfilter : (M.map basePower).filter (fun p => !p.2.isZero) =
      (M.filter fun p => !(int p.2).isZero).map basePower := List.filter_map
  have hnodup' : ((M.filter fun p => !(int p.2).isZero).map (·.1)).Nodup :=
    hnodup.sublist (List.filter_sublist.map _)
  rw [hM, hfilter]
  obtain ⟨N, hN, hNjoined⟩ := exists_joinOpposites _ hnodup' (joined_filter hMjoined)
  rw [hN, joinRoots_basePower]
  exact hNjoined.denotes

/-! ## Joining bases -/

/-- A whole exponent has no number to be moved to the base. -/
theorem coeffToBase_rat (b : Expr) (q : ℚ) : coeffToBase (b, .rat q) = (b, .rat q) := by
  rw [coeffToBase.eq_def]
  dsimp only
  split
  · exact if_pos (by rw [beq_self_eq_true, Bool.or_true])
  · rfl

theorem exists_powers (h : ∀ f ∈ fs, Defined env f) :
    ∃ L : BasePowers, fs.map (fun f => coeffToBase f.baseExp) = L.map basePower ∧
      Joined env L (fs.map (value env)).prod := by
  induction fs with
  | nil => exact ⟨[], rfl, joined_nil⟩
  | cons f fs ih =>
    obtain ⟨hf, hfs⟩ := List.forall_mem_cons.1 h
    obtain ⟨L, hL, hjoined⟩ := ih hfs
    obtain ⟨b, n, hbn, hb, hreg, hv⟩ := hf.baseExp
    refine ⟨(b, n) :: L, ?_, ?_⟩
    · rw [List.map_cons, hL, hbn, List.map_cons]
      exact congrArg (· :: _) (coeffToBase_rat b n)
    · rw [List.map_cons, List.prod_cons, hv]
      exact hjoined.cons hb.denotes (regular_iff.2 hreg)

/-- Bases of one whole exponent are multiplied. -/
theorem exists_joinedBases (n : ℤ) (h : ∀ b ∈ es, Defined env b ∧ Regular (value env b) n) :
    ∃ b, joinedBases (int n) es = [b] ∧ Defined env b ∧ Regular (value env b) n ∧
      value env b ^ n = (es.map fun b => value env b ^ n).prod := by
  have hproduct := denotes_product fun b hb => (h b hb).1
  rw [joinedBases.eq_def]
  split
  · rename_i b
    obtain ⟨hb, hreg⟩ := List.forall_mem_singleton.1 h
    exact ⟨b, rfl, hb, hreg, List.prod_singleton.symm⟩
  · refine ⟨_, if_pos (isWhole_int n), hproduct.defined, ?_, ?_⟩
    · rw [hproduct.value_eq, regular_iff]
      by_cases hn : 0 ≤ n
      · exact .inl hn
      · refine .inr (List.prod_ne_zero fun h0 => ?_)
        obtain ⟨b, hb, hb0⟩ := List.mem_map.1 h0
        exact (regular_iff.1 (h b hb).2).elim hn fun hne => hne hb0
    · rw [hproduct.value_eq]
      have hmap := map_list_prod (zpowGroupHom n) (es.map (value env))
      rw [List.map_map] at hmap
      exact hmap

/-- The base that several bases of one exponent are joined to. -/
def joinedBase (g : Expr × List Expr) : Expr := (joinedBases g.1 g.2).headD one

/-- Every group has a whole exponent, and its bases become one. -/
theorem exists_joinedBase {gs : ByBase} (hg : Grouped gs (L.map fun p => (int p.2, p.1)))
    (h : Joined env L r) {g : Expr × List Expr} (hgs : g ∈ gs) :
    ∃ n, g.1 = int n ∧ joinedBases g.1 g.2 = [joinedBase g] ∧ Defined env (joinedBase g) ∧
      Regular (value env (joinedBase g)) n ∧
        value env (joinedBase g) ^ n = (g.2.map fun b => value env b ^ n).prod := by
  have hpart : ∀ b, (g.1, b) ∈ L.map (fun p => (int p.2, p.1)) →
      g.1 = int (wholeExponent g.1) ∧ Defined env b ∧
        Regular (value env b) (wholeExponent g.1) := by
    intro b hb
    obtain ⟨p, hp, heq⟩ := List.mem_map.1 hb
    obtain ⟨hexp, rfl⟩ := Prod.mk.inj heq
    rw [← hexp, wholeExponent_int]
    exact ⟨rfl, h.defined p hp, h.regular p hp⟩
  obtain ⟨b, hb⟩ := hg.key_mem hgs
  obtain ⟨c, hc, hdefined, hreg, hv⟩ := exists_joinedBases (wholeExponent g.1) fun b hb =>
    (hpart b (hg.part_mem hgs hb)).2
  rw [← (hpart b hb).1] at hc
  have hbase : joinedBase g = c := by rw [joinedBase, hc, List.headD_cons]
  rw [hbase]
  exact ⟨wholeExponent g.1, (hpart b hb).1, hc, hdefined, hreg, hv⟩

/-- The joined bases, each with the exponents that it occurs with. -/
def regrouped (gs : ByBase) : ByBase :=
  gs.foldl (fun gs g => (joinedBases g.1 g.2).foldl (fun gs b => ByBase.add gs b g.1) gs) []

theorem grouped_regrouped {gs : ByBase} (h : ∀ g ∈ gs, joinedBases g.1 g.2 = [joinedBase g]) :
    Grouped (regrouped gs) (gs.reverse.map fun g => (joinedBase g, g.1)) := by
  have hgrouped := grouped_foldl gs joinedBase fun g => g.1
  rwa [List.foldl_ext _ _ _ fun acc g hg => ?_] at hgrouped
  rw [h g hg, List.foldl_cons, List.foldl_nil]

/-- The powers of all bases with all their exponents. -/
theorem flatMap_power (bs : ByBase) :
    (bs.flatMap fun p => p.2.map (power p.1)) = (ungrouped bs).map fun p => power p.1 p.2 := by
  rw [ungrouped, List.map_flatMap]
  refine List.flatMap_congr fun p _ => ?_
  rw [List.map_map]
  rfl

/-- **Joining bases of one exponent keeps the value of a product.** -/
theorem denotes_joinBases (h : ∀ f ∈ fs, Defined env f) :
    Denotes env (joinBases fs) (fs.map (value env)).prod := by
  obtain ⟨L, hL, hjoined⟩ := exists_powers h
  have hexponents : Grouped (L.foldl (fun gs p => ByBase.add gs (int p.2) p.1) [])
      (L.reverse.map fun p => (int p.2, p.1)) :=
    grouped_foldl L (fun p => int p.2) fun p => p.1
  have hfirst : joinBases fs = product ((ungrouped (regrouped
      (L.foldl (fun gs p => ByBase.add gs (int p.2) p.1) []))).map fun p => power p.1 p.2) := by
    rw [joinBases, hL, List.foldl_map, ← flatMap_power]
    rfl
  rw [hfirst]
  generalize L.foldl (fun gs p => ByBase.add gs (int p.2) p.1) [] = gs at hexponents
  have hgroup := fun g hg => exists_joinedBase hexponents (joined_reverse hjoined) (g := g) hg
  have hbases := grouped_regrouped fun g hg => by
    obtain ⟨n, -, hc, -⟩ := hgroup g hg
    exact hc
  refine (denotes_product_map (g := fun p => value env p.1 ^ wholeExponent p.2)
    fun p hp => ?_).of_eq ?_
  · obtain ⟨g, hg, rfl⟩ := List.mem_map.1 (hbases.perm.mem_iff.1 hp)
    obtain ⟨n, hn, -, hc, hreg, -⟩ := hgroup g (List.mem_reverse.1 hg)
    dsimp only
    rw [hn, wholeExponent_int]
    exact hc.denotes.zpow (regular_iff.1 hreg)
  · rw [(hbases.perm.map _).prod_eq, List.map_map, List.map_reverse, List.prod_reverse,
      ← hjoined.value_eq, BasePowers.value]
    have hprod := hexponents.prod_eq fun p => value env p.2 ^ wholeExponent p.1
    rw [List.map_map, List.map_reverse, List.prod_reverse] at hprod
    refine (congrArg List.prod (List.map_congr_left fun g hg => ?_)).trans (hprod.trans ?_)
    · obtain ⟨n, hn, -, -, -, hv⟩ := hgroup g hg
      rw [Function.comp_apply, hn, wholeExponent_int]
      exact hv
    · refine congrArg List.prod (List.map_congr_left fun p _ => ?_)
      rw [Function.comp_apply, wholeExponent_int, wholePow_rat]

/-! ## Everywhere -/

theorem joinPowersTo_rat (fuel : ℕ) (join : Join) (deep : Bool) (q : ℚ) :
    joinPowersTo fuel join deep (.rat q) = .rat q := by
  cases fuel <;> rfl

/-- The product of some factors with powers joined. -/
def joinedProduct (fuel : ℕ) (join : Join) (deep : Bool) (fs : List Expr) : Expr :=
  match join with
  | .exponents => joinExponents fs
  | .bases => joinBases fs
  | .all => joinPowersTo fuel .bases deep (joinExponents fs)

theorem keepsValue_joinParts {g : Expr → Expr} (hg : KeepsValue env g)
    (hrat : ∀ q, g (.rat q) = .rat q) (deep : Bool) :
    KeepsValue env fun e => match e with
      | .app h as => if deep || e.isAdd || e.isMul then rebuild h (as.map g) else e
      | e => e := by
  rintro e r ⟨h, rfl⟩
  dsimp only
  split
  · split
    · exact denotes_rebuild_map hg hrat h
    · exact h.denotes
  · exact h.denotes

theorem keepsValue_joinWhole {joined : Bool → List Expr → Expr} (deep : Bool)
    (hjoined : ∀ {fs} (deep : Bool), Factors env fs →
      Denotes env (joined deep fs) (fs.map (value env)).prod) :
    KeepsValue env fun e => match e with
      | .app .pow _ => joined false [e]
      | .app .mul fs => joined deep fs
      | e => e := by
  rintro e r ⟨h, rfl⟩
  dsimp only
  split
  · exact (hjoined false (List.forall_mem_singleton.2 ⟨h, rfl⟩)).of_eq List.prod_singleton
  · exact (hjoined deep h.mul_mem.1).of_eq (value_mul env _).symm
  · exact h.denotes

theorem keepsValue_joinPowersTo (fuel : ℕ) (join : Join) (deep : Bool) :
    KeepsValue env (joinPowersTo fuel join deep) := by
  induction fuel generalizing join deep with
  | zero => exact keepsValue_id
  | succ fuel ih =>
    have hproduct : ∀ {fs} (deep : Bool), Factors env fs →
        Denotes env (joinedProduct fuel join deep fs) (fs.map (value env)).prod := by
      intro fs deep hfs
      cases join with
      | exponents => exact denotes_joinExponents hfs
      | bases => exact denotes_joinBases fun f hf => (hfs f hf).1
      | all => exact ih .bases deep (denotes_joinExponents hfs)
    exact (keepsValue_joinWhole deep hproduct).comp
      (keepsValue_joinParts (ih join deep) (joinPowersTo_rat fuel join deep) deep)

/-- **Joining powers keeps the value.** -/
theorem keepsValue_joinPowers (join : Join) (deep : Bool) : KeepsValue env (joinPowers join deep) :=
  fun e _ h => keepsValue_joinPowersTo (2 * e.size + 4) join deep h

end ErrorBars.Expr
