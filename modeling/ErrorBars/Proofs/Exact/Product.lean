import Mathlib.Algebra.BigOperators.Ring.List
import ErrorBars.Proofs.Exact.Merge

/-!
# Canonical products keep values

A product of numbers and powers of bases is taken apart into one number and a list of powers
(`foldl_opened`), whether these powers have values or not (`Piece`), the powers are merged
(`assemble_opened`), and the number is put in front of what is left (`denotes_closeProduct`).  For
defined factors that keeps the value (`denotes_product`).
-/

set_option autoImplicit false

namespace ErrorBars

open Expr

variable {R : Type} [CommRing R] [Algebra ℚ R] {A : Arith} {env : String → R}

namespace Canonical

variable {b e : Expr} {es fs : List Expr} {L : BasePowers} {c q : ℚ} {n : ℤ}

theorem boundsProduct?_eq_none {A : Arith} {a b : Expr} (ha : Ends.of? a = none)
    (hb : Ends.of? b = none) : boundsProduct? A a b = none := by
  rw [boundsProduct?, ha, hb]

/-! ## Taking a product apart -/

/-- A number, or a power of a base that need not have a value. -/
inductive Piece (env : String → R) : Expr → Prop where
  | rat (q : ℚ) : Piece env (.rat q)
  | power (b : Expr) (n : ℤ) (base : Defined env b) (kind : b.isBase = true) (ne_zero : n ≠ 0) :
      Piece env (powerForm b n)

/-- The factors of an expression are numbers and powers. -/
def Pieces (env : String → R) (e : Expr) : Prop := ∀ f ∈ e.factors, Piece env f

theorem piece_of_defined (h : Defined env e) (hm : e.isMul = false) :
    Piece env e := by
  rcases h.factor_cases hm with ⟨q, rfl⟩ | ⟨b, n, hb, hbase, hn, -, rfl⟩
  · exact .rat q
  · exact .power b n hb hbase hn

theorem pieces_of_defined (h : Defined env e) : Pieces env e := fun f hf =>
  piece_of_defined (h.factors f hf).1 (h.factors f hf).2

/-- The power that a factor is. -/
def powerIn? : Expr → Option (Expr × ℤ)
  | .rat _ => none
  | f => some (f.baseExp.1, f.baseExp.2.int?.getD 0)

/-- The product of the numbers among several factors. -/
def numberIn (fs : List Expr) : ℚ := (fs.filterMap rat?).prod

/-- The powers among several factors. -/
def powersIn (fs : List Expr) : BasePowers := fs.filterMap powerIn?

theorem powerIn?_of_isNumber_eq_false (h : e.isNumber = false) :
    powerIn? e = some (e.baseExp.1, e.baseExp.2.int?.getD 0) := by
  cases e with
  | rat q => cases h
  | _ => rfl

theorem powerIn?_powerForm (hb : b.isBase = true) : powerIn? (powerForm b n) = some (b, n) := by
  rw [powerIn?_of_isNumber_eq_false (isNumber_powerForm hb), baseExp_powerForm hb, Arith.int?_int]
  rfl

theorem value_powerForm (env : String → R) (b : Expr) (n : ℤ) :
    value env (powerForm b n) = wholePow (value env b) n := by
  by_cases hn : n = 1
  · rw [hn, powerForm_one, wholePow_one]
  · rw [powerForm_of_ne_one hn, value_rawPow]

theorem numberIn_cons_rat (q : ℚ) (fs : List Expr) :
    numberIn (.rat q :: fs) = q * numberIn fs := rfl

theorem powersIn_cons_rat (q : ℚ) (fs : List Expr) : powersIn (.rat q :: fs) = powersIn fs := rfl

theorem numberIn_cons_power (hb : b.isBase = true) (fs : List Expr) :
    numberIn (powerForm b n :: fs) = numberIn fs := by
  rw [numberIn, List.filterMap_cons_none (rat?_powerForm hb), numberIn]

theorem powersIn_cons_power (hb : b.isBase = true) (fs : List Expr) :
    powersIn (powerForm b n :: fs) = (b, n) :: powersIn fs := by
  rw [powersIn, List.filterMap_cons_some (powerIn?_powerForm hb), powersIn]

theorem numberIn_append (fs gs : List Expr) :
    numberIn (fs ++ gs) = numberIn fs * numberIn gs := by
  rw [numberIn, List.filterMap_append, List.prod_append, numberIn, numberIn]

theorem powersIn_append (fs gs : List Expr) : powersIn (fs ++ gs) = powersIn fs ++ powersIn gs :=
  List.filterMap_append

/-- The value of several factors is that of the number and the powers. -/
theorem prod_pieces (h : ∀ f ∈ fs, Piece env f) :
    (fs.map (value env)).prod =
      algebraMap ℚ R (numberIn fs) * BasePowers.value env (powersIn fs) := by
  induction fs with
  | nil =>
    show (1 : R) = algebraMap ℚ R 1 * 1
    rw [map_one, one_mul]
  | cons f fs ih =>
    obtain ⟨hf, hfs⟩ := List.forall_mem_cons.1 h
    rw [List.map_cons, List.prod_cons, ih hfs]
    cases hf with
    | rat q => rw [numberIn_cons_rat, powersIn_cons_rat, value_rat, map_mul, mul_assoc]
    | power b n _ kind _ =>
      rw [numberIn_cons_power kind, powersIn_cons_power kind, value_powerForm,
        BasePowers.value_cons]
      exact mul_left_comm _ _ _

theorem based_powersIn (h : ∀ f ∈ fs, Piece env f) : BasePowers.Based env (powersIn fs) := by
  intro p hp
  obtain ⟨f, hf, hfp⟩ := List.mem_filterMap.1 hp
  cases h f hf with
  | rat => cases hfp
  | power b n base kind _ =>
    rw [powerIn?_powerForm kind] at hfp
    rw [← Option.some.inj hfp]
    exact ⟨base, kind⟩

theorem regular_powersIn (h : Factors env fs) : BasePowers.Regular env (powersIn fs) := by
  intro p hp
  obtain ⟨f, hf, hfp⟩ := List.mem_filterMap.1 hp
  rcases (h f hf).1.factor_cases (h f hf).2 with ⟨q, rfl⟩ | ⟨b, n, -, hb, -, hreg, rfl⟩
  · cases hfp
  · rw [powerIn?_powerForm hb] at hfp
    rw [← Option.some.inj hfp]
    exact hreg

/-- A product that has been taken apart into a number and powers, the last one first. -/
def opened (c : ℚ) (L : BasePowers) : ProductParts :=
  ⟨.rat c, L.map basePower, [], [], 0, false⟩

theorem take_rat (fuel : ℕ) : ProductParts.take A (fuel + 1) (opened c L) (.rat q) =
    opened (c * q) L := rfl

theorem take_power (fuel : ℕ) (hb : b.isBase = true) :
    ProductParts.take A (fuel + 1) (opened c L) (powerForm b n) = opened c ((b, n) :: L) := by
  by_cases hn : n = 1
  · have hone : int 1 = one := by rw [int, Int.cast_one, one]
    rw [hn, powerForm_one, opened, opened, List.map_cons, basePower, hone]
    obtain ⟨s, rfl⟩ | ⟨ts, rfl⟩ := cases_of_isBase hb <;> rfl
  · rw [powerForm_of_ne_one hn]
    obtain ⟨s, rfl⟩ | ⟨ts, rfl⟩ := cases_of_isBase hb <;> rfl

theorem foldl_take (fuel : ℕ) (h : ∀ f ∈ fs, Piece env f) :
    fs.foldl (ProductParts.take A (fuel + 1)) (opened c L) =
      opened (c * numberIn fs) ((powersIn fs).reverse ++ L) := by
  induction fs generalizing c L with
  | nil => rw [show numberIn [] = 1 from rfl, mul_one]; rfl
  | cons f fs ih =>
    obtain ⟨hf, hfs⟩ := List.forall_mem_cons.1 h
    rw [List.foldl_cons]
    cases hf with
    | rat q => rw [take_rat, ih hfs, numberIn_cons_rat, powersIn_cons_rat, mul_assoc]
    | power b n _ kind _ =>
      rw [take_power _ kind, ih hfs, numberIn_cons_power kind, powersIn_cons_power kind,
        List.reverse_cons, List.append_assoc]
      rfl

theorem take_pieces (fuel : ℕ) (h : Pieces env e) :
    ProductParts.take A (fuel + 2) (opened c L) e =
      opened (c * numberIn e.factors) ((powersIn e.factors).reverse ++ L) := by
  by_cases hm : e.isMul = true
  · rw [← foldl_take (A := A) fuel h]
    match e, hm with
    | .app .mul _, _ => rfl
  · rw [Bool.not_eq_true] at hm
    rw [Pieces, factors_of_isMul_eq_false hm] at h
    rw [factors_of_isMul_eq_false hm, ← foldl_take (A := A) (fuel + 1) h]
    rfl

/-- **A product taken apart.** -/
theorem foldl_opened (h : ∀ e ∈ es, Pieces env e) :
    es.foldl (ProductParts.take A productDepth) (opened c L) =
      opened (c * numberIn (es.flatMap factors))
        ((powersIn (es.flatMap factors)).reverse ++ L) := by
  induction es generalizing c L with
  | nil =>
    rw [List.flatMap_nil, show numberIn [] = 1 from rfl, mul_one]
    rfl
  | cons e es ih =>
    obtain ⟨he, hes⟩ := List.forall_mem_cons.1 h
    rw [List.foldl_cons, productDepth, take_pieces 62 he, ← productDepth, ih hes,
      List.flatMap_cons, numberIn_append, powersIn_append, List.reverse_append, List.append_assoc,
      mul_assoc]

/-! ## Putting it together -/

theorem mergeRoots_nil : mergeRoots A [] = (.rat 1, [], []) := by
  show (Expr.rat (1 * 1), _, _) = _
  rw [mul_one]
  rfl

theorem mergeMinusOne_zero : mergeMinusOne 0 [] = (false, [], []) := by
  rw [mergeMinusOne]
  simp

/-- The factors that an evaluated power gives. -/
def given : Evaluation → List Expr
  | .factor e .. => e.factors
  | .number n => [n]
  | _ => []

/-- Where there is nothing but a number and powers, these are evaluated and the number is put in
front of them. -/
theorem assemble_powers {powers : List (Expr × Expr)} {vs : List Evaluation}
    (h : evaluatePowers A 1 (gather A powers.reverse) = vs)
    (hu : ∀ v ∈ vs, v ≠ Evaluation.undefined) :
    assemble A ⟨.rat c, powers, [], [], 0, false⟩ =
      closeProduct A (.rat c) (vs.flatMap given) := by
  have hcoeff : mulCoeff A (.rat c) (.rat 1) = .rat c := by
    rw [mulCoeff, boundsProduct?_eq_none rfl rfl]
    show Expr.rat (c * 1) = _
    rw [mul_one]
  unfold assemble
  dsimp only
  rw [if_neg Bool.false_ne_true, h, if_neg, mergeRoots_nil]
  · dsimp only
    rw [mergeMinusOne_zero]
    show closeProduct A (mulCoeff A (.rat c) (.rat 1))
      (vs.flatMap given ++ [] ++ [] ++ [] ++ []) = _
    rw [hcoeff, List.append_nil, List.append_nil, List.append_nil, List.append_nil]
  · rw [List.any_eq_true]
    rintro ⟨v, hv, hundefined⟩
    cases v with
    | undefined => exact hu _ hv rfl
    | gone | number | factor => cases hundefined

theorem assemble_opened (hA : A.Exact env) (h : BasePowers.Based env L) :
    assemble A (opened c L.reverse) = closeProduct A (.rat c) (written (merged L)) := by
  have hevaluated : evaluatePowers A 1 (gather A (L.reverse.map basePower).reverse) =
      (merged L).map evaluation := by
    rw [List.map_reverse, List.reverse_reverse, gather_eq hA,
      evaluatePowers_base hA (based_merged h)]
  rw [opened, assemble_powers hevaluated,
    flatMap_evaluation (based_merged h) rfl fun _ _ _ => rfl]
  intro v hv
  obtain ⟨p, -, rfl⟩ := List.mem_map.1 hv
  rw [evaluation]
  split
  · exact Evaluation.noConfusion
  · exact Evaluation.noConfusion

/-! ## The number in front -/

theorem mem_written {f : Expr} (h : f ∈ written L) : ∃ p ∈ L, p.2 ≠ 0 ∧ f = powerForm p.1 p.2 := by
  obtain ⟨p, hp, hf⟩ := List.mem_filterMap.1 h
  split at hf
  · cases hf
  · rename_i h0
    exact ⟨p, hp, h0, (Option.some.inj hf).symm⟩

theorem prod_written (env : String → R) (L : BasePowers) :
    ((written L).map (value env)).prod = BasePowers.value env L := by
  induction L with
  | nil => rfl
  | cons p L ih =>
    rw [written_cons, List.map_append, List.prod_append, ih, BasePowers.value_cons]
    split
    · rename_i h0
      rw [h0, wholePow_zero]
      rfl
    · rw [List.map_singleton, List.prod_singleton, value_powerForm]

/-- Nothing is known of a power of a base, even of one that has no value. -/
theorem facts_powerForm (h : Defined env b) (hb : b.isBase = true) :
    (powerForm b n).facts = Facts.nothing := by
  have hbase := h.isConstant_and_facts (isNumber_of_isBase hb)
  by_cases hn : n = 1
  · rw [hn, powerForm_one]
    exact hbase.2
  · have hc : (Expr.app .pow [b, int n]).isConstant = false :=
      isConstant_app ⟨b, by simp, hbase.1⟩
    rw [powerForm_of_ne_one hn, rawPow, facts, hc, factsOfAll, hbase.2, factsOfAll]
    exact headFacts_pow (int n).facts

/-- A factor of which nothing is known. -/
def Unknown (f : Expr) : Prop := f.isNumber = false ∧ f.facts = Facts.nothing

theorem unknown_written (h : BasePowers.Based env L) : ∀ f ∈ written L, Unknown f := by
  intro f hf
  obtain ⟨p, hp, -, rfl⟩ := mem_written hf
  exact ⟨isNumber_powerForm (h p hp).2, facts_powerForm (h p hp).1 (h p hp).2⟩

theorem closeProduct_zero (h : ∀ f ∈ fs, Unknown f) : closeProduct A (.rat 0) fs = .rat 0 := by
  have hany : (fs.any fun e => e.facts.finite == some false) = false := by
    refine List.any_eq_false.2 fun f hf => ?_
    rw [(h f hf).2]
    exact Bool.false_ne_true
  show (if fs.any fun e => e.facts.finite == some false then Expr.undefined else .rat 0) = _
  rw [hany]
  rfl

theorem closeProduct_rat (hc : c ≠ 0) (h : ∀ f ∈ fs, Unknown f) :
    closeProduct A (.rat c) fs =
      if c = 1 then productOf (sortArgs fs)
      else
        match sortArgs fs with
        | [.app .add ts] => A.sum (ts.map (A.mul (.rat c)))
        | others => productOf (.rat c :: others) := by
  have hzero : (Expr.rat c).isZero = false := beq_eq_false_iff_ne.2 hc
  have hfilter : fs.filter (fun e => !e.isNumber) = fs :=
    List.filter_eq_self.2 fun f hf => by rw [(h f hf).1]; rfl
  have hfold : ∀ d : Expr,
      fs.foldl (fun acc e => if e.isNumber then mulCoeff A acc e else acc) d = d := by
    intro d
    clear hfilter
    induction fs with
    | nil => rfl
    | cons f fs ih =>
      obtain ⟨hf, hfs⟩ := List.forall_mem_cons.1 h
      rw [List.foldl_cons, hf.1]
      exact ih hfs
  have hclose : closeProduct A (.rat c) fs = finishProduct A (.rat c) fs := by
    show (if (Expr.rat c).isZero then _ else _) = _
    rw [hzero]
    rfl
  rw [hclose, finishProduct, hfold, hfilter]
  show (if Expr.rat c == one then _ else _) = _
  by_cases h1 : c = 1
  · rw [if_pos h1, h1]
    rfl
  · have hone : (Expr.rat c == one) = false :=
      beq_eq_false_iff_ne.2 fun heq => h1 (Expr.rat.inj heq)
    rw [if_neg h1, hone]
    rfl

/-- **A number in front of defined factors** multiplies their value. -/
theorem denotes_closeProduct (hA : A.Exact env) (h : Factors env fs)
    (hu : ∀ f ∈ fs, Unknown f) :
    Denotes env (closeProduct A (.rat c) fs) (algebraMap ℚ R c * (fs.map (value env)).prod) := by
  by_cases hc : c = 0
  · rw [hc, closeProduct_zero hu, map_zero, zero_mul]
    exact denotes_zero
  · have hperm := sortArgs_perm fs
    have hf : Factors env (sortArgs fs) := fun f hf => h f (hperm.mem_iff.1 hf)
    have hn : ∀ f ∈ sortArgs fs, f.isNumber = false := fun f hf => (hu f (hperm.mem_iff.1 hf)).1
    rw [closeProduct_rat hc hu, ← (hperm.map (value env)).prod_eq]
    generalize sortArgs fs = gs at hf hn
    have hsymbolic : Symbolic gs ∨ gs = [] := by
      match gs, hn with
      | [], _ => exact .inr rfl
      | g :: gs, hn => exact .inl ⟨g, by simp, hn g (by simp)⟩
    split
    · rename_i h1
      rw [h1, map_one, one_mul]
      exact denotes_productOf hf (hsymbolic.imp_right fun h => by rw [h]; exact Nat.zero_le 1)
    · split
      · rename_i ts
        have hts := (hf (.app .add ts) (by simp)).1.add_mem.1
        refine (hA.sum_map (g := fun t => algebraMap ℚ R c * value env t) fun t ht =>
          hA.mul (denotes_rat c) (hts t ht).denotes).of_eq ?_
        rw [List.sum_map_mul_left, List.map_singleton, List.prod_singleton, value_add]
      · rcases hsymbolic with hs | rfl
        · match gs, hs with
          | g :: gs, hs => exact denotes_rat_rawMul hf hs c
        · rw [List.map_nil, List.prod_nil, mul_one]
          exact denotes_rat c

/-! ## The product -/

/-- The product of factors that are taken apart and merged. -/
theorem assemble_eq (hA : A.Exact env) (h : ∀ e ∈ es, Pieces env e) :
    assemble A (es.foldl (ProductParts.take A productDepth) ProductParts.empty) =
      closeProduct A (.rat (numberIn (es.flatMap factors)))
        (written (merged (powersIn (es.flatMap factors)))) := by
  have hempty : ProductParts.empty = opened 1 [] := rfl
  have hpieces : ∀ f ∈ es.flatMap factors, Piece env f := fun f hf => by
    obtain ⟨e, he, hf⟩ := List.mem_flatMap.1 hf
    exact h e he f hf
  rw [hempty, foldl_opened h, one_mul, List.append_nil,
    assemble_opened hA (based_powersIn hpieces)]

/-- Powers that have values, with a number in front of them. -/
theorem denotes_closeProduct_written (hA : A.Exact env) (hb : BasePowers.Based env L)
    (hr : BasePowers.Regular env L) : Denotes env (closeProduct A (.rat c) (written L))
      (algebraMap ℚ R c * BasePowers.value env L) := by
  rw [← prod_written]
  refine denotes_closeProduct hA (fun f hf => ?_) (unknown_written hb)
  obtain ⟨p, hp, hn, rfl⟩ := mem_written hf
  obtain ⟨hbase, hkind⟩ := hb p hp
  exact ⟨(denotes_powerForm hbase hkind hn (hr p hp)).defined, isMul_powerForm hkind⟩

theorem denotes_closeProduct_merged (hA : A.Exact env) (hb : BasePowers.Based env L)
    (hr : BasePowers.Regular env L) :
    Denotes env (closeProduct A (.rat c) (written (merged L)))
      (algebraMap ℚ R c * BasePowers.value env L) := by
  obtain ⟨hreg, hv⟩ := merged_regular hr
  rw [← hv]
  exact denotes_closeProduct_written hA (based_merged hb) hreg

theorem denotes_assemble (hA : A.Exact env) (h : ∀ e ∈ es, Defined env e) :
    Denotes env (assemble A (es.foldl (ProductParts.take A productDepth) ProductParts.empty))
      (es.map (value env)).prod := by
  obtain ⟨hf, hv⟩ := factors_flatMap h
  have hpieces : ∀ f ∈ es.flatMap factors, Piece env f := fun f hf' =>
    piece_of_defined (hf f hf').1 (hf f hf').2
  rw [assemble_eq hA fun e he => pieces_of_defined (h e he), ← hv, prod_pieces hpieces]
  exact denotes_closeProduct_merged hA (based_powersIn hpieces) (regular_powersIn hf)

/-- A number times a sum is multiplied out, and otherwise nothing is done. -/
theorem timesSum_cases (hA : A.Exact env) (he : Defined env e) (q : ℚ) :
    timesSum A q e = none ∨
      ∃ v, timesSum A q e = some v ∧ Denotes env v (algebraMap ℚ R q * value env e) := by
  unfold timesSum
  split
  · rename_i ts
    refine .inr ⟨_, rfl, ?_⟩
    refine (hA.sum_map (g := fun t => algebraMap ℚ R q * value env t) fun t ht =>
      hA.keepCoeff (he.add_mem.1 t ht).denotes).of_eq ?_
    rw [List.sum_map_mul_left, value_add]
  · rename_i c ts
    split
    · rename_i hc
      obtain ⟨hf, -⟩ := he.mul_mem
      obtain ⟨d, rfl⟩ := (hf c (by simp)).1.eq_rat hc
      have hts := (hf (.app .add ts) (by simp)).1
      have hv : algebraMap ℚ R q * value env (.app .mul [.rat d, .app .add ts]) =
          algebraMap ℚ R (q * d) * value env (.app .add ts) := by
        rw [value_mul, List.map_cons, List.map_singleton, List.prod_cons, List.prod_singleton,
          value_rat, map_mul, mul_assoc]
      refine .inr ⟨_, rfl, ?_⟩
      rw [hv]
      show Denotes env (if Expr.rat (q * d) == one then _ else rawMul [.rat (q * d), _]) _
      split
      · rename_i h1
        rw [Expr.rat.inj (beq_iff_eq.1 h1), map_one, one_mul]
        exact hts.denotes
      · exact denotes_rat_rawMul_single hts rfl rfl (q * d)
    · exact .inl rfl
  · exact .inl rfl

theorem prod_filter_one (env : String → R) (es : List Expr) :
    ((es.filter fun e => !(e == one)).map (value env)).prod = (es.map (value env)).prod := by
  induction es with
  | nil => rfl
  | cons e es ih =>
    rw [List.map_cons, List.prod_cons, ← ih]
    by_cases he : e == one
    · rw [List.filter_cons_of_neg (by simp [he]), beq_iff_eq.1 he, value_one, one_mul]
    · rw [List.filter_cons_of_pos (by simp [he]), List.map_cons, List.prod_cons]

/-- **A canonical product has the product of the values.** -/
theorem denotes_product (hA : A.Exact env) (h : ∀ e ∈ es, Defined env e) :
    Denotes env (product A es) (es.map (value env)).prod := by
  have hfilter : ∀ e ∈ es.filter fun e => !(e == one), Defined env e := fun e he =>
    h e (List.mem_of_mem_filter he)
  rw [product, ← prod_filter_one]
  generalize es.filter (fun e => !(e == one)) = fs at hfilter
  have hgeneral := denotes_assemble hA hfilter
  have htimes : ∀ {q e}, Defined env e →
      (algebraMap ℚ R q * value env e = (fs.map (value env)).prod) →
      Denotes env (if q = 0 then
          assemble A (fs.foldl (ProductParts.take A productDepth) ProductParts.empty)
        else (timesSum A q e).getD
          (assemble A (fs.foldl (ProductParts.take A productDepth) ProductParts.empty)))
        (fs.map (value env)).prod := by
    intro q e he hv
    split
    · exact hgeneral
    · rcases timesSum_cases hA he q with hnone | ⟨v, hsome, hd⟩
      · rw [hnone]
        exact hgeneral
      · rw [hsome]
        exact hd.of_eq hv
  split
  · exact denotes_one
  · rename_i e
    rw [List.map_singleton, List.prod_singleton]
    exact (hfilter e (List.mem_singleton.2 rfl)).denotes
  · rename_i q e
    exact htimes (hfilter e (by simp)) (by simp)
  · rename_i e q _
    exact htimes (hfilter e (by simp)) (by simp [mul_comm])
  · rename_i a b _ _
    rw [boundsProduct?_eq_none (hfilter a (by simp)).ends (hfilter b (by simp)).ends]
    exact hgeneral
  · exact hgeneral

/-! ## Products that stay as they are -/

theorem map_rat_filter_one (qs : List ℚ) :
    (qs.map Expr.rat).filter (fun e => !(e == one)) =
      (qs.filter fun q => !(q == 1)).map Expr.rat := by
  induction qs with
  | nil => rfl
  | cons q qs ih =>
    rw [List.map_cons]
    by_cases h1 : q = 1
    · rw [h1]
      exact ih
    · have hq : (q == 1) = false := beq_eq_false_iff_ne.2 h1
      have he : (Expr.rat q == one) = false :=
        beq_eq_false_iff_ne.2 fun h => h1 (Expr.rat.inj h)
      rw [List.filter_cons_of_pos (by simp [he]), List.filter_cons_of_pos (by simp [hq]), ih,
        List.map_cons]

theorem pieces_rat (env : String → R) (q : ℚ) : Pieces env (.rat q) :=
  List.forall_mem_singleton.2 (.rat q)

theorem flatMap_factors_rat (qs : List ℚ) :
    (qs.map Expr.rat).flatMap factors = qs.map Expr.rat := by
  induction qs with
  | nil => rfl
  | cons q qs ih =>
    rw [List.map_cons, List.flatMap_cons, ih]
    rfl

theorem numberIn_rat (qs : List ℚ) : numberIn (qs.map .rat) = qs.prod := by
  induction qs with
  | nil => rfl
  | cons q qs ih => rw [List.map_cons, numberIn_cons_rat, ih, List.prod_cons]

theorem powersIn_rat (qs : List ℚ) : powersIn (qs.map .rat) = [] := by
  induction qs with
  | nil => rfl
  | cons q qs ih => rw [List.map_cons, powersIn_cons_rat, ih]

theorem closeProduct_nil : closeProduct A (.rat c) [] = .rat c := by
  have hnil : ∀ f ∈ ([] : List Expr), Unknown f := fun f hf => absurd hf List.not_mem_nil
  by_cases hc : c = 0
  · rw [hc]
    exact closeProduct_zero hnil
  · rw [closeProduct_rat hc hnil, sortArgs_nil]
    split
    · rename_i h1
      rw [h1]
      rfl
    · rfl

/-- A canonical product of numbers is a number. -/
theorem product_rat (hA : A.Exact env) (qs : List ℚ) : product A (qs.map .rat) = .rat qs.prod := by
  have hprod : (qs.filter fun q => !(q == 1)).prod = qs.prod := by
    induction qs with
    | nil => rfl
    | cons q qs ih =>
      by_cases h1 : q = 1
      · rw [List.filter_cons_of_neg (by simp [h1]), ih, h1, List.prod_cons, one_mul]
      · rw [List.filter_cons_of_pos (by simp [h1]), List.prod_cons, List.prod_cons, ih]
  rw [product, map_rat_filter_one, ← hprod]
  generalize qs.filter (fun q => !(q == 1)) = ps
  have hgeneral : assemble A ((ps.map Expr.rat).foldl (ProductParts.take A productDepth)
      ProductParts.empty) = .rat ps.prod := by
    have hpieces : ∀ e ∈ ps.map Expr.rat, Pieces env e :=
      List.forall_mem_map.2 fun p _ => pieces_rat env p
    rw [assemble_eq hA hpieces, flatMap_factors_rat, numberIn_rat, powersIn_rat]
    exact closeProduct_nil
  match ps, hgeneral with
  | [], _ => rfl
  | [p], _ =>
    rw [List.prod_singleton]
    rfl
  | [p, q], hgeneral =>
    have hsum : timesSum A p (.rat q) = none := rfl
    rw [List.map_cons, List.map_singleton] at hgeneral ⊢
    dsimp only
    rw [hsum, Option.getD_none, ite_self]
    exact hgeneral
  | _ :: _ :: _ :: _, hgeneral => exact hgeneral

theorem written_single (hn : n ≠ 0) : written (merged [(b, n)]) = [powerForm b n] := by
  show written [(b, n)] = _
  rw [written_cons, if_neg hn]
  rfl

/-- A number and a power, unless that is a sum. -/
theorem product_rat_power (hA : A.Exact env) (hb : Defined env b) (hbase : b.isBase = true)
    (hn : n ≠ 0) (ha : (powerForm b n).isAdd = false) :
    product A [.rat q, powerForm b n] = closeProduct A (.rat q) [powerForm b n] := by
  have hfactors := factors_of_isMul_eq_false (isMul_powerForm (n := n) hbase)
  have hpower : Pieces env (powerForm b n) := by
    rw [Pieces, hfactors]
    exact List.forall_mem_singleton.2 (.power b n hb hbase hn)
  have hgeneral := assemble_eq hA
    (List.forall_mem_cons.2 ⟨pieces_rat env q, List.forall_mem_singleton.2 hpower⟩)
  have hopened : [Expr.rat q, powerForm b n].flatMap factors = [.rat q, powerForm b n] := by
    rw [List.flatMap_cons, List.flatMap_cons, hfactors]
    rfl
  have hnumber : numberIn [.rat q, powerForm b n] = q := by
    rw [numberIn_cons_rat, numberIn_cons_power hbase]
    exact mul_one q
  have hpowers : powersIn [.rat q, powerForm b n] = [(b, n)] := by
    rw [powersIn_cons_rat, powersIn_cons_power hbase]
    rfl
  rw [hopened, hnumber, hpowers, written_single hn] at hgeneral
  have hne : (powerForm b n == one) = false := by
    rw [beq_eq_false_iff_ne]
    intro heq
    have hnum := isNumber_powerForm (n := n) hbase
    rw [heq] at hnum
    cases hnum
  have htimes : timesSum A q (powerForm b n) = none := by
    have hm := isMul_powerForm (n := n) hbase
    unfold timesSum
    split
    · rename_i heq
      rw [heq] at ha
      cases ha
    · rename_i heq
      rw [heq] at hm
      cases hm
    · rfl
  by_cases h1 : q = 1
  · have hunknown : ∀ f ∈ [powerForm b n], Unknown f :=
      List.forall_mem_singleton.2 ⟨isNumber_powerForm hbase, facts_powerForm hb hbase⟩
    rw [h1, product, List.filter_cons_of_neg (by decide),
      List.filter_cons_of_pos (by rw [hne]; rfl), closeProduct_rat one_ne_zero hunknown,
      if_pos rfl, sortArgs, List.mergeSort_singleton]
    rfl
  · have hone : (Expr.rat q == one) = false :=
      beq_eq_false_iff_ne.2 fun heq => h1 (Expr.rat.inj heq)
    rw [product, List.filter_cons_of_pos (by rw [hone]; rfl),
      List.filter_cons_of_pos (by rw [hne]; rfl)]
    show (if q = 0 then _ else (timesSum A q (powerForm b n)).getD _) = _
    rw [htimes]
    exact (ite_self _).trans hgeneral

/-- A number in front of a power stays there. -/
theorem product_coeff (hA : A.Exact env) (h0 : q ≠ 0) (h1 : q ≠ 1) (hb : Defined env b)
    (hbase : b.isBase = true) (hn : n ≠ 0) (ha : (powerForm b n).isAdd = false) :
    product A [.rat q, powerForm b n] = rawMul [.rat q, powerForm b n] := by
  have hunknown : ∀ f ∈ [powerForm b n], Unknown f :=
    List.forall_mem_singleton.2 ⟨isNumber_powerForm hbase, facts_powerForm hb hbase⟩
  rw [product_rat_power hA hb hbase hn ha, closeProduct_rat h0 hunknown, if_neg h1, sortArgs,
    List.mergeSort_singleton]
  split
  · rename_i heq
    rw [List.singleton_inj] at heq
    rw [heq] at ha
    cases ha
  · rfl

end Canonical

end ErrorBars
