import ErrorBars.Expr.Canonical.Product
import ErrorBars.Proofs.Names.Sum

/-!
# Products are over the variables of their factors

As for sums there is an invariant of what is gathered on the way (`ProductParts.Over`).  The powers
go through two more stages, where they are merged by base (`Gathered`) and evaluated
(`Evaluation`).  Roots of numbers hold no variables at all.
-/

set_option autoImplicit false

namespace ErrorBars.Canonical

open Expr (Over OverAll PairsOver)

variable {S : String → Prop} {A : Arith}

@[grind ←] theorem over_mulCoeff {c n : Expr} (hA : A.Preserves S) (hc : Over S c)
    (hn : Over S n) : Over S (mulCoeff A c n) :=
  Expr.over_getD (fun _ h => over_boundsProduct? hA hc hn h) (Expr.over_mulNumbers _ _)

/-! ## Taking in factors -/

/-- What has been gathered is over these variables. -/
@[grind =] def ProductParts.Over (S : String → Prop) (p : ProductParts) : Prop :=
  Expr.Over S p.coeff ∧ PairsOver S p.powers ∧ PairsOver S p.numeric

@[grind ←] theorem over_mulNumber {p : ProductParts} {n : Expr} (hA : A.Preserves S)
    (hp : p.Over S) (hn : Over S n) : (p.mulNumber A n).Over S := by
  unfold ProductParts.mulNumber
  split <;> grind

@[grind ←] theorem over_mulInfinity {p : ProductParts} (hp : p.Over S) :
    p.mulInfinity.Over S := by
  unfold ProductParts.mulInfinity
  split <;> grind

@[grind ←] theorem over_addPower {p : ProductParts} {b e : Expr} (hp : p.Over S)
    (hb : Over S b) (he : Over S e) : (p.addPower b e).Over S :=
  ⟨hp.1, Expr.pairsOver_cons.2 ⟨⟨hb, he⟩, hp.2.1⟩, hp.2.2⟩

/-- Taking in a factor keeps the invariant, however deeply products are opened. -/
@[grind ←] theorem over_productTake {fuel : Nat} {p : ProductParts} {e : Expr}
    (hA : A.Preserves S) (hp : p.Over S) (he : Over S e) : (p.take A fuel e).Over S := by
  induction fuel generalizing p e with
  | zero => exact over_addPower hp he Expr.over_one
  | succ fuel ih =>
    unfold ProductParts.take
    split
    · exact over_mulNumber hA hp he
    · split
      · exact over_mulInfinity hp
      · exact ⟨Expr.over_getD (fun v hv => over_boundsProduct? hA he hp.1 hv) he, hp.2⟩
      · exact hp
      · exact List.foldlRecOn _ _ hp fun q hq x hx => ih hq (Expr.over_app.1 he x hx)
      · rename_i b x _
        obtain ⟨hb, hx⟩ := Expr.over_baseExp he
        generalize (Expr.app .pow [b, x]).baseExp = r at hb hx
        obtain ⟨b, x⟩ := r
        simp only
        split
        · split
          · split
            · exact over_addPower hp hb hx
            · exact ih hp (hA.power hb hx)
          · grind
        · split
          · exact ⟨hp.1, hp.2.1, Expr.pairsOver_cons.2 ⟨⟨hb, hx⟩, hp.2.2⟩⟩
          · exact over_addPower hp hb hx
      · have hparts := Expr.over_baseExp he
        exact over_addPower hp hparts.1 hparts.2

/-! ## Merging powers -/

/-- Exponents with the numbers in front of them. -/
def ExponentsOver (S : String → Prop) (es : List (Expr × List Expr)) : Prop :=
  ∀ p ∈ es, Over S p.1 ∧ OverAll S p.2

/-- Powers that have been put together by base. -/
def GatheredOver (S : String → Prop) (g : Gathered) : Prop :=
  ∀ p ∈ g, Over S p.1 ∧ ExponentsOver S p.2

theorem over_gatherExponent {n t : Expr} {es : List (Expr × List Expr)} (hn : Over S n)
    (ht : Over S t) (hes : ExponentsOver S es) : ExponentsOver S (gatherExponent n t es) := by
  induction es with
  | nil => simpa [gatherExponent, ExponentsOver] using ⟨ht, hn⟩
  | cons p rest ih =>
    obtain ⟨hp, hrest⟩ := List.forall_mem_cons.1 hes
    rw [gatherExponent]
    split
    · refine List.forall_mem_cons.2 ⟨⟨hp.1, ?_⟩, hrest⟩
      simpa [or_imp, forall_and, hn] using hp.2
    · exact List.forall_mem_cons.2 ⟨hp, ih hrest⟩

theorem over_gatherPower {b n t : Expr} {g : Gathered} (hb : Over S b) (hn : Over S n)
    (ht : Over S t) (hg : GatheredOver S g) : GatheredOver S (gatherPower b n t g) := by
  induction g with
  | nil => simpa [gatherPower, GatheredOver, ExponentsOver] using ⟨hb, ht, hn⟩
  | cons p rest ih =>
    obtain ⟨hp, hrest⟩ := List.forall_mem_cons.1 hg
    rw [gatherPower]
    split
    · exact List.forall_mem_cons.2 ⟨⟨hp.1, over_gatherExponent hn ht hp.2⟩, hrest⟩
    · exact List.forall_mem_cons.2 ⟨hp, ih hrest⟩

theorem over_gather {powers : List (Expr × Expr)} (hA : A.Preserves S)
    (h : PairsOver S powers) : PairsOver S (gather A powers) := by
  unfold gather
  intro q hq
  obtain ⟨⟨b, es⟩, hb, hq⟩ := List.mem_flatMap.1 hq
  obtain ⟨⟨t, ns⟩, ht, rfl⟩ := List.mem_map.1 hq
  have hgathered : GatheredOver S (powers.foldl (fun g p =>
      gatherPower p.1 p.2.coeffMul.1 p.2.coeffMul.2 g) []) := by
    refine List.foldlRecOn _ _ (fun _ h => absurd h (by simp)) fun g hg p hp => ?_
    have hparts := Expr.over_coeffMul (h p hp).2
    exact over_gatherPower (h p hp).1 hparts.1 hparts.2 hg
  obtain ⟨hbase, hes⟩ := hgathered _ hb
  obtain ⟨hexponent, hns⟩ := hes _ ht
  exact ⟨hbase, Arith.over_mul hA (hA.sum hns) hexponent⟩

/-- What an evaluated power holds is over these variables. -/
@[grind =] def Evaluation.Over (S : String → Prop) : Evaluation → Prop
  | .gone => True
  | .undefined => True
  | .number n => Expr.Over S n
  | .factor e b x => Expr.Over S e ∧ Expr.Over S b ∧ Expr.Over S x

theorem over_evaluatePower {p : Expr × Expr} (hA : A.Preserves S)
    (hp : Over S p.1 ∧ Over S p.2) : (evaluatePower A p).Over S := by
  unfold evaluatePower
  grind

theorem over_evaluatePowers {rounds : Nat} {powers : List (Expr × Expr)} (hA : A.Preserves S)
    (h : PairsOver S powers) : ∀ v ∈ evaluatePowers A rounds powers, v.Over S := by
  induction rounds generalizing powers with
  | zero =>
    intro v hv
    obtain ⟨p, hp, rfl⟩ := List.mem_map.1 hv
    exact over_evaluatePower hA (h p hp)
  | succ rounds ih =>
    have hevaluated : ∀ v ∈ powers.map (evaluatePower A), v.Over S := by
      intro v hv
      obtain ⟨p, hp, rfl⟩ := List.mem_map.1 hv
      exact over_evaluatePower hA (h p hp)
    rw [evaluatePowers]
    simp only
    generalize powers.map (evaluatePower A) = evaluated at hevaluated
    split
    · intro v hv
      rcases List.mem_append.1 hv with hv | hv
      · exact hevaluated v (List.mem_filter.1 hv).1
      · refine ih (over_gather hA fun q hq => ?_) v hv
        obtain ⟨w, hw, hq⟩ := List.mem_filterMap.1 hq
        have := hevaluated w hw
        grind
    · exact hevaluated

/-! ## Roots of numbers and powers of minus one -/

theorem exponentsOver_gatherExponents {es : List Expr} (hes : OverAll S es) :
    ExponentsOver S (es.foldl (fun (acc : List (Expr × List Expr)) e =>
      match e with
      | .app .pow [b, x] => gatherExponent b x acc
      | _ => acc) []) := by
  refine List.foldlRecOn _ _ (fun _ h => absurd h (by simp)) fun acc hacc e he => ?_
  have he := hes e he
  split
  · rename_i b x _
    obtain ⟨hb, hx⟩ : Over S b ∧ Over S x := by simpa using he
    exact over_gatherExponent hb hx hacc
  · exact hacc

theorem over_mergeRoots (hA : A.Preserves S) (roots : List Root) :
    Over S (mergeRoots A roots).1 ∧ OverAll S (mergeRoots A roots).2.1 ∧
      PairsOver S (mergeRoots A roots).2.2 := by
  have hleft : ∀ left : List Root,
      OverAll S (left.flatMap fun p => (A.power (.rat p.1) (.rat p.2)).factors) := fun left =>
    Expr.overAll_flatMap fun p _ =>
      Expr.overAll_factors (hA.power (Expr.over_rat _) (Expr.over_rat _))
  unfold mergeRoots
  extract_lets byBase byExponent split number
  generalize shareRoots 200 _ = shared
  obtain ⟨shared, left⟩ := shared
  simp only
  have hrest := Expr.overAll_filter (p := fun e => !e.isNumber) (hleft left)
  refine ⟨?_, Expr.overAll_filter hrest, ?_⟩
  · refine Expr.over_foldl (Expr.over_rat _) fun acc hacc e _ => ?_
    split
    · exact Expr.over_mulNumbers _ _
    · exact hacc
  · have hpowers := exponentsOver_gatherExponents hrest
    exact Expr.pairsOver_map fun p hp => ⟨hA.product (hpowers p hp).2, (hpowers p hp).1⟩

theorem over_mergeMinusOne {n : Rat} {powers : List (Expr × Expr)} (h : PairsOver S powers) :
    OverAll S (mergeMinusOne n powers).2.1 ∧ PairsOver S (mergeMinusOne n powers).2.2 := by
  unfold mergeMinusOne
  simp only
  split
  · exact ⟨by simp, h⟩
  · split
    · exact ⟨by simp, h⟩
    · split
      · refine ⟨by simp, fun q hq => ?_⟩
        obtain ⟨p, hp, rfl⟩ := List.mem_map.1 hq
        split
        · exact ⟨Expr.over_negNumber (h p hp).1, (h p hp).2⟩
        · exact h p hp
      · exact ⟨by simp, h⟩

/-! ## The product -/

@[grind ←] theorem over_finishProduct {coeff : Expr} {factors : List Expr} (hA : A.Preserves S)
    (hcoeff : Over S coeff) (h : OverAll S factors) :
    Over S (finishProduct A coeff factors) := by
  have hnumber : Over S (factors.foldl
      (fun acc e => if e.isNumber then mulCoeff A acc e else acc) coeff) := by
    refine List.foldlRecOn _ _ hcoeff fun acc hacc e he => ?_
    split
    · exact over_mulCoeff hA hacc (h e he)
    · exact hacc
  have hothers : OverAll S (Expr.sortArgs (factors.filter fun e => !e.isNumber)) :=
    Expr.overAll_sortArgs (Expr.overAll_filter h)
  unfold finishProduct
  simp only
  generalize factors.foldl (fun acc e => if e.isNumber then mulCoeff A acc e else acc) coeff = c
    at hnumber
  generalize Expr.sortArgs (factors.filter fun e => !e.isNumber) = others at hothers
  split
  · exact Expr.over_undefined
  · split
    · exact Expr.over_productOf hothers
    · split
      · rename_i ts
        have hts : OverAll S ts := Expr.over_app.1 (hothers _ (List.mem_singleton_self _))
        split
        · exact Expr.over_rawMul.2 (by simpa using ⟨hnumber, hts⟩)
        · refine hA.sum fun e he => ?_
          obtain ⟨t, ht, rfl⟩ := List.mem_map.1 he
          exact Arith.over_mul hA hnumber (hts t ht)
      · exact Expr.over_productOf (List.forall_mem_cons.2 ⟨hnumber, hothers⟩)

@[grind ←] theorem over_closeProduct {coeff : Expr} {factors : List Expr} (hA : A.Preserves S)
    (hcoeff : Over S coeff) (h : OverAll S factors) :
    Over S (closeProduct A coeff factors) := by
  have hfilter := fun p => Expr.overAll_filter (p := p) h
  unfold closeProduct
  split
  · simp only
    refine over_finishProduct hA ?_ (hfilter _)
    split
    · exact Expr.over_negNumber hcoeff
    · exact hcoeff
  · split
    · exact Expr.over_productOf (Expr.overAll_cons.2 ⟨hcoeff, Expr.overAll_sortArgs (hfilter _)⟩)
    · split
      · split
        · exact Expr.over_undefined
        · exact hcoeff
      · exact over_finishProduct hA hcoeff h

@[grind ←] theorem over_assemble {p : ProductParts} (hA : A.Preserves S) (hp : p.Over S) :
    Over S (assemble A p) := by
  have hevaluated : ∀ v ∈ evaluatePowers A 1 (gather A p.powers.reverse), v.Over S :=
    over_evaluatePowers hA (over_gather hA (Expr.pairsOver_reverse hp.2.1))
  have hnumeric := over_gather hA (Expr.pairsOver_reverse hp.2.2)
  obtain ⟨hroot, hothers, hpowers⟩ := over_mergeRoots hA p.roots
  obtain ⟨hunits, hrootPowers⟩ := over_mergeMinusOne (n := p.minusOne) hpowers
  unfold assemble
  split
  · exact Expr.over_undefined
  · simp only
    generalize evaluatePowers A 1 _ = evaluated at hevaluated
    generalize gather A p.numeric.reverse = numeric at hnumeric
    generalize mergeRoots A p.roots = roots at hroot hothers hpowers hunits hrootPowers
    generalize mergeMinusOne p.minusOne roots.2.2 = units at hunits hrootPowers
    split
    · exact Expr.over_undefined
    · have hnumericFactors : ExponentsOver S (numeric.foldl
          (fun (acc : List (Expr × List Expr)) q => gatherExponent q.1 q.2 acc) []) :=
        List.foldlRecOn _ _ (fun _ h => absurd h (by simp)) fun acc hacc q hq =>
          over_gatherExponent (hnumeric q hq).1 (hnumeric q hq).2 hacc
      refine over_closeProduct hA ?_ ?_
      · grind
      · simp only [Expr.overAll_append]
        refine ⟨⟨⟨⟨Expr.overAll_flatMap fun v hv => ?_, Expr.overAll_filterMap fun q hq e he => ?_⟩,
          hothers⟩, hunits⟩, Expr.overAll_flatMap fun q hq => ?_⟩
        · have hv := hevaluated v hv
          cases v <;> grind
        · have hq := hnumericFactors q hq
          grind
        · exact Expr.overAll_factors (hA.power (hrootPowers q hq).1 (hrootPowers q hq).2)

@[grind →] theorem over_timesSum {q : Rat} {e v : Expr} (h : timesSum A q e = some v)
    (hA : A.Preserves S) (he : Over S e) : Over S v := by
  unfold timesSum at h
  split at h
  · rename_i ts
    rw [← Option.some.inj h]
    refine hA.sum fun t ht => ?_
    obtain ⟨u, hu, rfl⟩ := List.mem_map.1 ht
    exact Arith.over_keepCoeff hA (Expr.over_rat q) (Expr.over_app.1 he u hu)
  · grind
  · simp at h

/-- **A canonical product is over the variables of its factors.** -/
@[grind ←] theorem over_product {es : List Expr} (hA : A.Preserves S) (h : OverAll S es) :
    Over S (product A es) := by
  have hgeneral : ∀ fs : List Expr, OverAll S fs →
      Over S (assemble A (fs.foldl (ProductParts.take A productDepth) ProductParts.empty)) := by
    intro fs hfs
    refine over_assemble hA (List.foldlRecOn _ _ ?_ fun p hp f hf =>
      over_productTake hA hp (hfs f hf))
    exact ⟨Expr.over_one, Expr.pairsOver_nil, Expr.pairsOver_nil⟩
  have hfilter : OverAll S (es.filter fun e => !(e == Expr.one)) := Expr.overAll_filter h
  unfold product
  generalize es.filter (fun e => !(e == Expr.one)) = fs at hfilter
  simp only
  split
  · exact Expr.over_one
  · exact hfilter _ (List.mem_singleton_self _)
  · split
    · exact hgeneral _ hfilter
    · exact Expr.over_getD (fun v hv => over_timesSum hv hA (hfilter _ (by simp)))
        (hgeneral _ hfilter)
  · split
    · exact hgeneral _ hfilter
    · exact Expr.over_getD (fun v hv => over_timesSum hv hA (hfilter _ (by simp)))
        (hgeneral _ hfilter)
  · exact Expr.over_getD (fun v hv => over_boundsProduct? hA (hfilter _ (by simp))
      (hfilter _ (by simp)) hv) (hgeneral _ hfilter)
  · exact hgeneral _ hfilter

end ErrorBars.Canonical
