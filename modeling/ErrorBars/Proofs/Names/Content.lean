import ErrorBars.Expr.Simplify.CommonFactor
import ErrorBars.Proofs.Names.Derivative

/-!
# Contents and common factors are over the same variables

Terms taken apart into numbers and powers (`TermParts.Over`), and what they have in common.
-/

set_option autoImplicit false

namespace ErrorBars.Expr

variable {S : String → Prop} {e : Expr}

/-! ## Content -/

@[grind ←] theorem over_naturalPow {b x : Expr} (hb : Over S b) (hx : Over S x) :
    Over S (naturalPow b x) := by
  unfold naturalPow
  grind

@[grind ←] theorem over_decomposePower (he : Over S e) : Over S e.decomposePower.1 := by
  unfold decomposePower
  have hparts := over_baseExp he
  grind

@[grind ←] theorem over_scale {clear sign : Bool} {c : Expr} (hc : Over S c) (he : Over S e) :
    Over S (scale clear sign c e) := by
  have hpairs : ∀ ts, OverAll S ts →
      PairsOver S (ts.map fun t => (mulNumbers t.coeffMul.1 c, t.coeffMul.2)) := fun ts hts =>
    pairsOver_map fun t ht => ⟨over_mulNumbers _ _, (over_coeffMul (hts t ht)).2⟩
  unfold scale
  split
  · exact hc
  · split
    · exact he
    · split
      · exact over_neg he
      · split
        · have hpairs := hpairs _ (over_app.1 he)
          extract_lets pairs fraction
          cases !clear && fraction && pairs.any fun p => p.1.isInteger
          · exact over_rawMul_pair.2 ⟨hc, he⟩
          · refine over_rawAdd.2 (overAll_map fun p hp => ?_)
            have := hpairs p hp
            grind
        · exact over_keepCoeff hc he

theorem over_rationalTerms {ts : List Expr} (h : OverAll S ts) :
    SecondsOver S (rationalTerms ts) := by
  refine secondsOver_map fun t ht => ?_
  have ht := h t ht
  grind

@[grind ←] theorem overAll_sortTerms {ts : List Expr} (h : OverAll S ts) :
    OverAll S (sortTerms ts) := by
  unfold sortTerms
  grind

@[grind ←] theorem over_primitive (he : Over S e) : Over S (primitive e).2 := by
  unfold primitive
  split
  · have hterms := over_rationalTerms (over_app.1 he)
    simp only
    split
    · exact he
    · exact over_rawAdd.2 (overAll_sortTerms (overAll_map fun p hp =>
        over_keepCoeff (over_rat _) (hterms p hp)))
  · grind

theorem over_powerContent {b pe : Expr} {ce : Rat} {factorOut : Expr → Rat × Expr}
    (hb : Over S b) (hpe : Over S pe) (hout : ∀ e, Over S e → Over S (factorOut e).2) :
    Over S (powerContent b ce pe factorOut).2 := by
  have hexponent : Over S (keepCoeff (.rat ce) pe) := over_keepCoeff (over_rat ce) hpe
  have hpower : Over S (power b (keepCoeff (.rat ce) pe)) := over_power hb hexponent
  have hout := hout b hb
  unfold powerContent
  extract_lets e general
  have hexponent : Over S e := hexponent
  have hpower : Over S (power b e) := hpower
  have hgeneral : Over S (general ()).2 := by
    simp only [general]
    clear_value e
    split
    · rename_i q fs _
      have hroot := over_coeffMul
        (over_power (over_rat (factorOut (.app .mul fs)).1) (over_rat q) (S := S))
      split
      · rename_i c m hsplit
        rw [hsplit] at hroot
        have hbase := over_baseExp hroot.2
        split
        · exact over_power (over_keepCoeff hbase.1 hout) hexponent
        · grind
      · grind
    · exact hpower
  have hsum := over_coeffAdd hpe
  split
  · split
    · rename_i h t hsplit
      rw [hsplit] at hsum
      split
      · exact hgeneral
      · simp only
        split
        · grind
        · split
          · grind
          · exact hgeneral
    · exact hgeneral
  · exact hgeneral

mutual

theorem over_contentPrimitive {clear : Bool} :
    ∀ {e : Expr}, Over S e → Over S (contentPrimitive clear e).2
  | .rat _, _ => by
    unfold contentPrimitive
    grind
  | .app h as, he => by
    have hparts : SecondsOver S (contentPrimitives clear as) :=
      over_contentPrimitives (over_app.1 he)
    unfold contentPrimitive
    split
    · rename_i happ
      cases happ
    · rename_i ts happ
      obtain ⟨rfl, rfl⟩ := Expr.app.inj happ
      simp only
      have hsum : Over S (sum ((contentPrimitives clear as).map
          fun p => keepCoeff (.rat p.1) p.2)) :=
        over_sum (overAll_map fun p hp => over_keepCoeff (over_rat _) (hparts p hp))
      have hprimitive := over_primitive hsum
      generalize primitive _ = r at hprimitive
      have hwhole : Over S (sum (r.2.terms.map fun t => .rat (1 / r.1.den) * t)) :=
        over_sum (overAll_map fun t ht =>
          over_mul (over_rat _) (overAll_terms hprimitive t ht))
      grind
    · rename_i fs happ
      obtain ⟨rfl, rfl⟩ := Expr.app.inj happ
      exact over_product (overAll_filter (overAll_map hparts))
    · rename_i b x happ
      obtain ⟨rfl, rfl⟩ := Expr.app.inj happ
      simp only [contentPrimitives, secondsOver_cons] at hparts
      refine over_powerContent (over_keepCoeff (over_rat _) hparts.1) hparts.2.1 fun b hb => ?_
      have := over_ratCoeffMul hb
      grind
    · exact he
  | .float _ _, he | .const _, he | .symbol _, he | .dummy _, he => he

theorem over_contentPrimitives {clear : Bool} :
    ∀ {es : List Expr}, OverAll S es → SecondsOver S (contentPrimitives clear es)
  | [], _ => secondsOver_nil
  | e :: es, hes => by
    have he := overAll_cons.1 hes
    exact secondsOver_cons.2 ⟨over_contentPrimitive he.1, over_contentPrimitives he.2⟩

end

/-! ## Common factors -/

namespace Powers

theorem over_mulPower {ps : Powers} {b : Expr} {n : Nat} (hps : FirstsOver S ps)
    (hb : Over S b) : FirstsOver S (ps.mulPower b n) := by
  unfold mulPower
  split
  · exact hps
  · split
    · refine firstsOver_map fun p hp => ?_
      split <;> exact hps p hp
    · exact firstsOver_append.2 ⟨hps, firstsOver_cons.2 ⟨hb, firstsOver_nil⟩⟩

theorem over_mul {ps qs : Powers} (hps : FirstsOver S ps) (hqs : FirstsOver S qs) :
    FirstsOver S (ps.mul qs) :=
  List.foldlRecOn _ _ hps fun _ hacc q hq => over_mulPower hacc (hqs q hq)

theorem over_without {ps qs : Powers} (hps : FirstsOver S ps) : FirstsOver S (ps.without qs) := by
  refine firstsOver_filterMap fun p hp q hq => ?_
  have := hps p hp
  grind

theorem over_gcd {ps qs : Powers} (hps : FirstsOver S ps) : FirstsOver S (ps.gcd qs) := by
  refine firstsOver_filterMap fun p hp q hq => ?_
  have := hps p hp
  grind

theorem over_lcm {ps qs : Powers} (hps : FirstsOver S ps) (hqs : FirstsOver S qs) :
    FirstsOver S (ps.lcm qs) := over_mul hps (over_without hqs)

@[grind ←] theorem over_toExpr {ps : Powers} (hps : FirstsOver S ps) : Over S ps.toExpr := by
  refine over_product (overAll_map fun p hp => ?_)
  have := over_baseExp (hps p hp)
  grind

end Powers

/-- All parts of a term are over these variables. -/
structure TermParts.Over (S : String → Prop) (t : TermParts) : Prop where
  /-- the number -/
  coeff : Expr.Over S t.coeff
  /-- the powers above the line -/
  above : FirstsOver S t.above
  /-- the powers below the line -/
  below : FirstsOver S t.below

namespace TermParts

theorem over_take {t : TermParts} {f : Expr} (ht : t.Over S) (hf : Expr.Over S f) :
    (t.take f).Over S := by
  have hb := over_decomposePower hf
  unfold take
  simp only
  have hbase : Expr.Over S (if f.decomposePower.1.isAdd then primitive f.decomposePower.1
      else (1, f.decomposePower.1)).2 := by grind
  generalize (if f.decomposePower.1.isAdd then primitive f.decomposePower.1
      else (1, f.decomposePower.1)) = r at hbase
  have hcoeff : Expr.Over S (if r.1 = 1 then t.coeff
      else mulNumbers t.coeff (power (.rat r.1) (int f.decomposePower.2))) := by
    split
    · exact ht.coeff
    · exact over_mulNumbers _ _
  split
  · split
    · exact ht
    · exact ⟨over_negNumber ht.coeff, ht.above, ht.below⟩
  · split
    · exact ⟨hcoeff, Powers.over_mulPower ht.above hbase, ht.below⟩
    · exact ⟨hcoeff, ht.above, Powers.over_mulPower ht.below hbase⟩

theorem over_ofExpr (he : Expr.Over S e) : (ofExpr e).Over S := by
  have hrest := over_coeffMul he
  unfold ofExpr
  split
  · exact ⟨over_one, firstsOver_cons.2 ⟨he, firstsOver_nil⟩, firstsOver_nil⟩
  · simp only
    split
    · exact ⟨hrest.1, firstsOver_nil, firstsOver_nil⟩
    · exact List.foldlRecOn _ _ ⟨hrest.1, firstsOver_nil, firstsOver_nil⟩
        fun t ht f hf => over_take ht (overAll_factors hrest.2 f hf)

@[simp, grind ←] theorem over_gcdCoeff (a b : Expr) : Expr.Over S (gcdCoeff a b) := by
  unfold gcdCoeff
  split <;> grind

theorem over_gcd {s t : TermParts} (hs : s.Over S) : (s.gcd t).Over S :=
  ⟨over_gcdCoeff _ _, Powers.over_gcd hs.above, Powers.over_gcd hs.below⟩

theorem over_quo {s t : TermParts} (hs : s.Over S) (ht : t.Over S) : (s.quo t).Over S :=
  ⟨over_divNumbers _ _, Powers.over_without (Powers.over_mul hs.above ht.below),
    Powers.over_without (Powers.over_mul hs.below ht.above)⟩

@[grind ←] theorem over_toExpr {t : TermParts} (ht : t.Over S) : Expr.Over S t.toExpr :=
  over_mul ht.coeff (over_div (Powers.over_toExpr ht.above) (Powers.over_toExpr ht.below))

end TermParts

theorem over_gcdOfTerms {isPrimitive fraction : Bool} {ts : List Expr} (hts : OverAll S ts) :
    Over S (gcdOfTerms isPrimitive fraction ts).1 ∧
      Over S (gcdOfTerms isPrimitive fraction ts).2.1 ∧
        Over S (gcdOfTerms isPrimitive fraction ts).2.2 := by
  have hparts : ∀ t ∈ (ts.filter fun t => !t.isZero).map TermParts.ofExpr, t.Over S :=
    List.forall_mem_map.2 fun t ht => TermParts.over_ofExpr (overAll_filter hts t ht)
  unfold gcdOfTerms
  split
  · grind
  · rename_i t hone
    have ht : t.Over S := hparts t (by simp [hone])
    exact ⟨ht.coeff, Powers.over_toExpr ht.above, Powers.over_toExpr ht.below⟩
  · rename_i t rest _ hsome
    rw [hsome] at hparts
    have hcommon : (rest.foldl TermParts.gcd t).Over S :=
      List.foldlRecOn _ _ (hparts t List.mem_cons_self) fun s hs _ _ => TermParts.over_gcd hs
    have hleft : ∀ s ∈ (t :: rest).map fun s => s.quo (rest.foldl TermParts.gcd t), s.Over S :=
      List.forall_mem_map.2 fun s hs => TermParts.over_quo (hparts s hs) hcommon
    simp only
    generalize rest.foldl TermParts.gcd t = common at hcommon hleft
    generalize (t :: rest).map (fun s => s.quo common) = left at hleft
    have hbelow : FirstsOver S (left.foldl (fun acc s => Powers.lcm acc s.below) []) :=
      List.foldlRecOn _ _ firstsOver_nil fun acc hacc s hs =>
        Powers.over_lcm hacc (hleft s hs).below
    generalize left.foldl (fun acc s => Powers.lcm acc s.below) [] = below at hbelow
    have hnumers : OverAll S (if fraction then
        (left.map fun s => s.coeff * (s.above.mul (below.without s.below)).toExpr, below.toExpr)
        else (left.map TermParts.toExpr, one)).1 := by
      split
      · exact overAll_map fun s hs => over_mul (hleft s hs).coeff
          (Powers.over_toExpr (Powers.over_mul (hleft s hs).above (Powers.over_without hbelow)))
      · exact overAll_map fun s hs => TermParts.over_toExpr (hleft s hs)
    have hdenom : Over S (if fraction then
        (left.map fun s => s.coeff * (s.above.mul (below.without s.below)).toExpr, below.toExpr)
        else (left.map TermParts.toExpr, one)).2 := by
      split
      · exact Powers.over_toExpr hbelow
      · exact over_one
    generalize (if fraction then
      (left.map fun s => s.coeff * (s.above.mul (below.without s.below)).toExpr, below.toExpr)
      else (left.map TermParts.toExpr, one)) = r at hnumers hdenom
    have hsum : Over S (sum r.1) := over_sum hnumers
    have hcont := TermParts.over_toExpr hcommon
    split
    · exact ⟨over_mul (over_rat _) hcont, over_primitive hsum, hdenom⟩
    · exact ⟨hcont, hsum, hdenom⟩

@[grind ←] theorem over_gcdTerms {isPrimitive clear fraction : Bool} {ts : List Expr}
    (hts : OverAll S ts) : Over S (gcdTerms isPrimitive clear fraction ts) := by
  have hparts := @over_gcdOfTerms S isPrimitive fraction ts hts
  unfold gcdTerms
  generalize gcdOfTerms isPrimitive fraction ts = r at hparts
  obtain ⟨hcont, hnumer, hdenom⟩ := hparts
  have hcont := over_coeffMul hcont
  simp only
  split
  · rename_i q _
    have hwhole : Over S (sum (r.2.1.terms.map fun t => .rat (1 / q.den) * t)) :=
      over_sum (overAll_map fun t ht => over_mul (over_rat _) (overAll_terms hnumer t ht))
    split
    · split
      · exact over_scale (over_int _) (over_div (over_mul hcont.2 hwhole) hdenom)
      · exact over_scale hcont.1 (over_div (over_mul hcont.2 hnumer) hdenom)
    · exact over_scale hcont.1 (over_div (over_mul hcont.2 hnumer) hdenom)
  · exact over_scale hcont.1 (over_div (over_mul hcont.2 hnumer) hdenom)

/-- A content in front of what it is the content of, whose parts are rewritten. -/
theorem over_spreadContent {clear fraction sign : Bool} {cont : Rat} {p : Expr} {go : Expr → Expr}
    (hgo : ∀ {as : List Expr}, OverAll S as → OverAll S (as.map go)) :
    Over S p → Over S (match p with
      | .app .add ts =>
        let parts := ts.map go
        let flip := parts.all hasNegativeCoeff
        let cont := if flip then -cont else cont
        let parts := if flip then parts.map fun t => -t else parts
        scale clear sign (.rat cont) (gcdTerms true clear fraction parts)
      | .app h as => scale clear sign (.rat cont) (rebuild h (as.map go))
      | p => scale clear sign (.rat cont) p) := by
  intro hp
  split
  · have hts := hgo (over_app.1 hp)
    refine over_scale (over_rat _) (over_gcdTerms ?_)
    split
    · exact overAll_map fun t ht => over_neg (hts t ht)
    · exact hts
  · exact over_scale (over_rat _) (over_rebuild (hgo (over_app.1 hp)))
  · exact over_scale (over_rat _) hp

theorem over_factorTermsTo {clear fraction sign : Bool} :
    ∀ {fuel : Nat} {e : Expr}, Over S e → Over S (factorTermsTo clear fraction sign fuel e)
  | 0, e, he => by
    unfold factorTermsTo
    exact he
  | fuel + 1, e, he => by
    have ih : ∀ {as : List Expr}, OverAll S as →
        OverAll S (as.map (factorTermsTo clear fraction sign fuel)) := fun has =>
      overAll_map fun a ha => over_factorTermsTo (has a ha)
    unfold factorTermsTo
    split
    · exact over_spreadContent ih (over_contentPrimitive he)
    · exact over_spreadContent ih (over_contentPrimitive he)
    · simp only
      split
      · exact he
      · exact over_rebuild (ih (over_app.1 he))
    · exact he

@[grind ←] theorem over_factorTerms {sign : Bool} (he : Over S e) :
    Over S (factorTerms sign e) := over_factorTermsTo he

end ErrorBars.Expr
