import ErrorBars.Expr.Derivative
import ErrorBars.Proofs.Names.Function

/-!
# The operations on expressions and the derivative

The operations that are used on expressions everywhere are those of the standard constructors, so
they keep to the variables.  The derivative by a variable is over the variables of what is
differentiated: the variable itself is named in the result only where it occurs.
-/

set_option autoImplicit false

namespace ErrorBars.Expr

variable {S : String → Prop} {a b e x : Expr}

/-! ## Operations -/

@[grind ←] theorem over_sum {es : List Expr} (h : OverAll S es) : Over S (sum es) :=
  Arith.preserves_standard.sum h

@[grind ←] theorem over_product {es : List Expr} (h : OverAll S es) : Over S (product es) :=
  Arith.preserves_standard.product h

@[grind ←] theorem over_power (ha : Over S a) (hb : Over S b) : Over S (power a b) :=
  Arith.preserves_standard.power ha hb

@[grind ←] theorem over_apply {f : Func} {es : List Expr} (h : OverAll S es) :
    Over S (apply f es) := Arith.preserves_standard.apply h

@[grind ←] theorem over_apply_single {f : Func} (ha : Over S a) : Over S (apply f [a]) :=
  Arith.over_apply_single Arith.preserves_standard ha

@[grind ←] theorem over_apply_pair {f : Func} (ha : Over S a) (hb : Over S b) :
    Over S (apply f [a, b]) := Arith.over_apply_pair Arith.preserves_standard ha hb

@[grind ←] theorem over_add (ha : Over S a) (hb : Over S b) : Over S (a + b) :=
  Arith.over_add Arith.preserves_standard ha hb

@[grind ←] theorem over_mul (ha : Over S a) (hb : Over S b) : Over S (a * b) :=
  Arith.over_mul Arith.preserves_standard ha hb

@[grind ←] theorem over_sub (ha : Over S a) (hb : Over S b) : Over S (a - b) :=
  Arith.over_sub Arith.preserves_standard ha hb

@[grind ←] theorem over_neg (ha : Over S a) : Over S (-a) :=
  Arith.over_neg Arith.preserves_standard ha

@[grind ←] theorem over_div (ha : Over S a) (hb : Over S b) : Over S (a / b) :=
  Arith.over_div Arith.preserves_standard ha hb

@[grind ←] theorem over_inv (ha : Over S a) : Over S (inv a) :=
  Arith.over_inv Arith.preserves_standard ha

@[grind ←] theorem over_sqrt (ha : Over S a) : Over S (sqrt a) :=
  Arith.over_sqrt Arith.preserves_standard ha

@[grind ←] theorem over_keepCoeff (ha : Over S a) (hb : Over S b) : Over S (keepCoeff a b) :=
  Arith.over_keepCoeff Arith.preserves_standard ha hb

@[grind →] theorem over_applyChecked {f : Func} {es : List Expr} {v : Expr}
    (h : applyChecked f es = .ok v) (hes : OverAll S es) : Over S v := by
  unfold applyChecked at h
  grind

@[grind ←] theorem over_rebuild {h : Head} {es : List Expr} (hes : OverAll S es) :
    Over S (rebuild h es) := by
  unfold rebuild
  split <;> grind

mutual

/-- A change from the leaves up keeps to the variables if each single change does. -/
theorem over_bottomUp {f : Expr → Expr} (hf : ∀ e, Over S e → Over S (f e)) :
    ∀ {e : Expr}, Over S e → Over S (bottomUp f e)
  | .app h as, he => by
    have hall : OverAll S (bottomUpAll f as) := overAll_bottomUpAll hf (over_app.1 he)
    unfold bottomUp
    grind
  | .rat _, he | .float _ _, he | .const _, he | .symbol _, he | .dummy _, he => he

theorem overAll_bottomUpAll {f : Expr → Expr} (hf : ∀ e, Over S e → Over S (f e)) :
    ∀ {es : List Expr}, OverAll S es → OverAll S (bottomUpAll f es)
  | [], _ => overAll_nil
  | e :: es, hes => by
    have he := overAll_cons.1 hes
    exact overAll_cons.2 ⟨over_bottomUp hf he.1, overAll_bottomUpAll hf he.2⟩

end

/-! ## Where a variable occurs -/

mutual

/-- A variable that occurs satisfies what all variables satisfy. -/
theorem of_hasSymbol {v : String} : ∀ {e : Expr}, e.hasSymbol v = true → Over S e → S v
  | .symbol s, h, he => by
    have hs : s = v := by simpa [hasSymbol, any, BEq.beq, beq] using h
    exact hs ▸ over_symbol.1 he
  | .app hd as, h, he => by
    have has : anyOf (fun x => x == .symbol v) as = true := by
      simpa [hasSymbol, any, BEq.beq, beq] using h
    exact of_anyOf_symbol has (over_app.1 he)
  | .rat _, h, _ | .float _ _, h, _ | .const _, h, _ | .dummy _, h, _ => by
    simp [hasSymbol, any, BEq.beq, beq] at h

theorem of_anyOf_symbol {v : String} :
    ∀ {es : List Expr}, anyOf (fun x => x == .symbol v) es = true → OverAll S es → S v
  | [], h, _ => by simp [anyOf] at h
  | e :: es, h, hes => by
    have he := overAll_cons.1 hes
    rw [anyOf, Bool.or_eq_true] at h
    exact h.elim (fun h => of_hasSymbol h he.1) (fun h => of_anyOf_symbol h he.2)

end

/-! ## Derivatives of functions -/

@[grind ←] theorem over_square (he : Over S e) : Over S (square e) := over_power he (over_int 2)

theorem over_openDerivative {f : Func} {before after : List Expr} (hbefore : OverAll S before)
    (hx : Over S x) (hafter : OverAll S after) : Over S (openDerivative f before x after) := by
  have hdirect : OverAll S (before ++ x :: after) :=
    overAll_append.2 ⟨hbefore, overAll_cons.2 ⟨hx, hafter⟩⟩
  have hplace : ∀ s, OverAll S (before ++ Expr.dummy s :: after) := fun s =>
    overAll_append.2 ⟨hbefore, overAll_cons.2 ⟨over_dummy s, hafter⟩⟩
  unfold openDerivative
  extract_lets direct placeholder
  cases direct
  · simp only [over_app, overAll_cons, over_rawFn, Bool.false_eq_true, if_false]
    exact ⟨⟨hplace _, over_dummy _, overAll_nil⟩, over_dummy _, hx, overAll_nil⟩
  · simp only [over_app, overAll_cons, over_rawFn, if_true]
    exact ⟨hdirect, hx, overAll_nil⟩

theorem over_unaryDerivative {f : Func} {v : Expr} (h : unaryDerivative f x = some v)
    (hx : Over S x) : Over S v := by
  have hcomplement := over_sqrt (over_sub over_one (over_square hx))
  have hreciprocal : Over S (square x * sqrt (one - inv (square x))) := by grind
  have hreciprocal' : Over S (square x * sqrt (one + inv (square x))) := by grind
  have hbell : Over S (int 2 * apply .exp [-(square x)]) := by grind
  unfold unaryDerivative at h
  split at h <;> grind

theorem over_binaryDerivative {f : Func} {first : Bool} {v : Expr}
    (h : binaryDerivative f first a b = some v) (ha : Over S a) (hb : Over S b) : Over S v := by
  unfold binaryDerivative at h
  split at h <;> grind

theorem over_extremeDerivative {largest : Bool} {others : List Expr} (hx : Over S x)
    (hothers : OverAll S others) : Over S (extremeDerivative largest x others) := by
  unfold extremeDerivative
  grind

theorem over_argDerivative {f : Func} {before after : List Expr} (hbefore : OverAll S before)
    (hx : Over S x) (hafter : OverAll S after) : Over S (argDerivative f before x after) := by
  have hopen := over_openDerivative (f := f) hbefore hx hafter
  unfold argDerivative
  refine over_getD (fun v hv => ?_) hopen
  split at hv
  · obtain rfl := Option.some.inj hv
    exact over_extremeDerivative hx (overAll_append.2 ⟨hbefore, hafter⟩)
  · obtain rfl := Option.some.inj hv
    exact over_extremeDerivative hx (overAll_append.2 ⟨hbefore, hafter⟩)
  · exact over_unaryDerivative hv hx
  · exact over_binaryDerivative hv hx (overAll_cons.1 hafter).1
  · exact over_binaryDerivative hv (overAll_cons.1 hbefore).1 hx
  · simp at hv

/-! ## Rules -/

theorem overAll_chainTerms {f : Func} {before args ds : List Expr} (hbefore : OverAll S before)
    (hargs : OverAll S args) (hds : OverAll S ds) : OverAll S (chainTerms f before args ds) := by
  induction args generalizing before ds with
  | nil => simp [chainTerms]
  | cons x after ih =>
    cases ds with
    | nil => simp [chainTerms]
    | cons d ds =>
      obtain ⟨hx, hafter⟩ := overAll_cons.1 hargs
      obtain ⟨hd, hds⟩ := overAll_cons.1 hds
      have hrest := ih (overAll_append.2 ⟨hbefore, overAll_cons.2 ⟨hx, overAll_nil⟩⟩) hafter hds
      rw [chainTerms]
      split
      · exact hrest
      · exact overAll_cons.2 ⟨over_mul (over_argDerivative hbefore hx hafter) hd, hrest⟩

theorem overAll_productTerms {before args ds : List Expr} (hbefore : OverAll S before)
    (hargs : OverAll S args) (hds : OverAll S ds) : OverAll S (productTerms before args ds) := by
  induction args generalizing before ds with
  | nil => simp [productTerms]
  | cons x after ih =>
    cases ds with
    | nil => simp [productTerms]
    | cons d ds =>
      obtain ⟨hx, hafter⟩ := overAll_cons.1 hargs
      obtain ⟨hd, hds⟩ := overAll_cons.1 hds
      have hrest := ih (overAll_append.2 ⟨hbefore, overAll_cons.2 ⟨hx, overAll_nil⟩⟩) hafter hds
      rw [productTerms]
      split
      · exact hrest
      · have hfactors := overAll_append.2 ⟨hbefore, overAll_cons.2 ⟨hd, hafter⟩⟩
        exact overAll_cons.2 ⟨over_foldl over_one fun e he x hx => over_mul he (hfactors x hx), hrest⟩

theorem over_partDerivative {v : String} (he : Over S e) : Over S (partDerivative v e) := by
  unfold partDerivative
  split
  · rename_i hv
    have hv : S v := of_hasSymbol hv he
    refine over_sum (overAll_map fun t ht => ?_)
    have ht := over_coeffMul (overAll_terms he t ht)
    grind
  · exact over_zero

theorem over_absDerivative {inner : Expr → Expr} {dx : Expr}
    (hinner : ∀ e, Over S e → Over S (inner e)) (hx : Over S x) (hdx : Over S dx) :
    Over S (absDerivative inner x dx) := by
  have hre := hinner _ (over_apply_single (f := .re) hx)
  have him := hinner _ (over_apply_single (f := .im) hx)
  unfold absDerivative
  grind

theorem over_angleDerivative {inner : Expr → Expr} (hinner : ∀ e, Over S e → Over S (inner e))
    (hx : Over S x) : Over S (angleDerivative inner x) := by
  have hre := hinner _ (over_apply_single (f := .re) hx)
  have him := hinner _ (over_apply_single (f := .im) hx)
  unfold angleDerivative
  grind

/-- The derivative of an application by a variable that occurs in it. -/
theorem over_headDerivative {inner : Expr → Expr} {v : String} {h : Head} {args ds : List Expr}
    (hinner : ∀ e, Over S e → Over S (inner e)) (hv : S v) (hargs : OverAll S args)
    (hds : OverAll S ds) : Over S (headDerivative inner v h args ds) := by
  unfold headDerivative
  split
  · exact over_sum hds
  · exact over_sum (overAll_productTerms overAll_nil hargs hds)
  · grind
  · exact over_absDerivative hinner (overAll_cons.1 hargs).1 (overAll_cons.1 hds).1
  · grind
  · exact over_angleDerivative hinner (overAll_cons.1 hargs).1
  · exact over_partDerivative (over_rawFn.2 hargs)
  · exact over_partDerivative (over_rawFn.2 hargs)
  · exact over_sum (overAll_chainTerms overAll_nil hargs hds)
  · grind

mutual

theorem over_derivativeWithin {inner : Expr → Expr} {v : String}
    (hinner : ∀ e, Over S e → Over S (inner e)) :
    ∀ {e : Expr}, Over S e → Over S (derivativeWithin inner v e)
  | .symbol s, _ => by
    unfold derivativeWithin
    grind
  | .app h as, he => by
    have hds : OverAll S (derivativesWithin inner v as) :=
      overAll_derivativesWithin hinner (over_app.1 he)
    rw [derivativeWithin]
    split
    · rename_i hv
      exact over_headDerivative hinner (of_anyOf_symbol hv (over_app.1 he)) (over_app.1 he) hds
    · exact over_zero
  | .rat _, _ | .float _ _, _ | .const _, _ | .dummy _, _ => over_zero

theorem overAll_derivativesWithin {inner : Expr → Expr} {v : String}
    (hinner : ∀ e, Over S e → Over S (inner e)) :
    ∀ {es : List Expr}, OverAll S es → OverAll S (derivativesWithin inner v es)
  | [], _ => overAll_nil
  | e :: es, hes => by
    have he := overAll_cons.1 hes
    exact overAll_cons.2 ⟨over_derivativeWithin hinner he.1, overAll_derivativesWithin hinner he.2⟩

end

theorem over_derivativeTo {depth : Nat} {v : String} (he : Over S e) :
    Over S (derivativeTo depth v e) := by
  induction depth generalizing e with
  | zero => exact over_derivativeWithin (fun e he => over_partDerivative he) he
  | succ depth ih => exact over_derivativeWithin (fun e he => ih he) he

/-- **The partial derivative is over the variables of the expression.** -/
theorem over_derivative {v : String} (he : Over S e) : Over S (derivative v e) :=
  over_derivativeTo he

end ErrorBars.Expr
