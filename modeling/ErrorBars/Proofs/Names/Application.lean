import ErrorBars.Proofs.Names.Point
import ErrorBars.Proofs.Names.Value
import ErrorBars.Proofs.Slips.Application

/-!
# Which variables applications can give

Functions, roots, powers and methods of expressions give expressions over the variables of their
arguments (`gives_call`).  Two applications could bring in other variables, and both need a text:
`Symbol` makes a variable of it, and a function of mathematics reads it as a formula.
-/

set_option autoImplicit false

namespace ErrorBars

namespace Expr

variable {S : String → Prop} {e v : Expr}

/-! ## Parts of expressions -/

theorem over_derivativeBy {args : List Expr} (h : derivativeBy args e = some v) (he : Over S e) :
    Over S v := by
  induction args, e using derivativeBy.induct with
  | case1 e =>
    rw [derivativeBy] at h
    exact Option.some.inj h ▸ he
  | case2 e s q rest hq ih =>
    rw [derivativeBy, if_pos hq] at h
    refine ih h (List.foldlRecOn _ _ he fun acc hacc _ _ => over_derivative hacc)
  | case3 e s q rest hq =>
    rw [derivativeBy, if_neg hq] at h
    cases h
  | case4 e s rest hne ih =>
    rw [derivativeBy] at h
    · exact ih h (over_derivative he)
    · exact hne
  | case5 e args hnil hrat hsymbol =>
    rw [derivativeBy] at h
    · cases h
    all_goals assumption

theorem over_approximated (he : Over S e) : Over S e.approximated := by
  have hbound : Bound S S [] := ⟨secondsOver_nil, fun _ hs => .inr hs, fun _ hs => hs⟩
  rw [approximated]
  split
  · rename_i r hr
    exact (over_reach hbound he hr).1
  · exact he

/-- What a method gives is over the variables of the expression and of the arguments. -/
theorem over_applyPart {name : String} {args : List Expr} (h : e.applyPart name args = .value v)
    (he : Over S e) (hargs : OverAll S args) : Over S v := by
  unfold applyPart at h
  split at h
  case h_1 =>
    split at h
    · cases h
      exact over_derivative he
    · cases h
  case h_2 =>
    cases hd : derivativeBy args e with
    | none =>
      rw [hd] at h
      cases h
    | some d =>
      rw [hd] at h
      cases h
      exact over_derivativeBy hd he
  case h_3 s w =>
    split at h
    · rename_i r hr
      cases h
      have hw : Over S w := hargs w (List.mem_cons_of_mem _ List.mem_cons_self)
      exact over_substitute hw (fun _ hs _ => hs) hr he
    · cases h
    · cases h
  case h_4 =>
    cases h
    exact over_expand he
  case h_5 =>
    cases h
    exact over_simplify he
  case h_6 =>
    cases h
    exact over_cancel he
  case h_7 =>
    cases h
    exact over_together he
  case h_8 =>
    cases h
    exact over_factor he
  case h_9 | h_10 | h_11 =>
    cases h
    exact he
  case h_12 | h_13 =>
    cases h
    exact over_approximated he
  all_goals cases h

theorem over_partKind? {name : String} (h : e.partKind? name = some (.value v)) (he : Over S e) :
    Over S v := by
  unfold partKind? at h
  simp only at h
  split at h
  · cases h
  · split at h
    · cases h
    · split at h
      · cases h
      · split at h
        · cases h
        · split at h
          · split at h <;> cases h
          · split at h <;> cases h
          · obtain ⟨hb, hx⟩ := overAll_cons.1 (over_app.1 he)
            split at h
            · cases h
              exact hb
            · split at h
              · cases h
                exact (overAll_cons.1 hx).1
              · cases h
          · cases h

end Expr

namespace Formula.Value

variable {S : String → Prop} {a v : Value} {x y z e : Expr} {es : List Expr}
variable {read : TextReader}

/-! ## Functions of expressions -/

theorem gives_applied (f : Func) (hes : Expr.OverAll S es) : Gives (Expr.Over S) (applied f es) := by
  unfold applied
  split
  · rename_i e he
    exact gives_ok (Expr.over_applyChecked he hes)
  · exact gives_error
  · exact gives_error

theorem gives_extreme (f : Func) (hes : Expr.OverAll S es) : Gives (Expr.Over S) (extreme f es) := by
  unfold extreme
  split
  · refine gives_ok ?_
    split
    · exact Expr.over_const _
    · exact Expr.over_infinity
  · exact gives_applied f hes

theorem gives_powerModulo (hx : Expr.Over S x) (hy : Expr.Over S y) (hz : Expr.Over S z) :
    Gives (Expr.Over S) (powerModulo x y z) := by
  have hwhole := gives_modulo (Expr.over_power hx hy) hz
  unfold powerModulo
  split
  · simp only
    split
    · exact gives_ok (Expr.over_int _)
    · exact hwhole
  · exact hwhole

/-- A function that is worked out. -/
theorem gives_applyNamed (name : String) (hes : Expr.OverAll S es) :
    Gives (Expr.Over S) (applyNamed name es) := by
  have happly : ∀ {f : Func} {args : List Expr}, Expr.OverAll S args →
      Gives (Expr.Over S) (.ok (Expr.apply f args)) := fun hargs => gives_ok (Expr.over_apply hargs)
  unfold applyNamed
  split
  case h_1 | h_3 => exact gives_applied _ hes
  case h_2 => exact happly hes
  case h_4 =>
    split
    · exact gives_applied _ hes
    · exact gives_error
  case h_5 => exact gives_error
  case h_6 =>
    split
    case h_4 | h_5 => exact happly (Expr.overAll_cons.2 ⟨by simp, hes⟩)
    case h_6 =>
      obtain ⟨hx, hm⟩ := Expr.overAll_cons.1 hes
      exact gives_modulo hx (Expr.overAll_cons.1 hm).1
    case h_7 | h_8 | h_9 | h_10 => exact gives_extreme _ hes
    case h_11 => exact gives_ok (Expr.over_sum hes)
    case h_12 => exact gives_ok (Expr.over_product hes)
    case h_13 =>
      split
      · exact gives_ok (Expr.overAll_cons.1 hes).1
      · exact gives_error
    case h_14 => exact gives_error
    all_goals exact happly hes

/-- A function that is left as it stands. -/
theorem gives_standNamed (name : String) (hes : Expr.OverAll S es) :
    Gives (Expr.Over S) (standNamed name es) := by
  have hraw : ∀ {f : Func} {args : List Expr}, Expr.OverAll S args →
      Gives (Expr.Over S) (.ok (Expr.rawFn f args)) := fun hargs =>
    gives_ok (Expr.over_rawFn.2 hargs)
  unfold standNamed
  split
  case h_3 =>
    refine hraw ?_
    split
    · exact Expr.overAll_cons.2 ⟨(Expr.overAll_cons.1 hes).1, Expr.overAll_nil⟩
    · exact hes
  case h_5 => exact gives_error
  case h_6 =>
    split
    case h_5 | h_6 => exact gives_ok (Canonical.over_plainExtreme hes)
    case h_7 => exact gives_error
    all_goals exact hraw hes
  all_goals exact hraw hes

/-! ## Arguments -/

theorem gives_described (hv : v.Over S) : Gives (Expr.Over S) (described read v) := by
  cases v with
  | text q => exact hv.elim
  | scalar e => exact gives_ok hv
  | whole n => exact gives_ok (Expr.over_int n)
  | _ => exact gives_error

theorem gives_describedAll {vs : List Value} (hvs : ∀ v ∈ vs, v.Over S) :
    Gives (Expr.OverAll S) (vs.mapM (described read)) :=
  gives_mapM fun v hv => gives_described (hvs v hv)

theorem over_exprs? {vs : List Value} (h : exprs? vs = some es) (hvs : ∀ v ∈ vs, v.Over S) :
    Expr.OverAll S es := by
  induction vs generalizing es with
  | nil => exact Option.some.inj h ▸ Expr.overAll_nil
  | cons v vs ih =>
    obtain ⟨hv, hvs⟩ := List.forall_mem_cons.1 hvs
    obtain ⟨e, he, h⟩ := Option.bind_eq_some_iff.1 h
    obtain ⟨fs, hfs, h⟩ := Option.bind_eq_some_iff.1 h
    exact Option.some.inj h ▸ Expr.overAll_cons.2 ⟨over_expr? he hv, ih hfs hvs⟩

theorem gives_total {vs : List Value} (hvs : ∀ v ∈ vs, v.Over S) (ha : a.Over S) :
    Gives (Over S) (total vs a) := by
  induction vs generalizing a with
  | nil => exact gives_ok ha
  | cons v vs ih =>
    obtain ⟨hv, hvs⟩ := List.forall_mem_cons.1 hvs
    exact (gives_binary .add ha hv).bind fun _ hsum => ih hvs hsum

theorem gives_applyMathematical (name : String) {args : Arguments}
    (hvalues : ∀ v ∈ args.values, v.Over S) :
    Gives (Over S) (applyMathematical read name args) := by
  rw [applyMathematical_eq]
  refine (gives_describedAll hvalues).bind fun es hes => (gives_any _).bind fun worked _ => ?_
  split
  · exact (gives_applyNamed name hes).map fun _ h => h
  · exact (gives_standNamed name hes).map fun _ h => h

/-! ## Roots and powers -/

theorem gives_exprOf (hv : v.Over S) : Gives (Expr.Over S) (exprOf v) := fun _ h =>
  over_expr? (exprOf_eq_ok.1 h) hv

theorem over_powerOf {worked : Bool} (hx : Expr.Over S x) (hy : Expr.Over S y) :
    Expr.Over S (powerOf worked x y) := by
  unfold powerOf
  split
  · exact Expr.over_power hx hy
  · exact Expr.over_rawPow.2 ⟨hx, hy⟩

theorem over_rootOf {worked : Bool} (hx : Expr.Over S x) (hy : Expr.Over S y) (hz : Expr.Over S z) :
    Expr.Over S (rootOf worked x y z) := by
  have hroot : Expr.Over S (powerOf worked x (Expr.inv y)) := over_powerOf hx (Expr.over_inv hy)
  have hunity : Expr.Over S (Expr.power Expr.minusOne (Expr.int 2 * z / y)) :=
    Expr.over_power Expr.over_minusOne (Expr.over_div (Expr.over_mul (Expr.over_int 2) hz) hy)
  have hboth := Expr.overAll_cons.2 ⟨hroot, Expr.overAll_cons.2 ⟨hunity, Expr.overAll_nil⟩⟩
  unfold rootOf
  simp only
  split
  · exact hroot
  · split
    · exact Expr.over_product hboth
    · exact Expr.over_rawMul.2 hboth

/-- The arguments that are given are over the variables. -/
def GivenOver (S : String → Prop) (args : List (Option Value)) : Prop :=
  ∀ v, some v ∈ args → v.Over S

theorem givenOver_inOrder? {names : List String} {a : Arguments} {args : List (Option Value)}
    (h : inOrder? names a = some args) (hvalues : ∀ v ∈ a.values, v.Over S)
    (hnamed : ∀ e ∈ a.named, e.2.Over S) : GivenOver S args := by
  unfold inOrder? at h
  simp only at h
  split at h
  · cases h
  · obtain rfl := Option.some.inj h
    intro v hv
    rcases List.mem_append.1 hv with hv | hv
    · obtain ⟨w, hw, heq⟩ := List.mem_map.1 hv
      exact Option.some.inj heq ▸ hvalues w hw
    · obtain ⟨n, -, hn⟩ := List.mem_map.1 hv
      obtain ⟨before, after, heq, -⟩ := List.lookup_eq_some_iff.1 hn
      exact hnamed (n, v) (by simp [heq])

theorem gives_branchOf {k : Option Value} (hk : ∀ v, k = some v → v.Over S) :
    Gives (Expr.Over S) (branchOf k) := by
  cases k with
  | none => exact gives_ok Expr.over_zero
  | some v => exact gives_exprOf (hk v rfl)

theorem gives_applyPower (name : String) {args : List (Option Value)} (hargs : GivenOver S args) :
    Gives (Expr.Over S) (applyPower read name args) := by
  have hexpr : ∀ {v}, some v ∈ args → Gives (Expr.Over S) (exprOf v) := fun hv =>
    gives_exprOf (hargs _ hv)
  -- a power with an exponent, after the question whether it is worked out
  have hpower : ∀ {v w} {y : Expr}, some v ∈ args → Expr.Over S y → Gives (Expr.Over S)
      (workedOut w >>= fun worked => exprOf v >>= fun x => .ok (powerOf worked x y)) :=
    fun hv hy => (gives_any _).bind fun _ _ => (hexpr hv).bind fun _ hx =>
      gives_ok (over_powerOf hx hy)
  rw [applyPower.eq_def]
  split
  case h_1 x w => exact hpower List.mem_cons_self Expr.over_half
  case h_2 x w => exact hpower List.mem_cons_self (Expr.over_rat _)
  case h_3 x n k w =>
    show Gives _ (applyPower read "root" [some x, some n, k, w])
    rw [applyPower_root]
    refine (gives_branchOf fun v hv => hargs v (by simp [hv])).bind fun k hk => ?_
    refine (gives_any _).bind fun worked _ => (hexpr (by simp)).bind fun x hx => ?_
    exact (gives_described (hargs n (by simp))).bind fun n hn => gives_ok (over_rootOf hx hn hk)
  case h_4 b e w =>
    show Gives _ (workedOut w >>= fun worked => exprOf b >>= fun x => exprOf e >>= fun y =>
      .ok (powerOf worked x y))
    exact (gives_any _).bind fun worked _ => (hexpr (by simp)).bind fun x hx =>
      (hexpr (by simp)).bind fun y hy => gives_ok (over_powerOf hx hy)
  case h_5 b e =>
    show Gives _ (exprOf b >>= fun x => exprOf e >>= fun y => .ok (Expr.power x y))
    exact (hexpr (by simp)).bind fun x hx => (hexpr (by simp)).bind fun y hy =>
      gives_ok (Expr.over_power hx hy)
  case h_6 b e m =>
    show Gives _ (applyPower read "pow" [some b, some e, some m])
    rw [applyPower_pow]
    exact (hexpr (by simp)).bind fun x hx => (hexpr (by simp)).bind fun y hy =>
      (hexpr (by simp)).bind fun z hz => gives_powerModulo hx hy hz
  case h_7 p q =>
    show Gives _ (exprOf p >>= fun x => exprOf q >>= fun y => .ok (x / y))
    exact (hexpr (by simp)).bind fun x hx => (hexpr (by simp)).bind fun y hy =>
      gives_ok (Expr.over_div hx hy)
  case h_8 p => exact hexpr List.mem_cons_self
  case h_9 => exact gives_error

/-! ## All applications -/

theorem gives_applyMethod (name : String) {vs : List Value} (he : Expr.Over S e)
    (hvs : ∀ v ∈ vs, v.Over S) : Gives (Over S) (applyMethod read e name vs) := by
  unfold applyMethod
  refine (gives_describedAll hvs).bind fun es hes => ?_
  split
  · rename_i v hv
    exact gives_ok (Expr.over_applyPart hv he hes)
  · exact gives_ok trivial
  · exact gives_error
  · exact gives_error

/-- **An application makes up no variables**, where no texts are around. -/
theorem gives_call {args : Arguments} (ha : a.Over S) (hvalues : ∀ v ∈ args.values, v.Over S)
    (hnamed : ∀ e ∈ args.named, e.2.Over S) : Gives (Over S) (call read a args) := by
  rw [call.eq_def]
  split
  case h_1 hargs _ =>
    rw [hargs] at hvalues
    exact gives_total (over_items.1 (hvalues _ List.mem_cons_self)) trivial
  case h_2 | h_3 => exact gives_ok trivial
  case h_4 hargs _ | h_5 hargs _ =>
    rw [hargs] at hvalues
    exact (hvalues _ List.mem_cons_self).elim
  case h_6 hargs _ | h_7 hargs _ =>
    rw [hargs] at hvalues
    exact (gives_described (hvalues _ List.mem_cons_self)).map fun _ h => h
  case h_8 name _ _ _ _ _ _ _ =>
    split
    · exact gives_applyMathematical name hvalues
    · split
      · split
        · rename_i hargs
          exact (gives_applyPower name (givenOver_inOrder? hargs hvalues hnamed)).map fun _ h => h
        · exact gives_error
      · split
        · split
          · rename_i v rest hargs
            rw [hargs] at hvalues
            obtain ⟨hv, hrest⟩ := List.forall_mem_cons.1 hvalues
            exact (gives_described hv).bind fun e he => gives_applyMethod _ he hrest
          · exact gives_error
        · split
          · rename_i es hes _
            exact (gives_applyNamed name (over_exprs? hes hvalues)).map fun _ h => h
          · exact gives_error
  case h_9 e name _ => exact gives_applyMethod name ha hvalues
  case h_10 => exact gives_error

/-- A part of an expression by name. -/
theorem gives_part (name : String) (ha : a.Over S) : Gives (Over S) (part a name) := by
  unfold part
  split
  · split
    · exact gives_ok ha
    · rename_i v hv
      exact gives_ok (Expr.over_partKind? hv ha)
    · exact gives_ok trivial
    · exact gives_error
  · exact gives_error

end Formula.Value

end ErrorBars
