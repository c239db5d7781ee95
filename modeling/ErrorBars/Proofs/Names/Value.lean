import ErrorBars.Formula.Value
import ErrorBars.Proofs.Names.Cancel

/-!
# Which variables the values of phrases can hold

A value of a phrase holds expressions: it is one, or a list or a mapping with expressions in it, or
a method that waits for its arguments.  `Value.Over S` says that all of them are over the variables
`S`, and that there is no quoted text in the value; a text is ruled out because it can be read as a
formula, or be made a variable, and then anything may be in it.

No operation on such values makes up a variable or a text.  `Gives` says that of a calculation that
may fail, and there is one lemma for each operation.
-/

set_option autoImplicit false

namespace ErrorBars.Formula

/-! ## What a calculation gives -/

/-- Whatever a calculation gives is of this kind. -/
def Gives {α : Type} (P : α → Prop) (c : Calculated α) : Prop := ∀ x, c = .ok x → P x

section

variable {α β : Type} {P : α → Prop} {Q : β → Prop}

theorem gives_ok {x : α} (h : P x) : Gives P (.ok x) := by
  rintro _ ⟨⟩
  exact h

theorem gives_error {fault : ParseFault} : Gives P (.error fault) := by
  intro x h
  cases h

theorem Gives.bind {c : Calculated α} {k : α → Calculated β} (hc : Gives P c)
    (hk : ∀ x, P x → Gives Q (k x)) : Gives Q (c >>= k) := by
  intro y h
  cases c with
  | error fault => cases h
  | ok x => exact hk x (hc x rfl) y h

theorem Gives.map {c : Calculated α} {f : α → β} (hc : Gives P c) (hf : ∀ x, P x → Q (f x)) :
    Gives Q (c.map f) := by
  intro y h
  cases c with
  | error fault => cases h
  | ok x =>
    cases h
    exact hf x (hc x rfl)

/-- Nothing has to be known of a part that is only looked at. -/
theorem gives_any (c : Calculated α) : Gives (fun _ => True) c := fun _ _ => trivial

theorem gives_mapM {f : β → Calculated α} {xs : List β} (h : ∀ x ∈ xs, Gives P (f x)) :
    Gives (fun ys => ∀ y ∈ ys, P y) (xs.mapM f) := by
  induction xs with
  | nil => exact gives_ok (List.forall_mem_nil P)
  | cons x xs ih =>
    obtain ⟨hx, hxs⟩ := List.forall_mem_cons.1 h
    rw [List.mapM_cons]
    exact hx.bind fun y hy => (ih hxs).bind fun ys hys => gives_ok (List.forall_mem_cons.2 ⟨hy, hys⟩)

end

namespace Value

/-! ## Values over variables -/

mutual

/-- There is no quoted text in a value, and all expressions in it are over these variables. -/
def Over (S : String → Prop) : Value → Prop
  | .scalar e => Expr.Over S e
  | .text _ => False
  | .items _ xs => AllOver S xs
  | .mapping entries => EntriesOver S entries
  | .method e _ => Expr.Over S e
  | .whole _ => True
  | .flag _ => True
  | .verdict _ => True
  | .range .. => True
  | .callable _ => True
  | .relation => True
  | .statement => True
  | .other _ => True

/-- All of several values are over these variables. -/
def AllOver (S : String → Prop) : List Value → Prop
  | [] => True
  | v :: vs => Over S v ∧ AllOver S vs

/-- All keys and values are over these variables. -/
def EntriesOver (S : String → Prop) : List (Value × Value) → Prop
  | [] => True
  | (k, v) :: rest => (Over S k ∧ Over S v) ∧ EntriesOver S rest

end

variable {S : String → Prop} {a b v : Value} {x y e : Expr}

theorem allOver_iff {vs : List Value} : AllOver S vs ↔ ∀ v ∈ vs, v.Over S := by
  induction vs with
  | nil => exact iff_of_true trivial (List.forall_mem_nil _)
  | cons v vs ih => rw [AllOver, ih, List.forall_mem_cons]

theorem entriesOver_iff {entries : List (Value × Value)} :
    EntriesOver S entries ↔ ∀ e ∈ entries, e.1.Over S ∧ e.2.Over S := by
  induction entries with
  | nil => exact iff_of_true trivial (List.forall_mem_nil _)
  | cons e entries ih =>
    obtain ⟨k, v⟩ := e
    rw [EntriesOver, ih, List.forall_mem_cons]

theorem over_items {k : Bool} {xs : List Value} :
    Over S (.items k xs) ↔ ∀ v ∈ xs, v.Over S := by
  rw [Over, allOver_iff]

theorem over_mapping {entries : List (Value × Value)} :
    Over S (.mapping entries) ↔ ∀ e ∈ entries, e.1.Over S ∧ e.2.Over S := by
  rw [Over, entriesOver_iff]

/-- The expression that a value stands for. -/
theorem over_expr? (h : v.expr? = some e) (hv : v.Over S) : Expr.Over S e := by
  cases v with
  | scalar x => exact Option.some.inj h ▸ hv
  | whole n => exact Option.some.inj h ▸ Expr.over_int n
  | _ => cases h

/-! ## Arithmetic -/

theorem gives_floorDiv (hx : Expr.Over S x) (hy : Expr.Over S y) :
    Gives (Expr.Over S) (floorDiv x y) := by
  have hfloor : Expr.Over S (Expr.apply .floor [x / y]) :=
    Expr.over_apply (Expr.overAll_cons.2 ⟨Expr.over_div hx hy, Expr.overAll_nil⟩)
  rw [floorDiv]
  split
  · split
    · exact gives_error
    · exact gives_ok (Expr.over_int _)
  · split
    · exact gives_error
    · exact gives_ok hfloor
  · exact gives_ok hfloor

theorem gives_modulo (hx : Expr.Over S x) (hy : Expr.Over S y) :
    Gives (Expr.Over S) (modulo x y) := by
  rw [modulo]
  split
  · exact gives_error
  · exact gives_ok (Expr.over_remainder hx hy)

theorem gives_onExprs (op : BinaryOp) (hx : Expr.Over S x) (hy : Expr.Over S y) :
    Gives (Over S) (onExprs op x y) := by
  unfold onExprs
  split
  · exact gives_ok (Expr.over_add hx hy)
  · exact gives_ok (Expr.over_sub hx hy)
  · exact gives_ok (Expr.over_mul hx hy)
  · exact gives_ok (Expr.over_div hx hy)
  · exact gives_ok (Expr.over_power hx hy)
  · exact (gives_floorDiv hx hy).map fun _ h => h
  · exact (gives_modulo hx hy).map fun _ h => h
  · exact gives_error

theorem gives_onPlain (op : BinaryOp) (m n : Int) : Gives (Over S) (onPlain op m n) := by
  unfold onPlain
  split
  case h_4 | h_5 | h_6 =>
    split
    · exact gives_error
    · exact gives_ok trivial
  case h_7 =>
    split
    · exact gives_ok trivial
    · split
      · exact gives_error
      · exact gives_ok trivial
  case h_8 => exact gives_error
  all_goals exact gives_ok trivial

/-! ## Connectives -/

theorem over_both (ha : a.Over S) (hb : b.Over S) : (both a b).Over S := by
  unfold both
  split
  · split
    · exact ha
    · trivial
  · split
    case h_4 => exact hb
    case h_5 => exact ha
    all_goals trivial

theorem over_oneOf (ha : a.Over S) (hb : b.Over S) : (oneOf a b).Over S := by
  unfold oneOf
  split
  · split
    · exact ha
    · trivial
  · split
    case h_4 => exact hb
    case h_5 => exact ha
    all_goals trivial

theorem over_opposite (a : Value) : (opposite a).Over S := by
  unfold opposite
  split <;> trivial

theorem over_follows (hb : b.Over S) : (follows a b).Over S := by
  unfold follows
  split
  · split <;> trivial
  · exact over_oneOf (over_opposite a) hb

theorem gives_connect (op : BinaryOp) (ha : a.Over S) (hb : b.Over S) :
    Gives (Over S) (connect op a b) := by
  unfold connect
  split
  · split
    · split
      · exact gives_ok trivial
      · exact gives_ok trivial
      · refine gives_ok ?_
        split
        · trivial
        · exact Expr.over_int _
    · exact gives_error
  · split
    · refine gives_ok ?_
      split
      · exact over_both ha hb
      · exact over_oneOf ha hb
      · exact over_follows hb
      · exact over_follows ha
    · exact gives_error

/-! ## Operations -/

theorem over_repeated {k : Bool} {n : Int} {xs : List Value} (h : Over S (.items k xs)) :
    Over S (.items k (repeated n xs)) := by
  refine over_items.2 fun v hv => ?_
  obtain ⟨ys, hys, hv⟩ := List.mem_flatten.1 hv
  exact over_items.1 h v (List.eq_of_mem_replicate hys ▸ hv)

/-- **An operation of two operands makes up no variables.** -/
theorem gives_binary (op : BinaryOp) (ha : a.Over S) (hb : b.Over S) :
    Gives (Over S) (binary op a b) := by
  have hplain : ∀ n : Bool, Expr.Over S (Expr.int (if n then 1 else 0)) := fun _ => Expr.over_int _
  unfold binary
  split
  case h_1 | h_2 | h_3 | h_4 => exact gives_connect _ ha hb
  case h_5 =>
    split
    · exact gives_onPlain _ _ _
    · split
      · exact ha.elim
      · split
        · exact gives_ok (over_items.2 (List.forall_mem_append.2 ⟨over_items.1 ha, over_items.1 hb⟩))
        · exact gives_error
      · exact ha.elim
      · exact hb.elim
      · split
        · exact gives_ok (over_repeated ha)
        · exact gives_error
      · split
        · exact gives_ok (over_repeated hb)
        · exact gives_error
      · split
        · exact gives_onExprs _ (hplain _) hb
        · exact gives_error
      · split
        · exact gives_onExprs _ ha (hplain _)
        · exact gives_error
      · split
        · rename_i hx hy
          exact gives_onExprs _ (over_expr? hx ha) (over_expr? hy hb)
        · exact gives_error

theorem gives_unary (op : UnaryOp) (ha : a.Over S) : Gives (Over S) (unary op a) := by
  unfold unary
  split
  case h_1 => exact (gives_any _).bind fun _ _ => gives_ok trivial
  case h_2 => exact gives_ok ha
  case h_3 => exact gives_ok (Expr.over_neg ha)
  case h_5 | h_9 =>
    split
    · exact gives_ok (by first | trivial | exact Expr.over_int _)
    · exact gives_error
  all_goals exact gives_ok trivial

/-! ## Comparisons -/

/-- A comparison gives a truth value, or is left as it is. -/
theorem gives_compare (c : Comparison) (a b : Value) : Gives (Over S) (compare c a b) := by
  have horder : ∀ x y, Gives (Over S) (orderExprs c x y) := by
    intro x y
    unfold orderExprs
    simp only
    split
    · exact gives_error
    · split
      · exact gives_ok trivial
      · refine gives_ok ?_
        split
        case h_5 => trivial
        all_goals split <;> trivial
  unfold compare
  split
  case h_5 | h_6 =>
    split
    · exact gives_ok trivial
    · exact gives_ok trivial
    · split
      · exact gives_ok trivial
      · exact gives_error
    · exact gives_error
  case h_7 =>
    split
    · split
      · exact gives_ok trivial
      · exact gives_error
    · split
      · exact gives_ok trivial
      · exact gives_error
    · split
      · exact gives_ok trivial
      · split
        · exact horder _ _
        · exact gives_error
  all_goals exact gives_ok trivial

/-! ## Parts by position -/

theorem gives_slice {α : Type} {P : α → Prop} {xs : List α} (first stop step : Option Int)
    (hxs : ∀ x ∈ xs, P x) : Gives (fun ys => ∀ y ∈ ys, P y) (slice xs first stop step) := by
  unfold slice
  simp only
  split
  · exact gives_error
  · refine gives_ok fun y hy => ?_
    obtain ⟨i, -, hi⟩ := List.mem_filterMap.1 hy
    exact hxs y (List.mem_of_getElem? hi)

theorem gives_memberAt {α : Type} {P : α → Prop} {xs : List α} (i : Value)
    (hxs : ∀ x ∈ xs, P x) : Gives P (memberAt xs i) := by
  unfold memberAt
  split
  · extract_lets n
    split
    · exact gives_error
    · split
      · rename_i hv
        exact gives_ok (hxs _ (List.mem_of_getElem? hv))
      · exact gives_error
  · exact gives_error

/-- The bounds of a range are numbers. -/
theorem gives_index (ha : a.Over S) : Gives (Over S) (index a b) := by
  unfold index
  split
  · exact (gives_slice _ _ _ (over_items.1 ha)).map fun _ h => over_items.2 h
  · exact gives_memberAt _ (over_items.1 ha)
  · exact ha.elim
  · exact ha.elim
  · split
    · exact gives_error
    · split
      · rename_i entry hentry
        exact gives_ok (over_mapping.1 ha _ (List.mem_of_find?_eq_some hentry)).2
      · exact gives_error
  · exact gives_error

/-- The entries of a mapping are among the values that it is written with. -/
theorem over_entriesOf {vs : List Value} {acc : List (Value × Value)} (hvs : ∀ v ∈ vs, v.Over S)
    (hacc : ∀ e ∈ acc, e.1.Over S ∧ e.2.Over S) :
    ∀ e ∈ entriesOf vs acc, e.1.Over S ∧ e.2.Over S := by
  induction vs, acc using entriesOf.induct with
  | case1 k v rest acc acc' ih =>
    obtain ⟨hk, hvs⟩ := List.forall_mem_cons.1 hvs
    obtain ⟨hv, hrest⟩ := List.forall_mem_cons.1 hvs
    rw [entriesOf]
    refine ih hrest fun e he => ?_
    simp only [acc'] at he
    split at he
    · obtain ⟨f, hf, rfl⟩ := List.mem_map.1 he
      split
      · exact ⟨(hacc f hf).1, hv⟩
      · exact hacc f hf
    · rcases List.mem_append.1 he with he | he
      · exact hacc e he
      · exact List.mem_singleton.1 he ▸ ⟨hk, hv⟩
  | case2 vs acc h =>
    rw [entriesOf]
    · exact hacc
    · exact h

end Value

end ErrorBars.Formula
