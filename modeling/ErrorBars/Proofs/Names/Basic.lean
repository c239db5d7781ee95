import ErrorBars.Expr.Canonical.Arith
import Mathlib.Data.List.Basic

/-!
# Which variables an expression is over

The constructors of expressions, the derivative and the simplifier rearrange what they are given and
put numbers, constants and functions to it, but they never make up a variable.  These files show so,
one operation after the other: if all variables of the arguments satisfy a condition, then so do all
variables of the result.  The condition is arbitrary, and nothing else is assumed.

`Expr.Over S e` says that the variables of `e` satisfy `S`, and `Expr.OverAll S es` says so of several
expressions.  Of an operation that may have no result this is said of every result.  A lemma is named
for the operation it is about, and is tagged for `grind`, which is what puts the lemmas together.

This file has the shape of expressions, their numbers, and the constructors of a given `Arith`.
-/

set_option autoImplicit false

namespace ErrorBars
namespace Expr

/-- All variables satisfy a condition. -/
def Over (S : String → Prop) (e : Expr) : Prop := ∀ s ∈ e.symbolList, S s

/-- All variables of several expressions satisfy a condition. -/
def OverAll (S : String → Prop) (es : List Expr) : Prop := ∀ e ∈ es, Over S e

variable {S : String → Prop}

/-! ## Lists -/

theorem over_of_mem {e : Expr} {es : List Expr} (he : e ∈ es) (h : OverAll S es) :
    Over S e := h e he

grind_pattern over_of_mem => e ∈ es, Over S e

@[simp, grind ←] theorem overAll_nil : OverAll S [] := fun _ h => absurd h List.not_mem_nil

@[simp, grind =] theorem overAll_cons {e : Expr} {es : List Expr} :
    OverAll S (e :: es) ↔ Over S e ∧ OverAll S es := List.forall_mem_cons

@[simp, grind =] theorem overAll_append {es fs : List Expr} :
    OverAll S (es ++ fs) ↔ OverAll S es ∧ OverAll S fs := List.forall_mem_append

theorem overAll_of_subset {es fs : List Expr} (hsub : ∀ e ∈ es, e ∈ fs) (h : OverAll S fs) :
    OverAll S es := fun e he => h e (hsub e he)

@[grind ←] theorem overAll_filter {p : Expr → Bool} {es : List Expr} (h : OverAll S es) :
    OverAll S (es.filter p) := overAll_of_subset (fun _ he => (List.mem_filter.1 he).1) h

grind_pattern overAll_filter => es.filter p, OverAll S es

@[grind ←] theorem overAll_reverse {es : List Expr} (h : OverAll S es) : OverAll S es.reverse :=
  overAll_of_subset (fun _ he => List.mem_reverse.1 he) h

@[grind ←] theorem overAll_sortArgs {es : List Expr} (h : OverAll S es) : OverAll S (sortArgs es) :=
  overAll_of_subset (fun _ he => (List.mergeSort_perm _ _).mem_iff.1 he) h

/-- Equality of expressions is only a test here, so the library's lemma on members does not apply. -/
@[grind ←] theorem overAll_eraseDups : ∀ {es : List Expr}, OverAll S es → OverAll S es.eraseDups
  | [], _ => overAll_nil
  | e :: es, h => by
    rw [List.eraseDups_cons]
    have hes := overAll_cons.1 h
    exact overAll_cons.2 ⟨hes.1, overAll_eraseDups (overAll_filter hes.2)⟩
termination_by es => es.length
decreasing_by exact Nat.lt_succ_of_le (List.length_filter_le _ _)

@[grind ←] theorem overAll_map {α : Type} {f : α → Expr} {xs : List α}
    (h : ∀ x ∈ xs, Over S (f x)) : OverAll S (xs.map f) := List.forall_mem_map.2 h

@[grind ←] theorem overAll_flatMap {α : Type} {f : α → List Expr} {xs : List α}
    (h : ∀ x ∈ xs, OverAll S (f x)) : OverAll S (xs.flatMap f) := by
  intro e he
  obtain ⟨x, hx, he⟩ := List.mem_flatMap.1 he
  exact h x hx e he

@[grind ←] theorem overAll_filterMap {α : Type} {f : α → Option Expr} {xs : List α}
    (h : ∀ x ∈ xs, ∀ e, f x = some e → Over S e) : OverAll S (xs.filterMap f) := by
  intro e he
  obtain ⟨x, hx, he⟩ := List.mem_filterMap.1 he
  exact h x hx e he

/-- What a loop keeps to if each of its steps does. -/
@[grind ←] theorem over_foldl {α : Type} {f : Expr → α → Expr} {xs : List α} {e : Expr}
    (he : Over S e) (h : ∀ e, Over S e → ∀ x ∈ xs, Over S (f e x)) : Over S (xs.foldl f e) :=
  List.foldlRecOn _ _ he h

/-- The library has these two as equivalences, which do not serve to go forward. -/
@[grind →] theorem exists_of_map_eq_some {α β : Type} {o : Option α} {f : α → β} {y : β}
    (h : o.map f = some y) : ∃ x, o = some x ∧ f x = y := Option.map_eq_some_iff.1 h

@[grind →] theorem exists_of_bind_eq_some {α β : Type} {o : Option α} {f : α → Option β} {y : β}
    (h : o.bind f = some y) : ∃ x, o = some x ∧ f x = some y := Option.bind_eq_some_iff.1 h

theorem overAll_mapM {α : Type} {f : α → Option Expr} {xs : List α} {es : List Expr}
    (h : xs.mapM f = some es) (hf : ∀ x ∈ xs, ∀ e, f x = some e → Over S e) : OverAll S es := by
  induction xs generalizing es with
  | nil => simp_all
  | cons x xs ih =>
    rw [List.mapM_cons] at h
    obtain ⟨y, hy, h⟩ := exists_of_bind_eq_some h
    obtain ⟨ys, hys, h⟩ := exists_of_bind_eq_some h
    obtain rfl := Option.some.inj h
    have := ih hys
    grind

grind_pattern overAll_mapM => xs.mapM f, some es, OverAll S es

/-- Pairs of expressions are over these variables. -/
def PairsOver (S : String → Prop) (ps : List (Expr × Expr)) : Prop :=
  ∀ p ∈ ps, Over S p.1 ∧ Over S p.2

@[grind →] theorem over_of_mem_pairs {p : Expr × Expr} {ps : List (Expr × Expr)} (hp : p ∈ ps)
    (h : PairsOver S ps) : Over S p.1 ∧ Over S p.2 := h p hp

grind_pattern over_of_mem_pairs => p ∈ ps, Over S p.1
grind_pattern over_of_mem_pairs => p ∈ ps, Over S p.2

@[simp, grind ←] theorem pairsOver_nil : PairsOver S [] := fun _ h => absurd h List.not_mem_nil

@[simp, grind =] theorem pairsOver_cons {p : Expr × Expr} {ps : List (Expr × Expr)} :
    PairsOver S (p :: ps) ↔ (Over S p.1 ∧ Over S p.2) ∧ PairsOver S ps := List.forall_mem_cons

@[simp, grind =] theorem pairsOver_append {ps qs : List (Expr × Expr)} :
    PairsOver S (ps ++ qs) ↔ PairsOver S ps ∧ PairsOver S qs := List.forall_mem_append

@[grind ←] theorem pairsOver_reverse {ps : List (Expr × Expr)} (h : PairsOver S ps) :
    PairsOver S ps.reverse := fun p hp => h p (List.mem_reverse.1 hp)

@[grind ←] theorem pairsOver_map {α : Type} {f : α → Expr × Expr} {xs : List α}
    (h : ∀ x ∈ xs, Over S (f x).1 ∧ Over S (f x).2) : PairsOver S (xs.map f) :=
  List.forall_mem_map.2 h

/-- The first members of pairs are over these variables. -/
def FirstsOver {α : Type} (S : String → Prop) (ps : List (Expr × α)) : Prop :=
  ∀ p ∈ ps, Over S p.1

theorem over_of_mem_firsts {α : Type} {p : Expr × α} {ps : List (Expr × α)} (hp : p ∈ ps)
    (h : FirstsOver S ps) : Over S p.1 := h p hp

grind_pattern over_of_mem_firsts => p ∈ ps, Over S p.1
grind_pattern over_of_mem_firsts => p ∈ ps, FirstsOver S ps

@[simp, grind ←] theorem firstsOver_nil {α : Type} : FirstsOver S ([] : List (Expr × α)) :=
  fun _ h => absurd h List.not_mem_nil

@[simp, grind =] theorem firstsOver_cons {α : Type} {p : Expr × α} {ps : List (Expr × α)} :
    FirstsOver S (p :: ps) ↔ Over S p.1 ∧ FirstsOver S ps := List.forall_mem_cons

@[simp, grind =] theorem firstsOver_append {α : Type} {ps qs : List (Expr × α)} :
    FirstsOver S (ps ++ qs) ↔ FirstsOver S ps ∧ FirstsOver S qs := List.forall_mem_append

@[grind ←] theorem firstsOver_map {α β : Type} {f : β → Expr × α} {xs : List β}
    (h : ∀ x ∈ xs, Over S (f x).1) : FirstsOver S (xs.map f) := List.forall_mem_map.2 h

@[grind ←] theorem firstsOver_filterMap {α β : Type} {f : β → Option (Expr × α)} {xs : List β}
    (h : ∀ x ∈ xs, ∀ p, f x = some p → Over S p.1) : FirstsOver S (xs.filterMap f) := by
  intro p hp
  obtain ⟨x, hx, hp⟩ := List.mem_filterMap.1 hp
  exact h x hx p hp

@[grind ←] theorem firstsOver_filter {α : Type} {p : Expr × α → Bool} {ps : List (Expr × α)}
    (h : FirstsOver S ps) : FirstsOver S (ps.filter p) := fun q hq => h q (List.mem_filter.1 hq).1

/-- The second members of pairs are over these variables. -/
def SecondsOver {α : Type} (S : String → Prop) (ps : List (α × Expr)) : Prop :=
  ∀ p ∈ ps, Over S p.2

theorem over_of_mem_seconds {α : Type} {p : α × Expr} {ps : List (α × Expr)} (hp : p ∈ ps)
    (h : SecondsOver S ps) : Over S p.2 := h p hp

grind_pattern over_of_mem_seconds => p ∈ ps, Over S p.2
grind_pattern over_of_mem_seconds => p ∈ ps, SecondsOver S ps

@[simp, grind ←] theorem secondsOver_nil {α : Type} : SecondsOver S ([] : List (α × Expr)) :=
  fun _ h => absurd h List.not_mem_nil

@[simp, grind =] theorem secondsOver_cons {α : Type} {p : α × Expr} {ps : List (α × Expr)} :
    SecondsOver S (p :: ps) ↔ Over S p.2 ∧ SecondsOver S ps := List.forall_mem_cons

@[simp, grind =] theorem secondsOver_append {α : Type} {ps qs : List (α × Expr)} :
    SecondsOver S (ps ++ qs) ↔ SecondsOver S ps ∧ SecondsOver S qs := List.forall_mem_append

@[grind ←] theorem secondsOver_map {α β : Type} {f : β → α × Expr} {xs : List β}
    (h : ∀ x ∈ xs, Over S (f x).2) : SecondsOver S (xs.map f) := List.forall_mem_map.2 h

@[grind ←] theorem secondsOver_filterMap {α β : Type} {f : β → Option (α × Expr)} {xs : List β}
    (h : ∀ x ∈ xs, ∀ p, f x = some p → Over S p.2) : SecondsOver S (xs.filterMap f) := by
  intro p hp
  obtain ⟨x, hx, hp⟩ := List.mem_filterMap.1 hp
  exact h x hx p hp

@[grind ←] theorem secondsOver_filter {α : Type} {p : α × Expr → Bool} {ps : List (α × Expr)}
    (h : SecondsOver S ps) : SecondsOver S (ps.filter p) := fun q hq => h q (List.mem_filter.1 hq).1

/-! ## Leaves and applications -/

theorem forall_mem_symbolLists {as : List Expr} :
    (∀ s ∈ symbolLists as, S s) ↔ OverAll S as := by
  induction as with
  | nil => exact iff_of_true (List.forall_mem_nil _) overAll_nil
  | cons a as ih => exact List.forall_mem_append.trans ((and_congr_right' ih).trans overAll_cons.symm)

@[simp, grind =] theorem over_symbol {s : String} : Over S (.symbol s) ↔ S s :=
  List.forall_mem_singleton

@[simp, grind ←] theorem over_rat (q : Rat) : Over S (.rat q) :=
  List.forall_mem_nil _

@[simp, grind ←] theorem over_float (x : Binary) (bits : Nat) : Over S (.float x bits) :=
  List.forall_mem_nil _

@[simp, grind ←] theorem over_const (c : Const) : Over S (.const c) :=
  List.forall_mem_nil _

@[simp, grind ←] theorem over_dummy (s : String) : Over S (.dummy s) :=
  List.forall_mem_nil _

@[simp, grind =] theorem over_app {h : Head} {as : List Expr} :
    Over S (.app h as) ↔ OverAll S as := forall_mem_symbolLists

/-! ## Building blocks -/

@[simp, grind ←] theorem over_int (n : Int) : Over S (int n) := over_rat n

@[simp, grind ←] theorem over_zero : Over S zero := over_rat 0

@[simp, grind ←] theorem over_one : Over S one := over_rat 1

@[simp, grind ←] theorem over_minusOne : Over S minusOne := over_rat (-1)

@[simp, grind ←] theorem over_half : Over S half := over_rat (1 / 2)

@[simp, grind ←] theorem over_pi : Over S pi := over_const _

@[simp, grind ←] theorem over_euler : Over S euler := over_const _

@[simp, grind ←] theorem over_imaginary : Over S imaginary := over_const _

@[simp, grind ←] theorem over_infinity : Over S infinity := over_const _

@[simp, grind ←] theorem over_complexInfinity : Over S complexInfinity := over_const _

@[simp, grind ←] theorem over_undefined : Over S undefined := over_const _

@[simp, grind =] theorem over_rawAdd {ts : List Expr} :
    Over S (rawAdd ts) ↔ OverAll S ts := over_app

@[simp, grind =] theorem over_rawMul {fs : List Expr} :
    Over S (rawMul fs) ↔ OverAll S fs := over_app

@[simp, grind =] theorem over_rawPow {b e : Expr} :
    Over S (rawPow b e) ↔ Over S b ∧ Over S e := by
  simp [rawPow]

@[simp, grind =] theorem over_rawFn {f : Func} {as : List Expr} :
    Over S (rawFn f as) ↔ OverAll S as := over_app

@[grind =] theorem over_rawAdd_pair {a b : Expr} :
    Over S (rawAdd [a, b]) ↔ Over S a ∧ Over S b := by simp

@[grind =] theorem over_rawMul_pair {a b : Expr} :
    Over S (rawMul [a, b]) ↔ Over S a ∧ Over S b := by simp

@[grind =] theorem over_rawFn_single {f : Func} {a : Expr} : Over S (rawFn f [a]) ↔ Over S a := by
  simp

@[simp, grind =] theorem over_bounds {a b : Expr} :
    Over S (bounds a b) ↔ Over S a ∧ Over S b := by
  simp [bounds]

@[grind ←] theorem over_productOf {fs : List Expr} (h : OverAll S fs) :
    Over S (productOf fs) := by
  unfold productOf
  split
  · exact over_one
  · exact h _ (List.mem_singleton_self _)
  · exact over_rawMul.2 h

@[grind ←] theorem over_sumOf {ts : List Expr} (h : OverAll S ts) : Over S (sumOf ts) := by
  unfold sumOf
  split
  · exact over_zero
  · exact h _ (List.mem_singleton_self _)
  · exact over_rawAdd.2 h

/-- An operation that may have no result, with another result instead. -/
@[grind ←] theorem over_getD {o : Option Expr} {d : Expr} (ho : ∀ e, o = some e → Over S e)
    (hd : Over S d) : Over S (o.getD d) := by
  cases o with
  | none => exact hd
  | some e => exact ho e rfl

/-! ## Shape -/

@[grind ←] theorem overAll_terms {e : Expr} (h : Over S e) : OverAll S e.terms := by
  unfold terms
  split
  · exact over_app.1 h
  · simpa using h

@[grind ←] theorem overAll_factors {e : Expr} (h : Over S e) : OverAll S e.factors := by
  unfold factors
  split
  · exact over_app.1 h
  · simpa using h

@[grind ←] theorem overAll_args {e : Expr} (h : Over S e) : OverAll S e.args := by
  unfold args
  split
  · exact over_app.1 h
  · exact overAll_nil

/-- Nothing of a power is lost or gained when it is taken apart. -/
theorem over_baseExp {e : Expr} (h : Over S e) :
    Over S e.baseExp.1 ∧ Over S e.baseExp.2 := by
  unfold baseExp
  split
  · rename_i q x
    have hx : Over S x := over_app.1 h x (by simp)
    split
    · refine ⟨over_rat _, ?_⟩
      split <;> grind
    · exact ⟨over_rat _, hx⟩
  all_goals grind

grind_pattern over_baseExp => Over S e, e.baseExp

theorem over_coeffMul {e : Expr} (h : Over S e) :
    Over S e.coeffMul.1 ∧ Over S e.coeffMul.2 := by
  unfold coeffMul
  split <;> grind

grind_pattern over_coeffMul => Over S e, e.coeffMul

theorem over_ratCoeffMul {e : Expr} (h : Over S e) : Over S e.ratCoeffMul.2 := by
  unfold ratCoeffMul
  split <;> grind

grind_pattern over_ratCoeffMul => Over S e, e.ratCoeffMul

theorem over_coeffAdd {e : Expr} (h : Over S e) :
    Over S e.coeffAdd.1 ∧ Over S e.coeffAdd.2 := by
  unfold coeffAdd
  split <;> grind

grind_pattern over_coeffAdd => Over S e, e.coeffAdd

/-! ## Traversals -/

/-- Rebuilding keeps to what the leaves and the nodes are over.  What the leaves come to may be over
other variables than the leaves. -/
theorem over_foldUp_leaves {T : String → Prop} {leaf : Expr → Expr}
    {node : Head → List Expr → Expr}
    (hleaf : ∀ e, (∀ h as, e ≠ .app h as) → Over S e → Over T (leaf e))
    (hnode : ∀ h as, OverAll T as → Over T (node h as)) :
    ∀ e, Over S e → Over T (foldUp leaf node e)
  | .app h as, he => hnode h _ (over_foldUpAll hleaf hnode as (over_app.1 he))
  | .rat _, he | .float _ _, he | .const _, he | .symbol _, he | .dummy _, he =>
    hleaf _ (fun _ _ h => by cases h) he
where
  /-- The same of several expressions. -/
  over_foldUpAll {T : String → Prop} {leaf : Expr → Expr} {node : Head → List Expr → Expr}
      (hleaf : ∀ e, (∀ h as, e ≠ .app h as) → Over S e → Over T (leaf e))
      (hnode : ∀ h as, OverAll T as → Over T (node h as)) :
      ∀ es, OverAll S es → OverAll T (foldUpAll leaf node es)
    | [], _ => by simp [foldUpAll]
    | e :: es, hes => by
      rw [foldUpAll, overAll_cons]
      exact ⟨over_foldUp_leaves hleaf hnode e (hes e List.mem_cons_self),
        over_foldUpAll hleaf hnode es fun x hx => hes x (List.mem_cons_of_mem e hx)⟩

/-- Rebuilding keeps to what the leaves and the nodes are over. -/
theorem over_foldUp {leaf : Expr → Expr} {node : Head → List Expr → Expr}
    (hleaf : ∀ e, Over S e → Over S (leaf e))
    (hnode : ∀ h as, OverAll S as → Over S (node h as)) (e : Expr) (he : Over S e) :
    Over S (foldUp leaf node e) := over_foldUp_leaves (fun e _ he => hleaf e he) hnode e he

mutual

/-- The parts of an expression are over the same variables. -/
theorem over_partsWith {p : Expr → Bool} :
    ∀ {e : Expr}, Over S e → OverAll S (partsWith p e)
  | .app h as, he => by
    have hparts := over_partsOf (p := p) (over_app.1 he)
    grind [partsWith]
  | .rat _, he | .float _ _, he | .const _, he | .symbol _, he | .dummy _, he => by
    grind [partsWith]

theorem over_partsOf {p : Expr → Bool} :
    ∀ {es : List Expr}, OverAll S es → OverAll S (partsOf p es)
  | [], _ => by simp [partsOf]
  | e :: es, hes => by
    have hhead := over_partsWith (p := p) (hes e List.mem_cons_self)
    have htail := over_partsOf (p := p) fun x hx => hes x (List.mem_cons_of_mem e hx)
    grind [partsOf]

end

/-! ## Numbers -/

@[simp, grind ←] theorem over_approx (x : Binary) (bits : Nat) : Over S (approx x bits) := by
  unfold approx
  split
  · exact over_zero
  · exact over_float _ _

@[simp, grind ←] theorem over_ofExtended (bits : Nat) (x : Extended) :
    Over S (ofExtended bits x) := by
  cases x with
  | number x => exact over_approx x bits
  | infinite negative => exact over_const _
  | undefined => exact over_undefined

@[simp, grind ←] theorem over_addNumbers (a b : Expr) : Over S (addNumbers a b) := by
  unfold addNumbers
  split
  · exact over_rat _
  · exact over_ofExtended _ _

@[simp, grind ←] theorem over_mulNumbers (a b : Expr) : Over S (mulNumbers a b) := by
  unfold mulNumbers
  split
  · exact over_rat _
  · exact over_ofExtended _ _

@[grind ←] theorem over_sumNumbers {ns : List Expr} (h : OverAll S ns) :
    Over S (sumNumbers ns) := by
  unfold sumNumbers
  split
  · exact over_zero
  · exact List.foldlRecOn _ _ (h _ List.mem_cons_self) fun _ _ _ _ => over_addNumbers _ _

@[grind ←] theorem over_negNumber {e : Expr} (h : Over S e) : Over S (negNumber e) := by
  unfold negNumber
  split <;> grind

@[grind ←] theorem over_absNumber {e : Expr} (h : Over S e) : Over S (absNumber e) := by
  unfold absNumber
  split <;> grind

@[simp, grind ←] theorem over_divNumbers (a b : Expr) : Over S (divNumbers a b) := by
  unfold divNumbers
  split
  · exact over_rat _
  · simp only
    split
    · exact over_approx _ _
    · exact over_undefined

end Expr

/-! ## The constructors of an arithmetic -/

open Expr (Over OverAll)

/-- The constructors make up no variables. -/
structure Arith.Preserves (S : String → Prop) (A : Arith) : Prop where
  /-- of sums -/
  sum : ∀ {es}, OverAll S es → Over S (A.sum es)
  /-- of products -/
  product : ∀ {es}, OverAll S es → Over S (A.product es)
  /-- of powers -/
  power : ∀ {b e}, Over S b → Over S e → Over S (A.power b e)
  /-- of functions -/
  apply : ∀ {f es}, OverAll S es → Over S (A.apply f es)

namespace Arith

variable {S : String → Prop} {A : Arith}

/-- Where numbers alone are computed, everything else is an argument or a part of one. -/
theorem over_plainSum {es : List Expr} (h : OverAll S es) : Over S (plainSum es) := by
  rw [plainSum]
  split
  · exact Expr.over_rat _
  · exact Expr.over_sumOf h

theorem over_plainProduct {es : List Expr} (h : OverAll S es) : Over S (plainProduct es) := by
  rw [plainProduct]
  split
  · exact Expr.over_rat _
  · exact Expr.over_productOf (Expr.overAll_flatMap fun e he => Expr.overAll_factors (h e he))

theorem over_plainRawPower {b : Expr} (r : Rat) (h : Over S b) : Over S (plainRawPower b r) := by
  rw [plainRawPower]
  split
  · exact Expr.over_one
  · split
    · exact h
    · exact Expr.over_rawPow.2 ⟨h, Expr.over_rat _⟩

theorem over_plainWholePower (n : Int) {b : Expr} (h : Over S b) :
    Over S (plainWholePower n b) := by
  rw [plainWholePower.eq_def]
  split
  · split
    · exact Expr.over_rawPow.2 ⟨h, Expr.over_int _⟩
    · exact Expr.over_rat _
  · exact over_plainRawPower _ (Expr.over_rawPow.1 h).1
  · exact over_plainRawPower _ h

theorem over_plainPower {b e : Expr} (hb : Over S b) (he : Over S e) :
    Over S (plainPower b e) := by
  unfold plainPower
  split
  · refine over_plainProduct (Expr.overAll_map fun f hf => over_plainWholePower _ ?_)
    exact Expr.over_app.1 hb f hf
  · exact over_plainWholePower _ hb
  · exact Expr.over_rawPow.2 ⟨hb, he⟩

theorem preserves_plain : plain.Preserves S where
  sum h := over_plainSum h
  product h := over_plainProduct h
  power hb he := over_plainPower hb he
  apply h := Expr.over_rawFn.2 h

@[grind ←] theorem over_sum {es : List Expr} (hA : A.Preserves S) (h : OverAll S es) :
    Over S (A.sum es) := hA.sum h

@[grind ←] theorem over_product {es : List Expr} (hA : A.Preserves S) (h : OverAll S es) :
    Over S (A.product es) := hA.product h

@[grind ←] theorem over_power {b e : Expr} (hA : A.Preserves S) (hb : Over S b) (he : Over S e) :
    Over S (A.power b e) := hA.power hb he

@[grind ←] theorem over_apply {f : Func} {es : List Expr} (hA : A.Preserves S)
    (h : OverAll S es) : Over S (A.apply f es) := hA.apply h

variable {a b c : Expr}

/-! Short lists have lemmas of their own, which keeps the searches of `grind` shallow. -/

@[grind ←] theorem over_sum_pair (hA : A.Preserves S) (ha : Over S a) (hb : Over S b) :
    Over S (A.sum [a, b]) := hA.sum (by simp [ha, hb])

@[grind ←] theorem over_sum_triple (hA : A.Preserves S) (ha : Over S a) (hb : Over S b)
    (hc : Over S c) : Over S (A.sum [a, b, c]) := hA.sum (by simp [ha, hb, hc])

@[grind ←] theorem over_product_pair (hA : A.Preserves S) (ha : Over S a) (hb : Over S b) :
    Over S (A.product [a, b]) := hA.product (by simp [ha, hb])

@[grind ←] theorem over_product_triple (hA : A.Preserves S) (ha : Over S a) (hb : Over S b)
    (hc : Over S c) : Over S (A.product [a, b, c]) := hA.product (by simp [ha, hb, hc])

@[grind ←] theorem over_apply_single {f : Func} (hA : A.Preserves S) (ha : Over S a) :
    Over S (A.apply f [a]) := hA.apply (by simp [ha])

@[grind ←] theorem over_apply_pair {f : Func} (hA : A.Preserves S) (ha : Over S a)
    (hb : Over S b) : Over S (A.apply f [a, b]) := hA.apply (by simp [ha, hb])

@[grind ←] theorem over_mul (hA : A.Preserves S) (ha : Over S a) (hb : Over S b) :
    Over S (A.mul a b) := over_product_pair hA ha hb

@[grind ←] theorem over_add (hA : A.Preserves S) (ha : Over S a) (hb : Over S b) :
    Over S (A.add a b) := over_sum_pair hA ha hb

@[grind ←] theorem over_neg (hA : A.Preserves S) (ha : Over S a) : Over S (A.neg a) :=
  over_product_pair hA Expr.over_minusOne ha

@[grind ←] theorem over_sub (hA : A.Preserves S) (ha : Over S a) (hb : Over S b) :
    Over S (A.sub a b) := over_sum_pair hA ha (over_neg hA hb)

@[grind ←] theorem over_inv (hA : A.Preserves S) (ha : Over S a) : Over S (A.inv a) :=
  hA.power ha Expr.over_minusOne

@[grind ←] theorem over_div (hA : A.Preserves S) (ha : Over S a) (hb : Over S b) :
    Over S (A.div a b) := over_product_pair hA ha (over_inv hA hb)

@[grind ←] theorem over_sqrt (hA : A.Preserves S) (ha : Over S a) : Over S (A.sqrt a) :=
  hA.power ha Expr.over_half

@[grind ←] theorem over_timesNumber {c e : Expr} (hA : A.Preserves S) (hc : Over S c)
    (he : Over S e) : Over S (A.timesNumber c e) := by
  rw [timesNumber]
  split
  · exact Expr.over_app.2 (List.forall_mem_cons.2 ⟨hc, Expr.overAll_factors he⟩)
  · exact over_mul hA hc he

@[grind ←] theorem over_keepCoeff {c e : Expr} (hA : A.Preserves S) (hc : Over S c) (he : Over S e) :
    Over S (A.keepCoeff c e) := by
  unfold keepCoeff
  split <;> grind

end Arith
end ErrorBars
