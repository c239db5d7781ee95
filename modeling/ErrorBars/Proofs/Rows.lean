import ErrorBars.Proofs.Calculate
import ErrorBars.Proofs.Compatible
import Mathlib.Data.List.Forall2
import Mathlib.Data.List.Perm.Basic

/-!
# Series row by row

A series takes the rows of a table one after the other.  Nothing but the state goes from one row to
the next, and what listeners have done to it does not reach the calculations (`Course`).

* Rows can be picked from a table, in any order: `pick`, applied to all its lists.  The series of
  what has been picked goes through these rows (`series_pick`), so that a series of several rows can
  be cut anywhere.
* If listeners let no fault escape, the answer is put together from those of the rows
  (`runs_calculateRows`).
* The listeners of a session do not look at what they are told, except that some slopes cannot be
  written down.  As that depends on the derivative alone, two rows of a table that have results run
  abreast: they wake the same listeners, who do the same, and leave states that differ in their logs
  only (`parallel_calculate`).  So the order of the rows decides on nothing but the order of the
  results.

`series_rows` puts these together.
-/

set_option autoImplicit false

namespace ErrorBars

/-! ## Tables -/

/-- The items at some places, in the order of the places. -/
def pick {α : Type} (order : List Nat) (items : List α) : List α := order.filterMap (items[·]?)

/-- Changes all lists of a table in the same way. -/
def onLists (f : List Datum → List Datum) (entries : List (Datum × Datum)) : List (Datum × Datum) :=
  entries.map fun e => (e.1, match e.2 with
    | .list items => .list (f items)
    | constant => constant)

/-- A table with at least one list, in which all lists have the same length. -/
structure Columns (n : Nat) (entries : List (Datum × Datum)) : Prop where
  /-- there is a list -/
  some_list : ∃ key items, (key, .list items) ∈ entries
  /-- all lists have this length -/
  length_eq : ∀ key items, (key, .list items) ∈ entries → items.length = n

section

variable {α : Type}

theorem pick_cons {order : List Nat} {items : List α} {i : Nat} (h : i < items.length) :
    pick (i :: order) items = items[i] :: pick order items := by
  rw [pick, List.filterMap_cons_some (List.getElem?_eq_getElem h), pick]

theorem getElem?_pick {order : List Nat} {items : List α} (h : ∀ i ∈ order, i < items.length)
    (j : Nat) : (pick order items)[j]? = order[j]?.bind (items[·]?) := by
  induction order generalizing j with
  | nil => rfl
  | cons i order ih =>
    rw [pick_cons (h i List.mem_cons_self)]
    cases j with
    | zero => simp [h i List.mem_cons_self]
    | succ j => simpa using ih (fun i hi => h i (List.mem_cons_of_mem _ hi)) j

theorem length_pick {order : List Nat} {items : List α} (h : ∀ i ∈ order, i < items.length) :
    (pick order items).length = order.length := by
  induction order with
  | nil => rfl
  | cons i order ih =>
    rw [pick_cons (h i List.mem_cons_self), List.length_cons, List.length_cons,
      ih fun i hi => h i (List.mem_cons_of_mem _ hi)]

theorem pick_range' (items : List α) (k m : Nat) (h : k + m ≤ items.length) :
    pick (List.range' k m) items = (items.drop k).take m := by
  induction m generalizing k with
  | zero => rw [List.take_zero]; rfl
  | succ m ih =>
    rw [List.range'_succ, pick_cons (by omega), ih (k + 1) (by omega),
      ← List.getElem_cons_drop (show k < items.length by omega), List.take_succ_cons]

theorem mapM_congr_left {β φ : Type} {f g : α → Except φ β} {xs : List α}
    (h : ∀ x ∈ xs, f x = g x) : xs.mapM f = xs.mapM g := by
  induction xs with
  | nil => rfl
  | cons x xs ih =>
    rw [List.mapM_cons, List.mapM_cons, h x List.mem_cons_self,
      ih fun y hy => h y (List.mem_cons_of_mem _ hy)]

end

theorem columnLengths_eq (entries : List (Datum × Datum)) :
    columnLengths entries = entries.filterMap fun e => match e.2 with
      | .list items => some items.length
      | _ => none := by
  induction entries with
  | nil => rfl
  | cons e entries ih =>
    obtain ⟨key, d⟩ := e
    cases d <;> simp [columnLengths, ih]

theorem eraseDups_eq_singleton {lengths : List Nat} {n : Nat} (hne : lengths ≠ [])
    (h : ∀ l ∈ lengths, l = n) : lengths.eraseDups = [n] := by
  cases lengths with
  | nil => exact absurd rfl hne
  | cons l lengths =>
    have hrest : lengths.filter (fun m => !m == l) = [] := by
      rw [List.filter_eq_nil_iff]
      intro m hm
      rw [h l List.mem_cons_self, h m (List.mem_cons_of_mem _ hm)]
      simp
    rw [List.eraseDups_cons, hrest, h l List.mem_cons_self]
    rfl

namespace Columns

variable {n : Nat} {entries : List (Datum × Datum)}

theorem rows (h : Columns n entries) :
    rows (.mapping entries) = .ok ((List.range n).map (row entries)) := by
  obtain ⟨key, items, hmem⟩ := h.some_list
  have hsome : items.length ∈ columnLengths entries := by
    rw [columnLengths_eq, List.mem_filterMap]
    exact ⟨_, hmem, rfl⟩
  have hall : ∀ l ∈ columnLengths entries, l = n := by
    intro l hl
    rw [columnLengths_eq, List.mem_filterMap] at hl
    obtain ⟨⟨key, d⟩, hd, hlength⟩ := hl
    cases d with
    | list items =>
      cases hlength
      exact h.length_eq key items hd
    | _ => cases hlength
  rw [ErrorBars.rows, tableRows, eraseDups_eq_singleton (List.ne_nil_of_mem hsome) hall]

theorem onLists (h : Columns n entries) {f : List Datum → List Datum} {m : Nat}
    (hf : ∀ items, items.length = n → (f items).length = m) :
    Columns m (onLists f entries) where
  some_list := by
    obtain ⟨key, items, hmem⟩ := h.some_list
    exact ⟨key, f items, List.mem_map.2 ⟨_, hmem, rfl⟩⟩
  length_eq key items hmem := by
    obtain ⟨⟨key', d⟩, hd, heq⟩ := List.mem_map.1 hmem
    cases d with
    | list given =>
      cases heq
      exact hf given (h.length_eq key' given hd)
    | _ => cases heq

/-- Lists of one length are changed alike by functions that agree on that length. -/
theorem onLists_congr (h : Columns n entries) {f g : List Datum → List Datum}
    (hfg : ∀ items, items.length = n → f items = g items) :
    ErrorBars.onLists f entries = ErrorBars.onLists g entries := by
  refine List.map_congr_left fun e he => ?_
  obtain ⟨key, d⟩ := e
  cases d with
  | list items => simp only [hfg items (h.length_eq key items he)]
  | _ => rfl

theorem onLists_id (h : Columns n entries) {f : List Datum → List Datum}
    (hf : ∀ items, items.length = n → f items = items) : ErrorBars.onLists f entries = entries := by
  rw [h.onLists_congr (show ∀ items, _ → f items = id items from hf), ErrorBars.onLists]
  refine List.map_id'' (fun e => ?_) entries
  obtain ⟨key, d⟩ := e
  cases d <;> rfl

/-- The rows of what has been picked are those that have been picked. -/
theorem rows_pick (h : Columns n entries) {order : List Nat} (horder : ∀ i ∈ order, i < n) :
    ErrorBars.rows (.mapping (ErrorBars.onLists (pick order) entries)) = .ok (order.map (row entries)) := by
  have hlength : ∀ items : List Datum, items.length = n → (pick order items).length = order.length :=
    fun items hitems => length_pick fun i hi => hitems ▸ horder i hi
  rw [(h.onLists hlength).rows]
  congr 1
  refine List.ext_getElem (by simp) fun j hj hj' => ?_
  simp only [List.length_map] at hj'
  simp only [List.getElem_map, List.getElem_range, row, ErrorBars.onLists, List.map_map]
  refine List.map_congr_left fun e he => ?_
  obtain ⟨key, d⟩ := e
  cases d with
  | list items =>
    have hitems := h.length_eq key items he
    simp only [Function.comp, rowEntry]
    rw [List.getD_eq_getElem?_getD, getElem?_pick (fun i hi => hitems ▸ horder i hi),
      List.getElem?_eq_getElem hj', List.getD_eq_getElem?_getD]
    rfl
  | _ => rfl

end Columns

namespace Propagator

open Watched

variable {ε : Type}

/-! ## Series -/

theorem series_eq (emit : Event → Call ε Unit) (mode : Correlation) (expression : Datum)
    {inputs : Datum} {table : List (List (Datum × Datum))} (h : rows inputs = .ok table)
    (hne : table ≠ []) :
    series emit mode expression inputs = calculateRows emit mode expression table := by
  rw [series, h]
  cases table with
  | nil => exact absurd rfl hne
  | cons row rest => rfl

/-- **The series of what has been picked** from a table goes through the rows that have been
picked. -/
theorem series_pick (emit : Event → Call ε Unit) (mode : Correlation) (expression : Datum) {n : Nat}
    {entries : List (Datum × Datum)} (h : Columns n entries) {order : List Nat}
    (horder : ∀ i ∈ order, i < n) (hne : order ≠ []) :
    series emit mode expression (.mapping (onLists (pick order) entries)) =
      calculateRows emit mode expression (order.map (row entries)) :=
  series_eq emit mode expression (h.rows_pick horder) (by simpa using hne)

theorem series_columns (emit : Event → Call ε Unit) (mode : Correlation) (expression : Datum)
    {n : Nat} {entries : List (Datum × Datum)} (h : Columns n entries) (hn : 0 < n) :
    series emit mode expression (.mapping entries) =
      calculateRows emit mode expression ((List.range n).map (row entries)) :=
  series_eq emit mode expression h.rows (by simp; omega)

/-- What a series without rows does once it has told of its arguments. -/
def attempt (expression : Datum) (names : List String) : Call ε (List (Outcome Double)) :=
  match readFormula expression with
  | .error fault => throw (.input fault)
  | .ok source => do
    let _ ← Call.scope (Call.parse source names)
    return []

theorem series_rowless (emit : Event → Call ε Unit) (mode : Correlation) (expression : Datum)
    {inputs : Datum} (h : rows inputs = .ok []) :
    series emit mode expression inputs =
      emit (.input expression inputs) >>= fun _ => attempt expression (keyNames inputs) := by
  rw [series, h]
  rfl

theorem attempt_of_noFormula {expression : Datum} {reason : InputFault}
    (h : readFormula expression = .error reason) (names : List String) (s : CallState ε) :
    attempt expression names s = (.error (.input reason), s) := by
  rw [attempt, h]
  rfl

/-- With a formula, the answer is that of reading it, and the registry is empty in the end. -/
theorem attempt_of_formula {expression : Datum} {source : String}
    (h : readFormula expression = .ok source) (names : List String) (s : CallState ε) :
    attempt expression names s = (match Formula.parse source names with
      | .error fault => .error (.engine (Engine.ofParseFault source fault))
      | .ok _ => .ok [], { s with registry := [] }) := by
  rw [attempt, h]
  simp only [Call.bind_apply, Call.scope_apply]
  cases hf : Formula.parse source names with
  | error fault => rw [Call.parse_error hf]
  | ok f => rw [Call.parse_ok hf]; rfl

/-- A series without rows has no results. -/
theorem series_empty {emit : Event → Call ε Unit} {mode : Correlation} {expression inputs : Datum}
    {s : CallState ε} {results : List (Outcome Double)} (h : rows inputs = .ok [])
    (hok : (series emit mode expression inputs s).1 = .ok results) : results = [] := by
  rw [series_rowless emit mode expression h] at hok
  rcases he : emit (.input expression inputs) s with ⟨fault | _, t⟩
  · rw [Call.bind_error he] at hok
    cases hok
  · rw [Call.bind_ok he] at hok
    cases hread : readFormula expression with
    | error fault =>
      rw [attempt_of_noFormula hread] at hok
      cases hok
    | ok source =>
      rw [attempt_of_formula hread] at hok
      cases hf : Formula.parse source (keyNames inputs) <;> rw [hf] at hok <;> cases hok
      rfl

theorem calculateRows_append (emit : Event → Call ε Unit) (mode : Correlation) (expression : Datum)
    (as bs : List (List (Datum × Datum))) :
    calculateRows emit mode expression (as ++ bs) = do
      let first ← calculateRows emit mode expression as
      let rest ← calculateRows emit mode expression bs
      return first ++ rest := by
  induction as with
  | nil => simp [calculateRows]
  | cons a as ih => simp [calculateRows, ih]

/-! ## The answers of the rows -/

/-- The emissions of a series, those of all its rows together. -/
def seriesEmissions (emit : Event → Call ε Unit) (mode : Correlation) (expression inputs : Datum)
    (s : CallState ε) : List Emission :=
  emissionsIn (series (watched emit) mode expression inputs (frame [] s)).2

/-- A watched series keeps what it hands over, and answers as the series does. -/
theorem seriesEmissions_eq {emit : Event → Call ε Unit} {mode : Correlation}
    {expression inputs : Datum} {s : CallState ε} {new : List Emission}
    (h : Runs (series (watched emit) mode expression inputs) (series emit mode expression inputs)
      s new) :
    seriesEmissions emit mode expression inputs s = new := by
  rw [seriesEmissions, h [], emissionsIn_frame, List.nil_append]

/-- An attempt tells the listeners of nothing. -/
theorem runs_attempt (expression : Datum) (names : List String) (s : CallState ε) :
    Runs (attempt expression names) (attempt expression names) s [] := by
  intro ms
  cases h : readFormula expression with
  | error reason => rw [attempt_of_noFormula h, attempt_of_noFormula h, List.append_nil]
  | ok source =>
    rw [attempt_of_formula h, attempt_of_formula h, List.append_nil]
    rfl

/-- A series without rows tells of its arguments and makes its attempt in the state that this
leaves. -/
theorem runs_rowless (emit : Event → Call ε Unit) (mode : Correlation) (expression : Datum)
    {inputs : Datum} (h : rows inputs = .ok []) (s : CallState ε) :
    ∃ new,
      Runs (series (watched emit) mode expression inputs) (series emit mode expression inputs)
        s new ∧
      (Quiet new → new = [told (.input expression inputs)] ∧
        ∃ t, emit (.input expression inputs) s = (.ok (), t) ∧
          series emit mode expression inputs s = attempt expression (keyNames inputs) t) := by
  have htell := Runs.emit emit (.input expression inputs) s
  rw [series_rowless (watched emit) mode expression h, series_rowless emit mode expression h]
  rcases he : emit (.input expression inputs) s with ⟨fault | _, t⟩ <;> rw [he] at htell
  · exact ⟨_, htell.bind_of_error he, fun hq => absurd hq not_quiet_of_fault⟩
  · exact ⟨_, htell.bind he (runs_attempt expression (keyNames inputs) t),
      fun _ => ⟨rfl, t, rfl, Call.bind_ok he⟩⟩

/-- Rows are calculated one after the other, each of them as by itself.  The induction carries an
arbitrary state, since listeners may have left any behind the row before. -/
theorem runs_calculateRows (emit : Event → Call ε Unit) (mode : Correlation) (expression : Datum)
    (table : List (List (Datum × Datum))) :
    ∀ s, ∃ new,
      Runs (calculateRows (watched emit) mode expression table)
        (calculateRows emit mode expression table) s new ∧
      (Quiet new → (calculateRows emit mode expression table s).1 =
        table.mapM fun r => reference mode expression (.mapping r)) := by
  induction table with
  | nil => exact fun s => ⟨[], Runs.pure [] s, fun _ => rfl⟩
  | cons r rest ih =>
    intro s
    obtain ⟨new, hruns, hquiet⟩ := runs_calculate emit mode expression (.mapping r) s
    rw [calculateRows, calculateRows, List.mapM_cons]
    rcases hr : calculate emit mode expression (.mapping r) s with ⟨fault | x, t⟩
    · refine ⟨new, hruns.bind_of_error hr, fun hq => ?_⟩
      rw [Call.bind_error hr, ← (hquiet hq).2, hr]
      rfl
    · obtain ⟨more, hruns', hquiet'⟩ := ih t
      rw [Call.bind_ok hr]
      refine ⟨new ++ more, hruns.bind hr ?_, fun hq => ?_⟩
      · rcases hrest : calculateRows emit mode expression rest t with ⟨fault | xs, u⟩
        · exact hruns'.bind_of_error hrest
        · exact List.append_nil more ▸ hruns'.bind hrest (Runs.pure _ u)
      · rw [← (hquiet hq.left).2, hr, ← hquiet' hq.right, Call.bind_apply]
        rcases calculateRows emit mode expression rest t with ⟨fault | xs, u⟩ <;> rfl

/-- Rows that succeed have the results that their arguments determine. -/
theorem forall₂_reference {emit : Event → Call ε Unit} {mode : Correlation} {expression : Datum}
    {table : List (List (Datum × Datum))} {s : CallState ε} {results : List (Outcome Double)}
    (h : (calculateRows emit mode expression table s).1 = .ok results) :
    List.Forall₂ (fun r x => reference mode expression (.mapping r) = .ok x) table results := by
  induction table generalizing s results with
  | nil =>
    cases h
    exact .nil
  | cons r rest ih =>
    rw [calculateRows] at h
    rcases hr : calculate emit mode expression (.mapping r) s with ⟨fault | x, t⟩
    · rw [Call.bind_error hr] at h
      cases h
    · rw [Call.bind_ok hr] at h
      rcases hrest : calculateRows emit mode expression rest t with ⟨fault | xs, u⟩
      · rw [Call.bind_error hrest] at h
        cases h
      · rw [Call.bind_ok hrest] at h
        cases h
        exact .cons (reference_of_ok (by rw [hr])) (ih (by rw [hrest]))

/-! ## Calls abreast -/

/-- States that differ in their logs only. -/
def Alike (s t : CallState ε) : Prop := s.registry = t.registry ∧ s.notifier = t.notifier

/-- How two answers go together: both succeed, or both fail for the same reason. -/
inductive Together {α β : Type} (P : α → β → Prop) :
    Except CallFault α → Except CallFault β → Prop where
  /-- both succeed -/
  | ok {x : α} {y : β} (h : P x y) : Together P (.ok x) (.ok y)
  /-- both fail -/
  | error (fault : CallFault) : Together P (.error fault) (.error fault)

/-- Two calls that, starting alike, end alike and answer together. -/
def Parallel {α β : Type} (P : α → β → Prop) (a : Call ε α) (b : Call ε β) : Prop :=
  ∀ s t, Alike s t → Together P (a s).1 (b t).1 ∧ Alike (a s).2 (b t).2

namespace Parallel

variable {α β γ δ : Type}

theorem pure {P : α → β → Prop} {x : α} {y : β} (h : P x y) :
    Parallel P (Pure.pure x : Call ε α) (Pure.pure y) := fun _ _ hst => ⟨.ok h, hst⟩

theorem throw {P : α → β → Prop} (fault : CallFault) :
    Parallel P (MonadExcept.throw fault : Call ε α) (MonadExcept.throw fault) :=
  fun _ _ hst => ⟨.error fault, hst⟩

theorem bind {P : α → β → Prop} {Q : γ → δ → Prop} {a : Call ε α} {b : Call ε β}
    {f : α → Call ε γ} {g : β → Call ε δ} (hab : Parallel P a b)
    (hfg : ∀ x y, P x y → Parallel Q (f x) (g y)) : Parallel Q (a >>= f) (b >>= g) := by
  intro s t hst
  obtain ⟨hanswer, hleft⟩ := hab s t hst
  rcases ha : a s with ⟨fault | x, u⟩ <;> rcases hb : b t with ⟨other | y, v⟩ <;>
    rw [ha, hb] at hanswer hleft
  · cases hanswer
    rw [Call.bind_error ha, Call.bind_error hb]
    exact ⟨.error fault, hleft⟩
  · cases hanswer
  · cases hanswer
  · cases hanswer with
    | ok h =>
      rw [Call.bind_ok ha, Call.bind_ok hb]
      exact hfg x y h u v hleft

theorem scope {P : α → β → Prop} {a : Call ε α} {b : Call ε β} (h : Parallel P a b) :
    Parallel P (Call.scope a) (Call.scope b) := by
  intro s t hst
  obtain ⟨hanswer, -, hnotifier⟩ := h s t hst
  exact ⟨hanswer, rfl, hnotifier⟩

theorem parse (source : String) (names : List String) :
    Parallel Eq (Call.parse source names : Call ε Expr) (Call.parse source names) := by
  intro s t hst
  cases hf : Formula.parse source names with
  | error fault =>
    rw [Call.parse_error hf, Call.parse_error hf]
    exact ⟨.error _, hst⟩
  | ok e =>
    rw [Call.parse_ok hf, Call.parse_ok hf]
    exact ⟨.ok rfl, by simp only [hst.1], hst.2⟩

theorem differentiate (e : Expr) (name : String) :
    Parallel Eq (Call.differentiate e name : Call ε Expr) (Call.differentiate e name) :=
  fun _ _ hst => ⟨.ok rfl, by simp only [Call.differentiate_apply, hst.1], hst.2⟩

theorem compatible : @Compatible ε ε fun a b => Parallel Eq a b where
  pure _ := Parallel.pure rfl
  throw fault := Parallel.throw fault
  bind ha hf := ha.bind fun x _ hxy => hxy ▸ hf x
  scope ha := ha.scope
  parse source names := Parallel.parse source names
  differentiate e name := Parallel.differentiate e name

theorem forM {f g : α → Call ε Unit} (h : ∀ x, Parallel Eq (f x) (g x)) (xs : List α) :
    Parallel Eq (xs.forM f) (xs.forM g) :=
  compatible.forM h xs

end Parallel

/-! ## Listeners of a session -/

/-- Two events of one kind which can both be written down, or neither. -/
def SameKind (e e' : Event) : Prop := e.name = e'.name ∧ e.isWritable = e'.isWritable

/-- Events of one kind do the same to the listeners. -/
def Blind (emit : Event → Call ε Unit) : Prop :=
  ∀ e e', SameKind e e' → Parallel Eq (emit e) (emit e')

theorem parallel_record (entry entry' : LogEntry) :
    Parallel Eq (Session.record entry) (Session.record entry') := fun _ _ hst => ⟨.ok rfl, hst⟩

theorem parallel_changeListeners (event : String) (change : Notifier → Notifier) :
    Parallel Eq (Session.changeListeners event change) (Session.changeListeners event change) := by
  intro s t hst
  rw [Session.changeListeners, Call.bind_ok (Call.get_apply s), Call.bind_ok (Call.get_apply t),
    hst.2]
  cases t.notifier.listeners? event with
  | none => exact ⟨.error _, hst⟩
  | some _ => exact ⟨.ok rfl, hst.1, rfl⟩

theorem parallel_react {nested : Request → Session.Action Unit}
    (hnested : ∀ r, Parallel Eq (nested r) (nested r)) (listener : String) (reaction : Reaction) :
    Parallel Eq (Session.react nested listener reaction)
      (Session.react nested listener reaction) := by
  cases reaction with
  | count => exact fun _ _ hst => ⟨.ok rfl, hst⟩
  | fail message => exact Parallel.throw _
  | on event other => exact parallel_changeListeners event _
  | off event other => exact parallel_changeListeners event _
  | request r => exact hnested r

theorem parallel_tell {nested : Request → Session.Action Unit}
    (hnested : ∀ r, Parallel Eq (nested r) (nested r)) (programs : Programs) {e e' : Event}
    (h : SameKind e e') (listener : String) :
    Parallel Eq (Session.tell nested programs e listener)
      (Session.tell nested programs e' listener) := by
  have hrest : Parallel Eq
      (do
        Session.record (.told listener e)
        (programs.reactions listener).forM (Session.react nested listener))
      (do
        Session.record (.told listener e')
        (programs.reactions listener).forM (Session.react nested listener)) :=
    (parallel_record _ _).bind fun _ _ _ => Parallel.forM (parallel_react hnested listener) _
  rw [Session.tell, Session.tell, h.2]
  split
  · exact (Parallel.throw (P := Eq) _).bind fun _ _ _ => hrest
  · exact hrest

theorem blind_announce {nested : Request → Session.Action Unit}
    (hnested : ∀ r, Parallel Eq (nested r) (nested r)) (programs : Programs) :
    Blind (Session.announce nested programs) := by
  intro e e' h s t hst
  rw [Session.announce, Session.announce, Call.bind_ok (Call.get_apply s),
    Call.bind_ok (Call.get_apply t), h.1, hst.2]
  exact Parallel.forM (parallel_tell hnested programs h) _ s t hst

/-- **The listeners of a session are blind**, however deep the calls are that they make. -/
theorem blind_emitAt (programs : Programs) (mode : Correlation) (depth : Nat) :
    Blind (Session.emitAt programs mode depth) := by
  induction depth with
  | zero => exact blind_announce (fun _ => Parallel.pure rfl) programs
  | succ depth ih =>
    refine blind_announce (fun r => ?_) programs
    have hperform : Parallel Eq
        (Session.perform (Session.emitAt programs mode depth) mode r)
        (Session.perform (Session.emitAt programs mode depth) mode r) := by
      rw [← Session.performIn_eq_perform]
      exact Parallel.compatible.performIn (fun e => ih e e ⟨rfl, rfl⟩) mode r
    exact hperform.bind fun _ _ _ => Parallel.pure rfl

/-! ## Rows abreast -/

/-- Two calculations which read the same formula under the same names, and have results. -/
structure SameCourse (mode : Correlation) (expression inputs inputs' : Datum) : Prop where
  /-- the same formula is read -/
  setting : ∃ S S', opening expression inputs = .ok S ∧ opening expression inputs' = .ok S' ∧
    S.source = S'.source ∧ S.formula = S'.formula ∧
    S.measured.map Prod.fst = S'.measured.map Prod.fst
  /-- the first has a result -/
  left : ∃ x, reference mode expression inputs = .ok x
  /-- so has the second -/
  right : ∃ x, reference mode expression inputs' = .ok x

/-- A calculation with a result finds a slope for each variable, and the value. -/
theorem found_of_reference {mode : Correlation} {expression inputs : Datum} {S : Setting}
    {x : Outcome Double} (hS : opening expression inputs = .ok S)
    (h : reference mode expression inputs = .ok x) :
    (∀ name ∈ S.names, ∃ d, S.slopeAt name = .ok d) ∧ ∃ value, S.value = .ok value := by
  rw [reference_eq_conclusion mode hS, conclusion, expansion, surveyed] at h
  rcases hs : S.survey S.names with ⟨ds, _ | fault⟩
  · refine ⟨fun name hname => ?_, ?_⟩
    · have hall := S.survey_complete (show (S.survey S.names).2 = none by rw [hs])
      rw [← hall] at hname
      obtain ⟨d, hd, rfl⟩ := List.mem_map.1 hname
      exact ⟨d, S.slopeAt_of_mem_survey hd⟩
    · rw [hs] at h
      cases hv : S.value with
      | error fault =>
        rw [hv] at h
        cases h
      | ok value => exact ⟨value, rfl⟩
  · rw [hs] at h
    cases h

theorem opening_of_reference {mode : Correlation} {expression inputs : Datum} {x : Outcome Double}
    (h : reference mode expression inputs = .ok x) : ∃ S, opening expression inputs = .ok S := by
  cases hS : opening expression inputs with
  | error fault =>
    rw [reference_eq_error mode hS] at h
    cases h
  | ok S => exact ⟨S, rfl⟩

variable {emit : Event → Call ε Unit}

theorem parallel_slopes (hemit : Blind emit) {S S' : Setting} (hformula : S.formula = S'.formula)
    (names : List String) (hS : ∀ name ∈ names, ∃ d, S.slopeAt name = .ok d)
    (hS' : ∀ name ∈ names, ∃ d, S'.slopeAt name = .ok d) :
    Parallel (fun _ _ => True) (slopes emit S.formula S.measured S.point names)
      (slopes emit S'.formula S'.measured S'.point names) := by
  induction names with
  | nil => exact Parallel.pure trivial
  | cons name names ih =>
    obtain ⟨d, hd⟩ := hS name List.mem_cons_self
    obtain ⟨d', hd'⟩ := hS' name List.mem_cons_self
    rw [slopes_cons_ok emit names hd, slopes_cons_ok emit names hd', hformula]
    have hkind : SameKind (.differential d) (.differential d') := by
      refine ⟨rfl, ?_⟩
      rw [Event.isWritable, Event.isWritable, (S.slopeAt_eq_ok hd).2.2.1,
        (S'.slopeAt_eq_ok hd').2.2.1, hformula]
    refine (Parallel.differentiate _ name).bind fun _ _ _ => (hemit _ _ hkind).bind fun _ _ _ => ?_
    have hrest := ih (fun n hn => hS n (List.mem_cons_of_mem _ hn))
      fun n hn => hS' n (List.mem_cons_of_mem _ hn)
    rw [hformula] at hrest
    exact hrest.bind fun _ _ _ => Parallel.pure trivial

theorem parallel_value {S S' : Setting} (hS : ∃ x, S.value = .ok x) (hS' : ∃ x, S'.value = .ok x) :
    Parallel (fun _ _ => True) (Call.evaluate S.formula S.point : Call ε Double)
      (Call.evaluate S'.formula S'.point) := by
  obtain ⟨x, hx⟩ := hS
  obtain ⟨x', hx'⟩ := hS'
  intro s t hst
  rw [Call.evaluate_apply, Call.evaluate_apply, ← Setting.value, ← Setting.value, hx, hx']
  exact ⟨.ok trivial, hst⟩

/-- **Two rows with results run abreast**: they wake the same listeners, in alike states. -/
theorem parallel_calculate (hemit : Blind emit) {mode : Correlation}
    {expression inputs inputs' : Datum} (h : SameCourse mode expression inputs inputs') :
    Parallel (fun _ _ => True) (calculate emit mode expression inputs)
      (calculate emit mode expression inputs') := by
  obtain ⟨⟨S, S', hS, hS', hsource, hformula, hmeasured⟩, ⟨x, hx⟩, ⟨x', hx'⟩⟩ := h
  obtain ⟨hslopes, hvalue⟩ := found_of_reference hS hx
  obtain ⟨hslopes', hvalue'⟩ := found_of_reference hS' hx'
  obtain ⟨hread, hvs, -, -⟩ := opening_eq_ok hS
  obtain ⟨hread', hvs', -, -⟩ := opening_eq_ok hS'
  have hnames : S'.names = S.names := by rw [Setting.names, Setting.names, hsource, hformula]
  have hset : setting S.source S.measured = .ok S := by
    rw [opening, hread, hvs] at hS
    exact hS
  have hset' : setting S'.source S'.measured = .ok S' := by
    rw [opening, hread', hvs'] at hS'
    exact hS'
  rw [calculate, calculate]
  have hinput : SameKind (.input expression inputs) (.input expression inputs') := ⟨rfl, rfl⟩
  refine (hemit _ _ hinput).bind fun _ _ _ => ?_
  rw [hread', hvs, hvs']
  rw [hsource] at hset
  simp only
  rw [expand_of_setting emit hset, expand_of_setting emit hset']
  refine Parallel.bind (P := fun _ _ => True) (Parallel.scope ?_) fun p p' _ => ?_
  · rw [hmeasured, hnames]
    refine (Parallel.parse _ _).bind fun _ _ _ => ?_
    refine (parallel_slopes hemit hformula S.names hslopes (hnames ▸ hslopes')).bind fun _ _ _ => ?_
    exact (parallel_value hvalue hvalue').bind fun _ _ _ => Parallel.pure trivial
  · obtain ⟨error, ht⟩ := totalError_map_term mode p.2
    obtain ⟨error', ht'⟩ := totalError_map_term mode p'.2
    simp only [ht, ht']
    have hresult : SameKind (.result ⟨p.1, error⟩) (.result ⟨p'.1, error'⟩) := ⟨rfl, rfl⟩
    exact (hemit _ _ hresult).bind fun _ _ _ => Parallel.pure trivial

/-! ## Rows of one table -/

theorem readVariable_name {key entry : Datum} {v : String × Measurement}
    (h : readVariable key entry = .ok v) : key = .text v.1 := by
  rw [readVariable] at h
  cases key with
  | text s =>
    rw [readName] at h
    split at h
    · cases h
    · rename_i hname
      split at hname
      · cases hname
      · split at hname
        · cases hname
        · cases hname
          split at h
          · cases h
          · cases h
          · cases h
            rfl
  | _ => cases h

theorem readEntries_names {entries : List (Datum × Datum)} {vs : Variables}
    (h : readEntries entries = .ok vs) : entries.map Prod.fst = vs.map fun v => Datum.text v.1 := by
  induction entries generalizing vs with
  | nil =>
    cases h
    rfl
  | cons e entries ih =>
    obtain ⟨key, entry⟩ := e
    rw [readEntries] at h
    cases hv : readVariable key entry with
    | error fault =>
      rw [hv] at h
      cases h
    | ok v =>
      cases hvs : readEntries entries with
      | error fault =>
        rw [hv, hvs] at h
        cases h
      | ok rest =>
        rw [hv, hvs] at h
        cases h
        rw [List.map_cons, List.map_cons, ih hvs, readVariable_name hv]

theorem sameCourse_rows {mode : Correlation} {expression : Datum} {as bs : List (Datum × Datum)}
    (hkeys : as.map Prod.fst = bs.map Prod.fst) {x y : Outcome Double}
    (ha : reference mode expression (.mapping as) = .ok x)
    (hb : reference mode expression (.mapping bs) = .ok y) :
    SameCourse mode expression (.mapping as) (.mapping bs) := by
  obtain ⟨S, hS⟩ := opening_of_reference ha
  obtain ⟨S', hS'⟩ := opening_of_reference hb
  obtain ⟨hread, hvs, hparse, -⟩ := opening_eq_ok hS
  obtain ⟨hread', hvs', hparse', -⟩ := opening_eq_ok hS'
  have hnames : S.measured.map Prod.fst = S'.measured.map Prod.fst := by
    have htexts := (readEntries_names hvs).symm.trans (hkeys.trans (readEntries_names hvs'))
    have hinj : Function.Injective Datum.text := fun _ _ h => Datum.text.inj h
    refine hinj.list_map ?_
    rw [List.map_map, List.map_map]
    exact htexts
  have hsource : S.source = S'.source := Except.ok.inj (hread.symm.trans hread')
  rw [hnames, hsource, hparse'] at hparse
  exact ⟨⟨S, S', hS, hS', hsource, (Except.ok.inj hparse).symm, hnames⟩, ⟨x, ha⟩, y, hb⟩

/-- Tables with the same keys, whose rows have results, run abreast row by row. -/
theorem parallel_calculateRows {emit : Event → Call ε Unit} (hemit : Blind emit)
    {mode : Correlation} {expression : Datum} {as bs : List (List (Datum × Datum))}
    (h : List.Forall₂ (fun a b => SameCourse mode expression (.mapping a) (.mapping b)) as bs) :
    Parallel (fun _ _ => True) (calculateRows emit mode expression as)
      (calculateRows emit mode expression bs) := by
  induction h with
  | nil => exact Parallel.pure trivial
  | cons hab _ ih =>
    exact (parallel_calculate hemit hab).bind fun _ _ _ => ih.bind fun _ _ _ => Parallel.pure trivial

/-- **The order of the rows** of a series that succeeds decides on nothing but the order of the
results. -/
theorem calculateRows_reordered {emit : Event → Call ε Unit} (hemit : Blind emit)
    {mode : Correlation} {expression : Datum} {n : Nat} {entries : List (Datum × Datum)}
    {s : CallState ε} {results : List (Outcome Double)}
    (h : (calculateRows emit mode expression ((List.range n).map (row entries)) s).1 = .ok results)
    {order : List Nat} (horder : order.Perm (List.range n)) :
    (calculateRows emit mode expression (order.map (row entries)) s).1 = .ok (pick order results) := by
  have hlt : ∀ i ∈ order, i < n := fun i hi => List.mem_range.1 (horder.mem_iff.1 hi)
  have hresults := forall₂_reference h
  have hlength : results.length = n := by simpa using hresults.length_eq.symm
  have hat : ∀ i (hi : i < n), reference mode expression (.mapping (row entries i)) =
      .ok (results[i]) := fun i hi => by
    have hi' := (List.forall₂_iff_get.1 hresults).2 i (by simpa using hi) (by omega)
    simpa using hi'
  have hcourses : List.Forall₂
      (fun a b => SameCourse mode expression (.mapping a) (.mapping b))
      ((List.range n).map (row entries)) (order.map (row entries)) := by
    refine List.forall₂_iff_get.2 ⟨by simpa using horder.length_eq.symm, fun i hi hi' => ?_⟩
    have hi₁ : i < n := by simpa using hi
    have hio : i < order.length := by simpa using hi'
    have hi₂ : order[i] < n := hlt _ (List.getElem_mem hio)
    simp only [List.get_eq_getElem, List.getElem_map, List.getElem_range]
    exact sameCourse_rows (by simp [row]) (hat i hi₁) (hat _ hi₂)
  -- the rows in the other order succeed as well, so they have the results that they have alone
  obtain ⟨hanswer, -⟩ := parallel_calculateRows hemit hcourses s s ⟨rfl, rfl⟩
  rw [h] at hanswer
  cases hothers : (calculateRows emit mode expression (order.map (row entries)) s).1 with
  | error fault =>
    rw [hothers] at hanswer
    cases hanswer
  | ok others =>
    have hpicked := forall₂_reference hothers
    congr 1
    have hbound : ∀ i ∈ order, i < results.length := fun i hi => hlength ▸ hlt i hi
    refine List.ext_getElem ?_ fun j hj hj' => ?_
    · rw [length_pick hbound, ← hpicked.length_eq, List.length_map]
    · have hjo : j < order.length := by rwa [length_pick hbound] at hj'
      have hj₁ := (List.forall₂_iff_get.1 hpicked).2 j (by simpa using hjo) hj
      simp only [List.get_eq_getElem, List.getElem_map] at hj₁
      rw [hat _ (hlt _ (List.getElem_mem hjo))] at hj₁
      have hj₂ := getElem?_pick hbound j
      rw [List.getElem?_eq_getElem hj', List.getElem?_eq_getElem hjo, Option.bind_some,
        List.getElem?_eq_getElem (hbound _ (List.getElem_mem hjo))] at hj₂
      rw [Option.some.inj hj₂, Except.ok.inj hj₁]

/-! ## Series and their rows -/

/-- Two measurements of `x`, and one of `y` for both. -/
def pairs : List (Datum × Datum) :=
  [(.text "x", .list [.measurement (.number (.int 0)) (.number (.int 1)),
      .measurement (.number (.int 0)) (.number (.int 0))]),
    (.text "y", .measurement (.number (.int 0)) (.number (.int 1)))]

theorem columns_pairs : Columns 2 pairs where
  some_list := ⟨_, _, List.mem_cons_self⟩
  length_eq key items hmem := by
    simp only [pairs, List.mem_cons, Prod.mk.injEq, List.not_mem_nil, or_false, reduceCtorEq,
      and_false, Datum.list.injEq] at hmem
    rw [hmem.2]
    rfl

/-- **A series is the series of its rows.**  Let all lists of a table have `n` items.

Whatever the listeners do, and whatever the state, the series does exactly what the series of the
first rows does and, if that succeeds, that of the other rows behind it: the answer, the log, the
lists of listeners and the registry are the same.

If no listener lets a fault escape, the answer is made of those that the rows have alone, with
whatever quiet listeners and in whatever state these are calculated.

And in a session, whose listeners may change the lists, make calls and fail, a series that succeeds
also does so in any other order of its rows, with the results in that order. -/
theorem series_rows (mode : Correlation) (expression : Datum) (n : Nat)
    (entries : List (Datum × Datum)) (columns : Columns n entries) :
    (∀ {ε : Type} (emit : Event → Call ε Unit) (k : Nat), 0 < k → k < n →
      series emit mode expression (.mapping entries) = do
        let first ← series emit mode expression (.mapping (onLists (·.take k) entries))
        let rest ← series emit mode expression (.mapping (onLists (·.drop k) entries))
        return first ++ rest) ∧
    (∀ {ε ε' : Type} (emit : Event → Call ε Unit) (s : CallState ε)
      (alone : Nat → Event → Call ε' Unit) (before : Nat → CallState ε'), 0 < n →
      Quiet (seriesEmissions emit mode expression (.mapping entries) s) →
      (∀ i < n, Quiet
        (emissions (alone i) mode expression (.mapping (row entries i)) (before i))) →
      (series emit mode expression (.mapping entries) s).1 = (List.range n).mapM fun i =>
        (calculate (alone i) mode expression (.mapping (row entries i)) (before i)).1) ∧
    (∀ (programs : Programs) (depth : Nat) (s : CallState LogEntry)
      (results : List (Outcome Double)) (order : List Nat), order.Perm (List.range n) →
      (series (Session.emitAt programs mode depth) mode expression (.mapping entries) s).1 =
        .ok results →
      (series (Session.emitAt programs mode depth) mode expression
        (.mapping (onLists (pick order) entries)) s).1 = .ok (pick order results)) := by
  refine ⟨fun emit k hk hkn => ?_, fun emit s alone before hn hq halone => ?_,
    fun programs depth s results order horder h => ?_⟩
  · -- what is taken and what is dropped has been picked
    have htake : onLists (·.take k) entries = onLists (pick (List.range k)) entries :=
      columns.onLists_congr fun items hitems => by
        rw [List.range_eq_range', pick_range' items 0 k (by omega), List.drop_zero]
    have hdrop : onLists (·.drop k) entries = onLists (pick (List.range' k (n - k))) entries :=
      columns.onLists_congr fun items hitems => by
        rw [pick_range' items k (n - k) (by omega), List.take_of_length_le (by simp [hitems])]
    have hrange : List.range n = List.range k ++ List.range' k (n - k) := by
      have happend := List.range'_append_1 (s := 0) (m := k) (n := n - k)
      rw [Nat.zero_add, Nat.add_sub_of_le (Nat.le_of_lt hkn)] at happend
      rw [List.range_eq_range', List.range_eq_range', happend]
    rw [series_columns emit mode expression columns (by omega), htake, hdrop,
      series_pick emit mode expression columns
        (fun i hi => Nat.lt_trans (List.mem_range.1 hi) hkn) (by simpa using Nat.ne_of_gt hk),
      series_pick emit mode expression columns
        (fun i hi => by rw [List.mem_range'_1] at hi; omega)
        (by simpa using Nat.sub_ne_zero_of_lt hkn),
      hrange, List.map_append, calculateRows_append]
  · obtain ⟨new, hruns, hquiet⟩ :=
      runs_calculateRows emit mode expression ((List.range n).map (row entries)) s
    rw [seriesEmissions, series_columns (watched emit) mode expression columns hn, hruns [],
      emissionsIn_frame, List.nil_append] at hq
    rw [series_columns emit mode expression columns hn, hquiet hq, List.mapM_map]
    refine mapM_congr_left fun i hi => ?_
    obtain ⟨new, hruns, hquiet⟩ :=
      runs_calculate (alone i) mode expression (.mapping (row entries i)) (before i)
    refine ((hquiet ?_).2).symm
    exact emissions_eq hruns ▸ halone i (List.mem_range.1 hi)
  · have hlt : ∀ i ∈ order, i < n := fun i hi => List.mem_range.1 (horder.mem_iff.1 hi)
    cases order with
    | nil =>
      -- without rows there is nothing to be put in order
      obtain rfl : n = 0 := by simpa using horder.length_eq.symm
      have hnone : ∀ items : List Datum, items.length = 0 → pick [] items = items :=
        fun items hitems => (List.length_eq_zero_iff.1 hitems).symm
      rw [columns.onLists_id hnone, h, series_empty columns.rows h]
      rfl
    | cons i order =>
      have hn : 0 < n := Nat.zero_lt_of_lt (hlt i List.mem_cons_self)
      rw [series_columns _ mode expression columns hn] at h
      rw [series_pick _ mode expression columns hlt (List.cons_ne_nil i order)]
      exact calculateRows_reordered (blind_emitAt programs mode depth) h horder

/-- Between the rows the lists of listeners are changed, and other calls are made. -/
theorem series_rows_meddlers :
    Columns 2 pairs ∧
      (series (Session.emit meddlers .both) .both (.text "x*x") (.mapping pairs) = do
        let first ← series (Session.emit meddlers .both) .both (.text "x*x")
          (.mapping (onLists (·.take 1) pairs))
        let rest ← series (Session.emit meddlers .both) .both (.text "x*x")
          (.mapping (onLists (·.drop 1) pairs))
        return first ++ rest) ∧
      Quiet (seriesEmissions (Session.emit meddlers .both) .both (.text "x*x") (.mapping pairs)
        disturbed) ∧
      (series (Session.emit meddlers .both) .both (.text "x*x") (.mapping pairs) disturbed).1 =
        (List.range 2).mapM (fun i => (calculate (Session.emit meddlers .both) .both (.text "x*x")
          (.mapping (row pairs i)) Session.start).1) ∧
      ∃ results,
        (series (Session.emit meddlers .both) .both (.text "x*x") (.mapping pairs) disturbed).1 =
          .ok results ∧
        (series (Session.emit meddlers .both) .both (.text "x*x")
          (.mapping (onLists (pick [1, 0]) pairs)) disturbed).1 = .ok (pick [1, 0] results) := by
  obtain ⟨hsplit, halone, horder⟩ := series_rows .both (.text "x*x") 2 pairs columns_pairs
  have quiet : Quiet (seriesEmissions (Session.emit meddlers .both) .both (.text "x*x")
      (.mapping pairs) disturbed) := by
    decide +kernel
  have hrows : ∀ i < 2, Quiet (emissions (Session.emit meddlers .both) .both (.text "x*x")
      (.mapping (row pairs i)) Session.start) := by
    decide +kernel
  have succeeds : (series (Session.emit meddlers .both) .both (.text "x*x") (.mapping pairs)
      disturbed).1.isOk = true := by
    decide +kernel
  refine ⟨columns_pairs, hsplit _ 1 (by decide) (by decide), quiet, ?_, ?_⟩
  · exact halone _ _ (fun _ => Session.emit meddlers .both) (fun _ => Session.start) (by decide)
      quiet hrows
  · cases h : (series (Session.emit meddlers .both) .both (.text "x*x") (.mapping pairs)
        disturbed).1 with
    | error fault =>
      rw [h] at succeeds
      cases succeeds
    | ok results =>
      exact ⟨results, rfl, horder meddlers Session.nestingDepth disturbed results [1, 0]
        (by decide) h⟩

end Propagator
end ErrorBars
