import ErrorBars.Proofs.Call

/-!
# Relations that calls respect

A calculation is put together from a few operations: it succeeds or fails, goes on, opens a scope,
reads a formula, derives, and hands events to `emit`.  It never looks at the log, or at anything else
that two kinds of calls might keep there.  So a relation between calls of two kinds that all these
operations respect (`Compatible`) holds of two calculations as soon as it holds of the two ways to
hand over an event.

What is then left to show of a particular relation is one clause for each operation, and nothing
about the course of a calculation.
-/

set_option autoImplicit false

namespace ErrorBars

/-- A relation between two kinds of calls that the operations of calls respect. -/
structure Compatible {ε ε' : Type} (R : ∀ {α : Type}, Call ε α → Call ε' α → Prop) : Prop where
  /-- success -/
  pure {α : Type} (x : α) : R (Pure.pure x) (Pure.pure x)
  /-- failure -/
  throw {α : Type} (fault : CallFault) :
    R (MonadExcept.throw fault : Call ε α) (MonadExcept.throw fault)
  /-- one call behind the other -/
  bind {α β : Type} {a : Call ε α} {a' : Call ε' α} {f : α → Call ε β} {f' : α → Call ε' β}
    (ha : R a a') (hf : ∀ x, R (f x) (f' x)) : R (a >>= f) (a' >>= f')
  /-- a scope -/
  scope {α : Type} {a : Call ε α} {a' : Call ε' α} (ha : R a a') :
    R (Call.scope a) (Call.scope a')
  /-- reading a formula -/
  parse (source : String) (names : List String) :
    R (Call.parse source names) (Call.parse source names)
  /-- a derivative -/
  differentiate (e : Expr) (name : String) :
    R (Call.differentiate e name) (Call.differentiate e name)

namespace Compatible

open Propagator

variable {ε ε' : Type} {R : ∀ {α : Type}, Call ε α → Call ε' α → Prop}

theorem evaluate (h : Compatible R) (e : Expr) (bindings : Bindings) :
    R (Call.evaluate e bindings) (Call.evaluate e bindings) := by
  rw [Call.evaluate, Call.evaluate]
  cases e.evaluate bindings with
  | error fault => exact h.throw _
  | ok x => exact h.pure x

theorem forM (h : Compatible R) {α : Type} {f : α → Call ε Unit} {f' : α → Call ε' Unit}
    (hf : ∀ x, R (f x) (f' x)) (xs : List α) : R (xs.forM f) (xs.forM f') := by
  induction xs with
  | nil => exact h.pure ()
  | cons x xs ih => exact h.bind (hf x) fun _ => ih

variable {emit : Event → Call ε Unit} {emit' : Event → Call ε' Unit}

theorem slopes (h : Compatible R) (hemit : ∀ event, R (emit event) (emit' event)) (f : Expr)
    (vs : Variables) (point : Bindings) (names : List String) :
    R (slopes emit f vs point names) (slopes emit' f vs point names) := by
  induction names with
  | nil => exact h.pure []
  | cons name names ih =>
    rw [Propagator.slopes, Propagator.slopes]
    cases vs.find? name with
    | none => exact h.throw _
    | some m =>
      refine h.bind (h.differentiate f name) fun d => h.bind (h.evaluate d point) fun value => ?_
      exact h.bind (hemit _) fun _ => h.bind ih fun _ => h.pure _

theorem expand (h : Compatible R) (hemit : ∀ event, R (emit event) (emit' event))
    (source : String) (vs : Variables) : R (expand emit source vs) (expand emit' source vs) := by
  refine h.scope (h.bind (h.parse source _) fun f => ?_)
  simp only
  split
  · exact h.bind (h.slopes hemit f vs _ _) fun _ => h.bind (h.evaluate f _) fun _ => h.pure _
  · exact h.throw _

/-- **Calculations respect the relation** if their ways to hand over an event do. -/
theorem calculate (h : Compatible R) (hemit : ∀ event, R (emit event) (emit' event))
    (mode : Correlation) (expression inputs : Datum) :
    R (calculate emit mode expression inputs) (calculate emit' mode expression inputs) := by
  refine h.bind (hemit _) fun _ => ?_
  cases readFormula expression with
  | error fault => exact h.throw _
  | ok source =>
    cases readVariables inputs with
    | error fault => exact h.throw _
    | ok vs =>
      refine h.bind (h.expand hemit source vs) fun p => ?_
      simp only
      cases totalError mode (p.2.map term) with
      | error fault => exact h.throw _
      | ok error => exact h.bind (hemit _) fun _ => h.pure _

theorem calculateRows (h : Compatible R) (hemit : ∀ event, R (emit event) (emit' event))
    (mode : Correlation) (expression : Datum) (table : List (List (Datum × Datum))) :
    R (calculateRows emit mode expression table) (calculateRows emit' mode expression table) := by
  induction table with
  | nil => exact h.pure []
  | cons row rest ih =>
    exact h.bind (h.calculate hemit mode expression _) fun _ => h.bind ih fun _ => h.pure _

theorem series (h : Compatible R) (hemit : ∀ event, R (emit event) (emit' event))
    (mode : Correlation) (expression inputs : Datum) :
    R (series emit mode expression inputs) (series emit' mode expression inputs) := by
  rw [Propagator.series, Propagator.series]
  rcases rows inputs with fault | _ | ⟨row, rest⟩
  · exact h.throw _
  · refine h.bind (hemit _) fun _ => ?_
    cases readFormula expression with
    | error fault => exact h.throw _
    | ok source => exact h.bind (h.scope (h.parse source _)) fun _ => h.pure _
  · exact h.calculateRows hemit mode expression (row :: rest)

end Compatible

/-! ## Requests -/

namespace Session

/-- Carries out a request in a call that may keep anything in its log. -/
def performIn {ε : Type} (emit : Event → Call ε Unit) (mode : Correlation) :
    Request → Call ε Reply
  | .calculate expression inputs => do
    return .outcome (← Propagator.calculate emit mode expression inputs)
  | .series expression inputs => do
    return .outcomes (← Propagator.series emit mode expression inputs)
  | .rows inputs =>
    match rows inputs with
    | .ok table => return .table table
    | .error fault => throw (.input fault)

/-- In a session this is how requests are carried out. -/
theorem performIn_eq_perform (emit : Event → Action Unit) (mode : Correlation) :
    performIn emit mode = perform emit mode := by
  funext r
  cases r <;> rfl

end Session

theorem Compatible.performIn {ε ε' : Type} {R : ∀ {α : Type}, Call ε α → Call ε' α → Prop}
    (h : Compatible R) {emit : Event → Call ε Unit} {emit' : Event → Call ε' Unit}
    (hemit : ∀ event, R (emit event) (emit' event)) (mode : Correlation) (r : Request) :
    R (Session.performIn emit mode r) (Session.performIn emit' mode r) := by
  cases r with
  | calculate expression inputs =>
    exact h.bind (h.calculate hemit mode expression inputs) fun _ => h.pure _
  | series expression inputs =>
    exact h.bind (h.series hemit mode expression inputs) fun _ => h.pure _
  | rows inputs =>
    rw [Session.performIn, Session.performIn]
    cases rows inputs with
    | ok table => exact h.pure _
    | error fault => exact h.throw _

end ErrorBars
