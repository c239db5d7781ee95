import ErrorBars.Proofs.Call
import Mathlib.Data.List.Basic

/-!
# The registry is empty between calls

A call keeps its expressions in the registry that all calls on the engine share, and gives them up
when it ends, in whatever way it ends.  Here that is shown for sessions, whatever their listeners
do, at every depth to which calls made by listeners may stand inside each other.

* `Keeps a` says that `a` leaves an empty registry empty.  A call keeps it whether it succeeds or
  fails: before its scope nothing but listeners has run, and its scope ends with an empty registry
  (`keeps_calculate`, `keeps_emitAt`).
* A `sentry` looks at the registry whenever a result is about to be announced, and raises an alarm
  if it is in use.  Sentries make no difference at all, whatever the alarm does
  (`guardedAt_eq`): a result is only ever announced when a scope has just ended, even if the call
  stands inside the scope of another one.

`registry_run` puts the two together.
-/

set_option autoImplicit false

namespace ErrorBars
namespace Session

open Propagator

/-! ## Actions that keep the registry empty -/

section

variable {ε α β : Type}

/-- An empty registry stays empty, whatever the answer is. -/
def Keeps (a : Call ε α) : Prop := ∀ s, s.registry = [] → (a s).2.registry = []

theorem Keeps.pure (x : α) : Keeps (Pure.pure x : Call ε α) := fun _ h => h

theorem Keeps.throw (fault : CallFault) : Keeps (MonadExcept.throw fault : Call ε α) := fun _ h => h

theorem Keeps.scope (a : Call ε α) : Keeps (Call.scope a) := fun _ _ => rfl

theorem Keeps.bind {a : Call ε α} {f : α → Call ε β} (ha : Keeps a) (hf : ∀ x, Keeps (f x)) :
    Keeps (a >>= f) := by
  intro s h
  have ht := ha s h
  rcases hs : a s with ⟨fault | x, t⟩
  · rw [Call.bind_error hs]
    rwa [hs] at ht
  · rw [Call.bind_ok hs]
    rw [hs] at ht
    exact hf x t ht

theorem Keeps.forM {f : α → Call ε Unit} (hf : ∀ x, Keeps (f x)) (xs : List α) :
    Keeps (xs.forM f) := by
  induction xs with
  | nil => exact Keeps.pure ()
  | cons x xs ih => exact (hf x).bind fun _ => ih

/-! ## Calls -/

variable {emit : Event → Call ε Unit}

theorem keeps_expand (source : String) (vs : Variables) : Keeps (expand emit source vs) :=
  Keeps.scope _

/-- **A calculation keeps the registry empty** if its listeners do, whether it returns or fails. -/
theorem keeps_calculate (hemit : ∀ event, Keeps (emit event)) (mode : Correlation)
    (expression inputs : Datum) : Keeps (calculate emit mode expression inputs) := by
  rw [calculate]
  refine (hemit _).bind fun _ => ?_
  cases readFormula expression with
  | error fault => exact Keeps.throw _
  | ok source =>
    cases readVariables inputs with
    | error fault => exact Keeps.throw _
    | ok vs =>
      refine (keeps_expand source vs).bind fun p => ?_
      simp only
      cases totalError mode (p.2.map term) with
      | error fault => exact Keeps.throw _
      | ok error => exact (hemit _).bind fun _ => Keeps.pure _

theorem keeps_calculateRows (hemit : ∀ event, Keeps (emit event)) (mode : Correlation)
    (expression : Datum) (table : List (List (Datum × Datum))) :
    Keeps (calculateRows emit mode expression table) := by
  induction table with
  | nil => exact Keeps.pure _
  | cons row rest ih =>
    exact (keeps_calculate hemit mode _ _).bind fun _ => ih.bind fun _ => Keeps.pure _

theorem keeps_series (hemit : ∀ event, Keeps (emit event)) (mode : Correlation)
    (expression inputs : Datum) : Keeps (series emit mode expression inputs) := by
  rw [series]
  rcases rows inputs with fault | _ | ⟨row, rest⟩
  · exact Keeps.throw _
  · refine (hemit _).bind fun _ => ?_
    cases readFormula expression with
    | error fault => exact Keeps.throw _
    | ok source => exact (Keeps.scope _).bind fun _ => Keeps.pure _
  · exact keeps_calculateRows hemit mode expression (row :: rest)

end

theorem keeps_perform {emit : Event → Action Unit} (hemit : ∀ event, Keeps (emit event))
    (mode : Correlation) (r : Request) : Keeps (perform emit mode r) := by
  cases r with
  | calculate expression inputs =>
    exact (keeps_calculate hemit mode expression inputs).bind fun _ => Keeps.pure _
  | series expression inputs =>
    exact (keeps_series hemit mode expression inputs).bind fun _ => Keeps.pure _
  | rows inputs =>
    rw [perform]
    cases rows inputs with
    | ok table => exact Keeps.pure _
    | error fault => exact Keeps.throw _

/-! ## Listeners -/

theorem keeps_record (entry : LogEntry) : Keeps (record entry) := fun _ h => h

theorem keeps_changeListeners (event : String) (change : Notifier → Notifier) :
    Keeps (changeListeners event change) := by
  intro s h
  rw [changeListeners, Call.bind_ok (Call.get_apply s)]
  cases s.notifier.listeners? event with
  | none => exact h
  | some _ => exact h

theorem keeps_react {nested : Request → Action Unit} (hnested : ∀ r, Keeps (nested r))
    (listener : String) (reaction : Reaction) : Keeps (react nested listener reaction) := by
  cases reaction with
  | count => exact fun _ h => h
  | fail message => exact Keeps.throw _
  | on event other => exact keeps_changeListeners event _
  | off event other => exact keeps_changeListeners event _
  | request r => exact hnested r

theorem keeps_tell {nested : Request → Action Unit} (hnested : ∀ r, Keeps (nested r))
    (programs : Programs) (event : Event) (listener : String) :
    Keeps (tell nested programs event listener) := by
  have hrest : Keeps (do
      record (.told listener event)
      (programs.reactions listener).forM (react nested listener)) :=
    (keeps_record _).bind fun _ => Keeps.forM (keeps_react hnested listener) _
  rw [tell]
  split
  · exact (Keeps.throw _).bind fun _ => hrest
  · exact hrest

theorem keeps_announce {nested : Request → Action Unit} (hnested : ∀ r, Keeps (nested r))
    (programs : Programs) (event : Event) : Keeps (announce nested programs event) := by
  intro s h
  rw [announce, Call.bind_ok (Call.get_apply s)]
  exact Keeps.forM (keeps_tell hnested programs event) _ s h

/-- An announcement keeps the registry empty, however deep the calls are that its listeners make.
The induction is on how many of them may still stand inside each other. -/
theorem keeps_emitAt (programs : Programs) (mode : Correlation) (depth : Nat) (event : Event) :
    Keeps (emitAt programs mode depth event) := by
  induction depth generalizing event with
  | zero => exact keeps_announce (fun _ => Keeps.pure ()) programs event
  | succ depth ih =>
    exact keeps_announce (fun r => (keeps_perform ih mode r).bind fun _ => Keeps.pure ())
      programs event

theorem keeps_stepWith {emit : Event → Action Unit} (hemit : ∀ event, Keeps (emit event))
    (mode : Correlation) (step : Step) : Keeps (stepWith emit mode step) := by
  cases step with
  | on event listener => exact (keeps_changeListeners event _).bind fun _ => Keeps.pure _
  | off event listener => exact (keeps_changeListeners event _).bind fun _ => Keeps.pure _
  | correlation => exact Keeps.pure _
  | request r => exact (keeps_perform hemit mode r).bind fun _ => Keeps.pure _

theorem runWith_registry {step : Step → Action Answer} (hstep : ∀ x, Keeps (step x))
    (steps : List Step) :
    ∀ s : CallState LogEntry, s.registry = [] →
      (∀ report ∈ (runWith step steps s).1, report.registry = 0) ∧
        (runWith step steps s).2.registry = [] := by
  induction steps with
  | nil => exact fun s h => ⟨by simp [runWith], h⟩
  | cons x xs ih =>
    intro s h
    have hx := hstep x { s with log := [] } h
    obtain ⟨hreports, hlast⟩ := ih _ hx
    refine ⟨fun report hr => ?_, hlast⟩
    rcases List.mem_cons.1 hr with rfl | hr
    · exact List.length_eq_zero_iff.2 hx
    · exact hreports report hr

/-! ## Sentries -/

section

variable {ε : Type}

/-- Looks at the registry whenever a result is about to be announced, and raises the alarm if it is
in use. -/
def sentry (alarm : Call ε Unit) (emit : Event → Call ε Unit) : Event → Call ε Unit
  | .result r => do
    unless (← get).registry.isEmpty do alarm
    emit (.result r)
  | event => emit event

theorem sentry_of_empty (alarm : Call ε Unit) (emit : Event → Call ε Unit) (event : Event)
    {s : CallState ε} (h : s.registry = []) : sentry alarm emit event s = emit event s := by
  cases event with
  | input expression inputs => rfl
  | differential d => rfl
  | result r =>
    rw [sentry, Call.bind_ok (Call.get_apply s), h]
    rfl

variable (alarm : Call ε Unit) (emit : Event → Call ε Unit)

theorem slopes_sentry (f : Expr) (vs : Variables) (point : Bindings) (names : List String) :
    slopes (sentry alarm emit) f vs point names = slopes emit f vs point names := by
  induction names with
  | nil => rfl
  | cons name names ih =>
    rw [slopes, slopes]
    cases vs.find? name with
    | none => rfl
    | some m =>
      simp only [ih]
      rfl

theorem expand_sentry (source : String) (vs : Variables) :
    expand (sentry alarm emit) source vs = expand emit source vs := by
  rw [expand, expand]
  simp only [slopes_sentry]

/-- **No alarm in a calculation.**  The state it starts in does not matter. -/
theorem calculate_sentry (mode : Correlation) (expression inputs : Datum) :
    calculate (sentry alarm emit) mode expression inputs =
      calculate emit mode expression inputs := by
  funext s
  have hinput : sentry alarm emit (.input expression inputs) = emit (.input expression inputs) :=
    rfl
  rw [calculate, calculate, hinput]
  refine Call.bind_congr fun _ t _ => ?_
  cases readFormula expression with
  | error fault => rfl
  | ok source =>
    cases readVariables inputs with
    | error fault => rfl
    | ok vs =>
      simp only [expand_sentry]
      refine Call.bind_congr fun p u hp => ?_
      -- the scope has just ended here
      have hu : u.registry = [] := by
        rw [← congrArg (fun r => r.2.registry) hp, expand, Call.scope_apply]
      cases totalError mode (p.2.map term) with
      | error fault => rfl
      | ok error =>
        simp only
        rw [Call.bind_apply, Call.bind_apply, sentry_of_empty alarm emit _ hu]

theorem calculateRows_sentry (mode : Correlation) (expression : Datum)
    (table : List (List (Datum × Datum))) :
    calculateRows (sentry alarm emit) mode expression table =
      calculateRows emit mode expression table := by
  induction table with
  | nil => rfl
  | cons row rest ih => rw [calculateRows, calculateRows, calculate_sentry, ih]

theorem series_sentry (mode : Correlation) (expression inputs : Datum) :
    series (sentry alarm emit) mode expression inputs = series emit mode expression inputs := by
  rw [series, series]
  rcases rows inputs with fault | _ | ⟨row, rest⟩
  · rfl
  · rfl
  · exact calculateRows_sentry alarm emit mode expression (row :: rest)

end

theorem perform_sentry (alarm : Action Unit) (emit : Event → Action Unit) (mode : Correlation)
    (r : Request) : perform (sentry alarm emit) mode r = perform emit mode r := by
  cases r with
  | calculate expression inputs => rw [perform, perform, calculate_sentry]
  | series expression inputs => rw [perform, perform, series_sentry]
  | rows inputs => rfl

/-- Announcements as in `emitAt`, with a sentry before each of them, at every depth. -/
def guardedAt (alarm : Action Unit) (programs : Programs) (mode : Correlation) :
    Nat → Event → Action Unit
  | 0 => sentry alarm (announce (fun _ => pure ()) programs)
  | depth + 1 =>
    sentry alarm (announce (fun r => do
      let _ ← perform (guardedAt alarm programs mode depth) mode r) programs)

/-- The sentries inside make no difference, so that only the outermost one is left. -/
theorem guardedAt_eq (alarm : Action Unit) (programs : Programs) (mode : Correlation)
    (depth : Nat) :
    guardedAt alarm programs mode depth = sentry alarm (emitAt programs mode depth) := by
  induction depth with
  | zero => rfl
  | succ depth ih => simp only [guardedAt, emitAt, ih, perform_sentry]

theorem stepWith_guardedAt (alarm : Action Unit) (programs : Programs) (mode : Correlation)
    (depth : Nat) :
    stepWith (guardedAt alarm programs mode depth) mode =
      stepWith (emitAt programs mode depth) mode := by
  funext step
  cases step with
  | on event listener => rfl
  | off event listener => rfl
  | correlation => rfl
  | request r => rw [stepWith, stepWith, guardedAt_eq, perform_sentry]

/-! ## Sessions -/

/-- A measurement of `x`. -/
def rowdyInputs : Datum := .mapping [(.text "x", .measurement (.number (.int 3)) (.number (.int 1)))]

/-- A listener that makes a call of its own, in which it is told of the slopes again, and then
fails. -/
def rowdy : Programs where
  reactions _ := [.count, .request (.calculate (.text "2*x") rowdyInputs), .fail "enough"]
  writesText := true

/-- **The registry between calls.**  In a session that starts with an empty registry, the registry
is empty after each step, whatever became of the step.  It is also empty whenever a result is about
to be announced, by whichever call: an alarm that would go off otherwise could do anything, and yet
the session with sentries is the session itself.  Every session in which calls made by listeners
come to an end is one of these, for `depth` large enough; `run` is the one with `nestingDepth`. -/
theorem registry_run (programs : Programs) (mode : Correlation) (depth : Nat) (steps : List Step)
    (s : CallState LogEntry) (empty : s.registry = []) :
    (∀ report ∈ (runWith (stepWith (emitAt programs mode depth) mode) steps s).1,
        report.registry = 0) ∧
      (runWith (stepWith (emitAt programs mode depth) mode) steps s).2.registry = [] ∧
      ∀ alarm : Action Unit,
        runWith (stepWith (guardedAt alarm programs mode depth) mode) steps s =
          runWith (stepWith (emitAt programs mode depth) mode) steps s := by
  obtain ⟨hreports, hlast⟩ :=
    runWith_registry (keeps_stepWith (keeps_emitAt programs mode depth) mode) steps s empty
  exact ⟨hreports, hlast, fun alarm => by rw [stepWith_guardedAt]⟩

/-- The call fails in the middle of its scope, and so does the call inside it. -/
theorem registry_run_rowdy :
    start.registry = [] ∧
      (∀ report ∈ (run rowdy .both
          [.on "differential" "rowdy", .request (.calculate (.text "x*x") rowdyInputs)] start).1,
        report.registry = 0) ∧
      (run rowdy .both
          [.on "differential" "rowdy", .request (.calculate (.text "x*x") rowdyInputs)]
          start).2.registry = [] ∧
      ∀ alarm : Action Unit,
        runWith (stepWith (guardedAt alarm rowdy .both nestingDepth) .both)
            [.on "differential" "rowdy", .request (.calculate (.text "x*x") rowdyInputs)] start =
          run rowdy .both
            [.on "differential" "rowdy", .request (.calculate (.text "x*x") rowdyInputs)] start :=
  ⟨rfl, registry_run rowdy .both nestingDepth _ start rfl⟩

end Session
end ErrorBars
