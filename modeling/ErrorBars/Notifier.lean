import ErrorBars.Text.Quoted

/-!
# Listeners

A notifier keeps, for each of its events, the list of registered listeners in the order of their
registration.  A listener may be registered several times.  `Notifier.on` appends one registration,
`Notifier.off` removes the oldest one of that listener, and everything else stays as it is.

An emission calls the listeners that are registered when it starts.  What a listener does is a
program of actions (`Script`), which may register, remove, ask, emit again or fail.  `Script.act`
runs an action; its first argument bounds how deeply emissions may stand inside each other.
-/

set_option autoImplicit false

namespace ErrorBars

/-- The listeners of each event. -/
structure Notifier where
  /-- events with their listeners, in the order in which the events were given -/
  channels : List (String × List String)
  deriving DecidableEq

namespace Notifier

/-- A notifier for the given events, without listeners.  An event given again is the same one. -/
def ofEvents (events : List String) : Notifier :=
  ⟨events.eraseDups.map fun e => (e, [])⟩

/-- The events of a notifier. -/
def events (n : Notifier) : List String := n.channels.map Prod.fst

/-- The listeners of an event, if the notifier knows it. -/
def listeners? (n : Notifier) (event : String) : Option (List String) := n.channels.lookup event

/-- Changes the listeners of one event. -/
def modify (n : Notifier) (event : String) (f : List String → List String) : Notifier :=
  ⟨n.channels.map fun c => if c.1 = event then (c.1, f c.2) else c⟩

/-- Registers a listener behind all others. -/
def on (n : Notifier) (event listener : String) : Notifier := n.modify event (· ++ [listener])

/-- Removes the oldest registration of a listener. -/
def off (n : Notifier) (event listener : String) : Notifier := n.modify event (·.erase listener)

/-- The message about an event that the notifier does not know. -/
def unknownMessage (n : Notifier) (event : String) : String :=
  "unknown event " ++ Text.quoted event ++ ", expected one of " ++ ", ".intercalate n.events

end Notifier

/-- What a step on a notifier, or a listener, may do; `α` is what an emission carries. -/
inductive Action (α : Type) where
  /-- register a listener -/
  | on (event listener : String)
  /-- remove a registration -/
  | off (event listener : String)
  /-- call the listeners of an event -/
  | emit (event : String) (args : List α)
  /-- ask for the listeners of an event -/
  | listeners (event : String)
  /-- fail -/
  | fail (message : String)

/-- Why an action fails. -/
inductive NotifierFault where
  /-- the event is not known; the message lists those that are -/
  | unknownEvent (message : String)
  /-- a listener failed on its own account -/
  | raised (message : String)
  /-- emissions stand too deep inside each other -/
  | tooDeep
  deriving DecidableEq

/-- The program of each listener. -/
abbrev Script (α : Type) := String → List (Action α)

/-- A notifier with the calls made so far: the listener and what it was called with. -/
structure Stage (α : Type) where
  /-- the notifier -/
  notifier : Notifier
  /-- the calls, the first one first -/
  log : List (String × List α)

/-- The result of an action, with the stage it leaves behind, also when it fails. -/
abbrev Staged (α β : Type) := Stage α → Except NotifierFault β × Stage α

namespace Script

variable {α : Type}

/-- Runs actions in order, up to the first that fails. -/
def each {β : Type} (run : β → Staged α Unit) : List β → Staged α Unit
  | [], s => (.ok (), s)
  | x :: xs, s =>
    match run x s with
    | (.ok _, s') => each run xs s'
    | (.error fault, s') => (.error fault, s')

/-- One call of a listener: it is recorded, and then its program runs. -/
def call (run : Action α → Staged α Unit) (script : Script α) (args : List α)
    (listener : String) : Staged α Unit := fun s =>
  each run (script listener) { s with log := s.log ++ [(listener, args)] }

/-- Runs an action.  The answer of a question is the list of listeners; everything else answers
nothing. -/
def act (script : Script α) : Nat → Action α → Staged α (Option (List String))
  | depth, action, s =>
    match action with
    | .fail message => (.error (.raised message), s)
    | .on event listener =>
      match s.notifier.listeners? event with
      | none => (.error (.unknownEvent (s.notifier.unknownMessage event)), s)
      | some _ => (.ok none, { s with notifier := s.notifier.on event listener })
    | .off event listener =>
      match s.notifier.listeners? event with
      | none => (.error (.unknownEvent (s.notifier.unknownMessage event)), s)
      | some _ => (.ok none, { s with notifier := s.notifier.off event listener })
    | .listeners event =>
      match s.notifier.listeners? event with
      | none => (.error (.unknownEvent (s.notifier.unknownMessage event)), s)
      | some names => (.ok (some names), s)
    | .emit event args =>
      match s.notifier.listeners? event with
      | none => (.error (.unknownEvent (s.notifier.unknownMessage event)), s)
      | some names =>
        match depth with
        | 0 => (.error .tooDeep, s)
        | depth + 1 =>
          let run : Action α → Staged α Unit := fun a s =>
            match act script depth a s with
            | (.ok _, s') => (.ok (), s')
            | (.error fault, s') => (.error fault, s')
          match each (call run script args) names s with
          | (.ok _, s') => (.ok none, s')
          | (.error fault, s') => (.error fault, s')

end Script

end ErrorBars
