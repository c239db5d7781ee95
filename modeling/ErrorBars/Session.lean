import ErrorBars.Propagator

/-!
# Sessions with listeners

Listeners are known by name and each has a program.  When an event is reported, every listener that
is registered for it at that moment records the event in the log and then runs its program.  A
program may register and remove listeners, count the registry, fail, and make calls of its own.

A call made by a listener is carried out only if the event that woke the listener was reported by a
call that stands inside few enough others (`emitAt`).  In a session that is a call that no listener
made, so that calls stand at most two deep, and a session always ends.
-/

set_option autoImplicit false

namespace ErrorBars

/-- A call that can be made on a propagator. -/
inductive Request where
  /-- a single calculation -/
  | calculate (expression inputs : Datum)
  /-- a series -/
  | series (expression inputs : Datum)
  /-- the rows of a map of variables -/
  | rows (inputs : Datum)

/-- What a listener does. -/
inductive Reaction where
  /-- record the size of the registry -/
  | count
  /-- fail -/
  | fail (message : String)
  /-- register a listener -/
  | on (event listener : String)
  /-- remove a registration -/
  | off (event listener : String)
  /-- make a call -/
  | request (r : Request)

/-- An entry of the log. -/
inductive LogEntry where
  /-- a listener was told of an event -/
  | told (listener : String) (event : Event)
  /-- a listener counted the registry -/
  | counted (listener : String) (size : Nat)

/-- The answer of a request. -/
inductive Reply where
  /-- a result -/
  | outcome (r : Outcome Double)
  /-- several results -/
  | outcomes (rs : List (Outcome Double))
  /-- rows -/
  | table (rows : List (List (Datum × Datum)))

/-- The programs of the listeners. -/
structure Programs where
  /-- the program of a listener -/
  reactions : String → List Reaction
  /-- whether listeners write down the text of slopes -/
  writesText : Bool

/-- Whether an event can be written down. -/
def Event.isWritable : Event → Bool
  | .differential d => d.expression.isWritable
  | _ => true

namespace Session

/-- A call in a session. -/
abbrev Action := Call LogEntry

/-- Carries out a request. -/
def perform (emit : Event → Action Unit) (mode : Correlation) : Request → Action Reply
  | .calculate expression inputs => do
    return .outcome (← Propagator.calculate emit mode expression inputs)
  | .series expression inputs => do
    return .outcomes (← Propagator.series emit mode expression inputs)
  | .rows inputs =>
    match rows inputs with
    | .ok table => return .table table
    | .error fault => throw (.input fault)

/-- Adds to the log. -/
def record (entry : LogEntry) : Action Unit := modify fun s => { s with log := s.log ++ [entry] }

/-- Changes the listeners of an event, if there is such an event. -/
def changeListeners (event : String) (change : Notifier → Notifier) : Action Unit := do
  let s ← get
  match s.notifier.listeners? event with
  | none => throw (.unknownEvent (s.notifier.unknownMessage event))
  | some _ => set { s with notifier := change s.notifier }

/-- Carries out a reaction of a listener; `nested` carries out its requests. -/
def react (nested : Request → Action Unit) (listener : String) : Reaction → Action Unit
  | .count => do record (.counted listener (← get).registry.length)
  | .fail message => throw (.raised message)
  | .on event other => changeListeners event (·.on event other)
  | .off event other => changeListeners event (·.off event other)
  | .request r => nested r

/-- Tells a listener of an event.  A listener that cannot write the event down fails. -/
def tell (nested : Request → Action Unit) (programs : Programs) (event : Event)
    (listener : String) : Action Unit := do
  if programs.writesText && !event.isWritable then throw (.engine .tooLong)
  record (.told listener event)
  (programs.reactions listener).forM (react nested listener)

/-- Tells all listeners of an event that are registered now, in their order. -/
def announce (nested : Request → Action Unit) (programs : Programs) (event : Event) :
    Action Unit := do
  let listeners := ((← get).notifier.listeners? event.name).getD []
  listeners.forM (tell nested programs event)

/-- Announces an event of a call.  Its listeners may make calls, whose listeners may make calls, and
so on until so many calls stand inside this one; any further call is passed over. -/
def emitAt (programs : Programs) (mode : Correlation) : Nat → Event → Action Unit
  | 0 => announce (fun _ => pure ()) programs
  | depth + 1 => announce (fun r => do let _ ← perform (emitAt programs mode depth) mode r) programs

/-- How many calls made by listeners may stand inside a call. -/
def nestingDepth : Nat := 1

/-- Announces an event of a call that no listener made. -/
def emit (programs : Programs) (mode : Correlation) : Event → Action Unit :=
  emitAt programs mode nestingDepth

/-- A step of a session. -/
inductive Step where
  /-- register a listener -/
  | on (event listener : String)
  /-- remove a registration -/
  | off (event listener : String)
  /-- ask for the correlation mode -/
  | correlation
  /-- make a call -/
  | request (r : Request)

/-- The answer of a step. -/
inductive Answer where
  /-- nothing -/
  | done
  /-- the correlation mode -/
  | mode (c : Correlation)
  /-- the reply to a call -/
  | reply (r : Reply)

/-- Carries out a step, where `emit` announces the events of its call. -/
def stepWith (emit : Event → Action Unit) (mode : Correlation) : Step → Action Answer
  | .on event listener => do
    changeListeners event (·.on event listener)
    return .done
  | .off event listener => do
    changeListeners event (·.off event listener)
    return .done
  | .correlation => return .mode mode
  | .request r => return .reply (← perform emit mode r)

/-- Carries out a step. -/
def step (programs : Programs) (mode : Correlation) : Step → Action Answer :=
  stepWith (emit programs mode) mode

/-- The state in which a session starts: nothing registered, no listeners. -/
def start : CallState LogEntry := ⟨[], Notifier.ofEvents eventNames, []⟩

/-- What a step leaves to be seen: its answer or fault, its own entries of the log, and the size of
the registry after it. -/
structure Report where
  /-- the answer, or why there is none -/
  answer : Except CallFault Answer
  /-- the entries that this step has made -/
  log : List LogEntry
  /-- the size of the registry -/
  registry : Nat

/-- Carries out steps one after the other; a fault ends its step only. -/
def runWith (step : Step → Action Answer) :
    List Step → CallState LogEntry → List Report × CallState LogEntry
  | [], s => ([], s)
  | x :: xs, s =>
    let (answer, s) := step x { s with log := [] }
    let (reports, s') := runWith step xs s
    (⟨answer, s.log, s.registry.length⟩ :: reports, s')

/-- Carries out the steps of a session. -/
def run (programs : Programs) (mode : Correlation) :
    List Step → CallState LogEntry → List Report × CallState LogEntry :=
  runWith (step programs mode)

end Session

end ErrorBars
