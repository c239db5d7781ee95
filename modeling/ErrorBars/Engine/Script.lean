import ErrorBars.Engine

/-!
# Programs for the engine

A script is a list of steps that an engine carries out one after the other.  Steps refer to
expressions by their place in the history, which holds every expression that the engine has given
back so far; unlike the registry it never shrinks.

A scope carries out steps of its own.  A fault inside leaves the scope, unless the scope gathers the
faults of its steps; in both cases, and when it fails on purpose at its end, the registry is empty
afterwards.
-/

set_option autoImplicit false

namespace ErrorBars.Engine

/-- A step. -/
inductive Step where
  /-- read a formula -/
  | parse (source : String) (names : List String)
  /-- differentiate an expression of the history -/
  | differentiate (target : Nat) (name : String)
  /-- evaluate an expression of the history -/
  | evaluate (target : Nat) (bindings : Bindings)
  /-- list the variables of an expression of the history -/
  | freeVariables (target : Nat) (source : String)
  /-- count the expressions in the registry -/
  | expressions
  /-- empty the registry -/
  | clear
  /-- carry out steps in a scope, gathering their faults or not, and fail at its end or not -/
  | scope (steps : List Step) (gathers : Bool) (failure : Option String)

instance : Inhabited Step := ⟨.clear⟩

/-- Why a step has no answer. -/
inductive StepFault where
  /-- the engine gives none -/
  | engine (fault : EngineFault)
  /-- the scope fails on purpose -/
  | failed (message : String)

/-- The answer of a step. -/
inductive Answer where
  /-- an expression -/
  | expression (e : Expr)
  /-- a number -/
  | number (x : Double)
  /-- names -/
  | names (ns : List String)
  /-- a count -/
  | count (n : Nat)
  /-- nothing -/
  | done
  /-- the answers of a scope -/
  | scope (answers : List Answer)
  /-- the answers and faults of a scope, each with the registry after it -/
  | gathered (outcomes : List (Except StepFault Answer × Registry))

instance : Inhabited Answer := ⟨.done⟩

/-- The registry and the history. -/
structure Bench where
  /-- the expressions held now -/
  registry : Registry
  /-- all expressions given back so far -/
  history : List Expr

/-- A fresh engine. -/
def Bench.empty : Bench := ⟨[], []⟩

/-- The answer of a step, and what it leaves behind. -/
abbrev Staged := Except StepFault Answer × Bench

/-- An operation on an expression of the history. -/
def onHistory (b : Bench) (target : Nat) (f : Expr → Staged) : Staged :=
  match b.history[target]? with
  | some e => f e
  | none => (.error (.engine .outOfRange), b)

/-- The answer that is an expression, if it can be written down. -/
def giveBack (e : Expr) (r : Registry) (b : Bench) : Staged :=
  (if e.isWritable then .ok (.expression e) else .error (.engine .tooLong), ⟨r, b.history ++ [e]⟩)

/-- What steps came to, each with the registry after it. -/
abbrev Outcomes := List (Except StepFault Answer × Registry)

/-- Outcomes, if all expressions in the registries can be written down. -/
def written (outcomes : Outcomes) : Except EngineFault Outcomes :=
  if outcomes.all fun o => o.2.all Expr.isWritable then .ok outcomes else .error .tooLong

/-- Ends a scope: the registry is emptied. -/
def close (failure : Option String) : Except StepFault Answer → Bench → Staged
  | .error fault, b => (.error fault, { b with registry := [] })
  | .ok answer, b =>
    (match failure with
      | some message => .error (.failed message)
      | none => .ok answer, { b with registry := [] })

mutual

/-- Carries out a step. -/
def run : Step → Bench → Staged
  | .parse source names, b =>
    match parse source names b.registry with
    | (.ok e, r) => giveBack e r b
    | (.error fault, r) => (.error (.engine fault), { b with registry := r })
  | .differentiate target name, b =>
    onHistory b target fun e =>
      let (d, r) := differentiate e name b.registry
      giveBack d r b
  | .evaluate target bindings, b =>
    onHistory b target fun e =>
      match e.evaluate bindings with
      | .ok x => (.ok (.number x), b)
      | .error fault => (.error (.engine fault), b)
  | .freeVariables target source, b =>
    onHistory b target fun e => (.ok (.names (Formula.freeVariables e source)), b)
  | .expressions, b => (.ok (.count b.registry.length), b)
  | .clear, b => (.ok .done, { b with registry := [] })
  | .scope steps gathers failure, b =>
    if gathers then
      let (outcomes, b) := runAll steps b
      match written outcomes with
      | .ok outcomes => close failure (.ok (.gathered outcomes)) b
      | .error fault => close none (.error (.engine fault)) b
    else
      let (answers, b) := runUntilFault steps b
      close failure (answers.map .scope) b

/-- Carries out all steps, whatever comes of each. -/
def runAll : List Step → Bench → Outcomes × Bench
  | [], b => ([], b)
  | s :: rest, b =>
    let (outcome, b) := run s b
    let (outcomes, b') := runAll rest b
    ((outcome, b.registry) :: outcomes, b')

/-- Carries out steps up to the first fault. -/
def runUntilFault : List Step → Bench → Except StepFault (List Answer) × Bench
  | [], b => (.ok [], b)
  | s :: rest, b =>
    match run s b with
    | (.error fault, b) => (.error fault, b)
    | (.ok answer, b) =>
      match runUntilFault rest b with
      | (.ok answers, b) => (.ok (answer :: answers), b)
      | (.error fault, b) => (.error fault, b)

end

/-- What steps come to on a fresh engine. -/
def transcript (steps : List Step) : Except EngineFault Outcomes :=
  written (runAll steps Bench.empty).1

end ErrorBars.Engine
