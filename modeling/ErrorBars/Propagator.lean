import ErrorBars.Engine
import ErrorBars.Notifier
import ErrorBars.Outcome
import ErrorBars.Series
import ErrorBars.Text.Blank

/-!
# Propagation of uncertainty

`calculate` takes a formula and measurements of its variables and gives the value with its error.
Each variable contributes the slope of the formula in its direction times its own error; the
contributions are combined as the correlation mode says.

A call reports what it does: the arguments before anything is checked, each slope as it is found,
and the result.  What happens with a report is up to the caller (`emit`); it may change the state,
and it may fail, which ends the call.  The registry of the engine is empty when a call has ended.
-/

set_option autoImplicit false

namespace ErrorBars

/-- The slope of a formula in the direction of one variable. -/
structure Differential where
  /-- the slope at the measured point -/
  value : Double
  /-- the name of the variable -/
  name : String
  /-- its measurement -/
  measurement : Measurement
  /-- what the variable contributes to the error -/
  contribution : Double
  /-- the simplified derivative -/
  expression : Expr

/-- What a call reports. -/
inductive Event where
  /-- the arguments -/
  | input (expression inputs : Datum)
  /-- a slope -/
  | differential (d : Differential)
  /-- the result -/
  | result (r : Outcome Double)

/-- The name of the kind of an event. -/
def Event.name : Event → String
  | .input .. => "input"
  | .differential _ => "differential"
  | .result _ => "result"

/-- The names of all events. -/
def eventNames : List String := ["input", "differential", "result"]

/-- Why a call has no result. -/
inductive CallFault where
  /-- the input is malformed -/
  | input (fault : InputFault)
  /-- a number is too large for a double -/
  | overflow
  /-- the engine gives no answer -/
  | engine (fault : EngineFault)
  /-- variables of the formula have no measurement -/
  | missing (names : List String) (source : String)
  /-- a listener was to be registered for an event that there is not -/
  | unknownEvent (message : String)
  /-- a listener failed -/
  | raised (message : String)

/-- The wording of a fault, if it has one. -/
def CallFault.message? : CallFault → Option String
  | .input fault => some fault.message
  | .overflow => none
  | .engine fault => fault.message?
  | .missing names source =>
    some ("no values given for " ++ ", ".intercalate names ++ " in " ++ Text.quoted source)
  | .unknownEvent message => some message
  | .raised message => some message

/-- What calls share: the registry of the engine, the listeners, and a log. -/
structure CallState (ε : Type) where
  /-- the expressions that the engine holds -/
  registry : Registry
  /-- the listeners -/
  notifier : Notifier
  /-- what listeners have recorded, the oldest entry first -/
  log : List ε

/-- A call: an answer or a fault, and the state it leaves behind in either case. -/
abbrev Call (ε α : Type) := ExceptT CallFault (StateM (CallState ε)) α

namespace Call

variable {ε : Type}

/-- Empties the registry when the body has ended, in whatever way. -/
def scope {α : Type} (body : Call ε α) : Call ε α := fun s =>
  let (answer, s) := body s
  (answer, { s with registry := [] })

/-- An operation of the engine. -/
def parse (source : String) (names : List String) : Call ε Expr := fun s =>
  match Engine.parse source names s.registry with
  | (.ok e, r) => (.ok e, { s with registry := r })
  | (.error fault, r) => (.error (.engine fault), { s with registry := r })

/-- The simplified derivative, which is added to the registry. -/
def differentiate (e : Expr) (name : String) : Call ε Expr := fun s =>
  let (d, r) := Engine.differentiate e name s.registry
  (.ok d, { s with registry := r })

/-- The value of an expression. -/
def evaluate (e : Expr) (bindings : Bindings) : Call ε Double :=
  match e.evaluate bindings with
  | .ok x => pure x
  | .error fault => throw (.engine fault)

end Call

namespace Propagator

/-- The formula, if one is given. -/
def readFormula : Datum → Except InputFault String
  | .text s => if (Text.strip s.toList).isEmpty then .error .noFormula else .ok s
  | _ => .error .noFormula

/-- A double as an expression. -/
def doubleExpr (x : Double) : Expr :=
  match Binary.ofDouble? x, x with
  | some b, _ => .float b 53
  | none, .infinite negative => .const (if negative then .negInfinity else .infinity)
  | none, _ => Expr.undefined

/-- The measured values of all variables. -/
def bindings (vs : Variables) : Bindings := vs.map fun v => (v.1, doubleExpr v.2.value)

/-- The slope in the direction of one variable. -/
def slope (value : Double) (name : String) (m : Measurement) (e : Expr) : Differential :=
  ⟨value, name, m, value.abs.mul m.error, e⟩

/-- The contribution of a slope to the error. -/
def term (d : Differential) : Contribution :=
  ⟨.float d.value, .float d.measurement.error⟩

/-- The total error of a formula with the given slopes; without slopes it is zero. -/
def totalError (mode : Correlation) : List Contribution → Except CallFault (Figure Double)
  | [] => .ok (.single (Double.zero false))
  | cs =>
    match combine? mode cs with
    | some figure => .ok figure
    | none => .error .overflow

section

variable {ε : Type} (emit : Event → Call ε Unit)

/-- The slopes in the directions of the variables, one after the other. -/
def slopes (f : Expr) (vs : Variables) (point : Bindings) :
    List String → Call ε (List Differential)
  | [] => pure []
  | name :: names => do
    match vs.find? name with
    | none => throw (.missing [name] "")
    | some m => do
      let d ← Call.differentiate f name
      let value ← Call.evaluate d point
      let s := slope value name m d
      emit (.differential s)
      let rest ← slopes f vs point names
      return s :: rest

/-- The value and the slopes of a formula at the measured point. -/
def expand (source : String) (vs : Variables) : Call ε (Double × List Differential) :=
  Call.scope do
    let f ← Call.parse source (vs.map Prod.fst)
    let names := Formula.freeVariables f source
    match names.filter fun name => (vs.find? name).isNone with
    | [] =>
      let point := bindings vs
      let ds ← slopes emit f vs point names
      let value ← Call.evaluate f point
      return (value, ds)
    | missing => throw (.missing missing source)

/-- What a fault in reading variables means for a call. -/
def ofVariablesFault : VariablesFault → CallFault
  | .input fault => .input fault
  | .overflow => .overflow

/-- The value of a formula with its error. -/
def calculate (mode : Correlation) (expression inputs : Datum) : Call ε (Outcome Double) := do
  emit (.input expression inputs)
  match readFormula expression with
  | .error fault => throw (.input fault)
  | .ok source =>
    match readVariables inputs with
    | .error fault => throw (ofVariablesFault fault)
    | .ok vs => do
      let (value, ds) ← expand emit source vs
      match totalError mode (ds.map term) with
      | .error fault => throw fault
      | .ok error => do
        let r : Outcome Double := ⟨value, error⟩
        emit (.result r)
        return r

/-- The names among the keys of a map. -/
def keyNames : Datum → List String
  | .mapping entries => entries.filterMap fun e => match e.1 with
    | .text s => some s
    | _ => none
  | _ => []

/-- Results for all rows, one after the other. -/
def calculateRows (mode : Correlation) (expression : Datum) :
    List (List (Datum × Datum)) → Call ε (List (Outcome Double))
  | [] => pure []
  | row :: rest => do
    let r ← calculate emit mode expression (.mapping row)
    let rs ← calculateRows mode expression rest
    return r :: rs

/-- The results for a series of measurements.  An empty series still reports its arguments and reads
the formula. -/
def series (mode : Correlation) (expression inputs : Datum) :
    Call ε (List (Outcome Double)) := do
  match rows inputs with
  | .error fault => throw (.input fault)
  | .ok [] => do
    emit (.input expression inputs)
    match readFormula expression with
    | .error fault => throw (.input fault)
    | .ok source => do
      let _ ← Call.scope (Call.parse source (keyNames inputs))
      return []
  | .ok table => calculateRows emit mode expression table

end

end Propagator

end ErrorBars
