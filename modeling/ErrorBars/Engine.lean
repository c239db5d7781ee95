import ErrorBars.Expr.Point
import ErrorBars.Expr.Simplify
import ErrorBars.Expr.Text
import ErrorBars.Formula.Parse

/-!
# The symbolic engine

The engine reads formulas, differentiates them and evaluates them at a point.  It keeps a registry
of every expression that it has read or derived since the registry was last emptied.

An operation of the engine takes the registry and gives back its answer, or the reason why there is
none, together with the registry it leaves behind.  Only a success of `parse` or `differentiate`
adds to the registry; `scope` empties it when its body has ended, in whatever way.
-/

set_option autoImplicit false

namespace ErrorBars

/-- Why the engine gives no answer. -/
inductive EngineFault where
  /-- the text is no formula -/
  | unreadable (source : String)
  /-- the text is a formula, but not one for a number -/
  | notScalar (source : String)
  /-- variables of the expression have no value -/
  | unbound (names : List String) (e : Expr)
  /-- the value is not a real number -/
  | notReal (e : Expr)
  /-- a division by zero, in reading or at the given point -/
  | divisionByZero
  /-- the text closes a parenthesis too often, or takes a part beyond the end of a list -/
  | outOfRange
  /-- the text looks up what a mapping does not hold -/
  | missingKey
  /-- an integer part is wanted although a variable has a value that is not whole -/
  | unsettledInteger
  /-- an integer part of infinity without direction is wanted -/
  | infiniteInteger
  /-- a function refuses the arguments that it has at the given point -/
  | refused (fault : ArgumentFault)
  /-- a number is too long to be written down -/
  | tooLong

/-- The wording of a refusal; a division by zero has none. -/
def ArgumentFault.message? : ArgumentFault → Option String
  | .noDoubleFactorial =>
    some "argument must be nonnegative integer or negative odd integer"
  | .gammaPole => some "gamma function pole"
  | .notComparable e => some ("The argument '" ++ e.text ++ "' is not comparable.")
  | .notOnLine e =>
    some ("Function defined only for Real Values. Complex part: " ++ (Expr.apply .im [e]).text ++
      "  found in " ++ e.text ++ " .")
  | .divisionByZero => none

/-- The wording for a number that is too long to be written down. -/
def tooLongMessage : String :=
  "Exceeds the limit (" ++ toString Expr.digitLimit ++ " digits) for integer string conversion; " ++
    "use sys.set_int_max_str_digits() to increase the limit"

/-- The wording of a fault.  Divisions by zero, positions out of range, missing keys and unsettled
integer parts have none. -/
def EngineFault.message? : EngineFault → Option String
  | .unreadable source => some ("could not parse expression " ++ Text.quoted source)
  | .notScalar source =>
    some ("expression " ++ Text.quoted source ++ " is not a scalar expression")
  | .unbound names e =>
    some ("no values given for " ++ ", ".intercalate names ++ ", cannot evaluate " ++ e.text)
  | .notReal e => some (e.text ++ " does not evaluate to a real number")
  | .divisionByZero => none
  | .outOfRange => none
  | .missingKey => none
  | .unsettledInteger => none
  | .infiniteInteger => some "Cannot get integer part of Complex Infinity"
  | .refused fault => fault.message?
  | .tooLong => some tooLongMessage

namespace Expr

/-- The names of the variables that are left in what has been reached. -/
def leftNames (e : Expr) : List String := e.freeSymbols.mergeSort fun a b => decide (a ≤ b)

/-- The real value of an evaluated expression, if it has one: its imaginary part is absent or
zero. -/
def realValue? : Evaluated → Option Double
  | .complexInfinity => none
  | .parts re im =>
    let isReal := match im with
      | none => true
      | some x => x.value.isZero
    if isReal then
      some (match re with
        | some x => x.value.toDouble
        | none => Double.zero false)
    else none

/-- The fault of an expression without a real value. -/
def valueFault (e : Expr) (names : List String) : EngineFault :=
  if !e.isWritable then .tooLong
  else
    match names with
    | [] => .notReal e
    | names => .unbound names e

/-- What a fault of an evaluation means for the engine. -/
def ofEvalFault (e : Expr) : EvalFault → EngineFault
  | .divisionByZero => .divisionByZero
  | .unsupported => valueFault e []
  | .unsettledInteger => .unsettledInteger
  | .infiniteInteger => .infiniteInteger
  | .refused fault => .refused fault

/-- The value of an expression at a point. -/
def evaluate (e : Expr) (bindings : Bindings) : Except EngineFault Double :=
  match e.reach bindings with
  | .error fault => .error (ofEvalFault e fault)
  | .ok (.stuck rest) => .error (valueFault e rest.leftNames)
  | .ok (.value v) =>
    match realValue? v with
    | some x => .ok x
    | none => .error (valueFault e [])

/-- The simplified partial derivative. -/
def differentiate (e : Expr) (name : String) : Expr := (e.derivative name).simplify

end Expr

/-- The expressions that the engine holds, the oldest one first. -/
abbrev Registry := List Expr

namespace Engine

/-- The value of a fault of reading. -/
def ofParseFault (source : String) : Formula.ParseFault → EngineFault
  | .unreadable => .unreadable source
  | .notScalar => .notScalar source
  | .outOfRange => .outOfRange
  | .missingKey => .missingKey
  | .divisionByZero => .divisionByZero

/-- Reads a formula. -/
def parse (source : String) (names : List String) (r : Registry) :
    Except EngineFault Expr × Registry :=
  match Formula.parse source names with
  | .ok e => (.ok e, r ++ [e])
  | .error fault => (.error (ofParseFault source fault), r)

/-- Differentiates an expression. -/
def differentiate (e : Expr) (name : String) (r : Registry) : Expr × Registry :=
  let d := e.differentiate name
  (d, r ++ [d])

end Engine

end ErrorBars
