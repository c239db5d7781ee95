import ErrorBars.Expr.Evaluate.Function

/-!
# Numeric evaluation

`Expr.evaluator` is the evaluator of an expression, made from those of its parts.
-/

set_option autoImplicit false

namespace ErrorBars

namespace Evaluation

/-! ## Leaves -/

/-- A rational number. -/
def rational (q : Rat) : Evaluator := fun bits _ =>
  .ok (if q = 0 then .zero else .real bits (.number (Binary.ofRat bits q)))

/-- A constant. -/
def constant (c : Const) : Evaluator := fun bits _ =>
  .ok (match c with
    | .e => .real bits (.number (Elementary.exp bits Binary.one))
    | .pi => .real bits (.number (Elementary.pi bits))
    | .goldenRatio => .real bits (.number (Special.goldenRatio bits))
    | .eulerGamma => .real bits (.number (Special.eulerGamma bits))
    | .catalan => .real bits (.number (Special.catalan bits))
    | .tribonacci => .real bits (.number (Special.tribonacci bits))
    | .i => .imaginary bits .one
    | .infinity => .real bits (.infinite false)
    | .negInfinity => .real bits (.infinite true)
    | .complexInfinity => .complexInfinity
    | .undefined => .undefined bits)

/-- The evaluator of the condition that two values are equal: zero exactly if it holds. -/
def equal (evs : List Evaluator) : Evaluator := fun bits limit => do
  match ← runAll bits limit evs with
  | [a, b] =>
    let (p, q) := a.values
    let (r, s) := b.values
    return if (p.add bits r.neg).isZero && (q.add bits s.neg).isZero then .zero
      else .real bits .one
  | _ => throw .unsupported

/-- The evaluator of cases, given as pairs of a value and a condition: the value at the first
condition that holds. -/
def cases : List Evaluator → Evaluator
  | value :: condition :: rest => fun bits limit => do
    match ← condition bits limit with
    | .parts none none => value bits limit
    | _ => cases rest bits limit
  | _ => fun _ _ => .error .unsupported

/-- What has no value. -/
def unsupported : Evaluator := fun _ _ => .error .unsupported

/-- The value that a number stands for. -/
def leaf : Expr → Evaluator
  | .rat q => rational q
  | .float x _ => fun bits _ => .ok (.real bits (.number x))
  | .const c => constant c
  | _ => unsupported

end Evaluation

/-- What an evaluation knows beyond the expression: the variables, and how functions are
evaluated. -/
structure Environment where
  /-- the value of a variable -/
  symbol : String → Evaluator
  /-- the value of a function of arguments, given with their evaluators -/
  function : Func → List Expr → List Evaluator → Evaluator

/-- No variable has a value, and functions are evaluated from those of their arguments. -/
def closedEnvironment : Environment where
  symbol _ := Evaluation.unsupported
  function f _ evs := Evaluation.function f evs

namespace Expr

open Evaluation

mutual

/-- The evaluator of an expression in an environment. -/
def evaluatorIn (env : Environment) : Expr → Evaluator
  | .symbol s => env.symbol s
  | .app .add as => sum (evaluatorsIn env as)
  | .app .mul as => product (evaluatorsIn env as)
  | .app .pow [b, e] =>
    match e.int? with
    | some n => powerInt (evaluatorIn env b) n
    | none =>
      if e == half then squareRoot (evaluatorIn env b)
      else if b == euler then exponential (evaluatorIn env e)
      else
        powerGeneral (evaluatorIn env b) (evaluatorIn env e) e.isRational (e.rat?.any (· < 0))
  | .app (.fn f) as => env.function f as (evaluatorsIn env as)
  | .app .piecewise as => cases (evaluatorsIn env as)
  | .app .equal as => equal (evaluatorsIn env as)
  | .app .always _ => fun _ _ => .ok .zero
  | .app _ _ => unsupported
  | e => leaf e

/-- The evaluators of several expressions in an environment. -/
def evaluatorsIn (env : Environment) : List Expr → List Evaluator
  | [] => []
  | a :: as => evaluatorIn env a :: evaluatorsIn env as

end

/-- The evaluator of an expression without variables. -/
def evaluator (e : Expr) : Evaluator := e.evaluatorIn closedEnvironment

end Expr

end ErrorBars
