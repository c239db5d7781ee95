import ErrorBars.Expr.Canonical

/-!
# Evaluation at a point

Sums, products, powers and the functions that keep track of accuracy are evaluated by following them
down to the variables.  Any other function first gets the values put in the place of its variables,
which brings it into canonical form, and is then evaluated as a closed expression.

Where an expression cannot be evaluated in this way, the values are put into the whole of it.  What
comes out is a value, or an expression that has none.

* `Expr.substitute` — a value in the place of a variable.
* `Expr.reach` — what an expression comes to at a point.
-/

set_option autoImplicit false

namespace ErrorBars

/-- Values for variables. -/
abbrev Bindings := List (String × Expr)

namespace Bindings

/-- Whether a value is whole. -/
def isWhole : Expr → Bool
  | .rat q => q.den == 1
  | .float x _ => x.isInteger
  | _ => false

/-- Whether some variable has a value that is not whole. -/
def isFractional (bs : Bindings) : Bool := bs.any fun b => !isWhole b.2

/-- Whether a value is no finite number. -/
def isSpecial : Expr → Bool
  | .rat _ => false
  | .float .. => false
  | _ => true

/-- The order in which values are put in: those that are no finite numbers first, then by name. -/
def ordered (bs : Bindings) : Bindings :=
  let sorted := bs.mergeSort fun a b => decide (a.1 ≤ b.1)
  sorted.filter (fun b => isSpecial b.2) ++ sorted.filter fun b => !isSpecial b.2

/-- A value that carries at least so many bits. -/
def widened (bits : Nat) : Expr → Expr
  | .float x b => .float x (max bits b)
  | e => e

end Bindings

namespace Expr

/-- The condition that two closed expressions are equal, if that can be told. -/
def isEqualTo? (a b : Expr) : Option Bool :=
  if a == b then some true else (Expr.rawAdd [a, rawMul [minusOne, b]]).facts.zero

/-- Cases with the settled conditions worked out: a case that does not hold is dropped, and the
first that holds is the last one. -/
def settleCases : List Expr → List Expr
  | value :: .app .equal [a, b] :: rest =>
    match if a.isConstant && b.isConstant then isEqualTo? a b else none with
    | some true => [value, .app .always []]
    | some false => settleCases rest
    | none => value :: .app .equal [a, b] :: settleCases rest
  | value :: condition :: rest => value :: condition :: settleCases rest
  | es => es

/-- An application built anew, whose function may refuse the arguments. -/
def rebuild? (h : Head) (args : List Expr) : Except ArgumentFault Expr :=
  match h with
  | .fn f => applyChecked f args
  | .piecewise =>
    match settleCases args with
    | value :: .app .always [] :: _ => .ok value
    | [] => .ok undefined
    | args => .ok (.app .piecewise args)
  | h => .ok (rebuild h args)

/-- A derivative at a point, left as it is: its variable becomes a placeholder. -/
def derivativeAt (f : Expr) (name : String) (value : Expr) : Expr :=
  let place : Expr := .dummy "xi"
  let inner := f.foldUp (fun e => if e == .symbol name then place else e) .app
  .app .subs [.app .derivative [inner, place], place, value]

mutual

/-- Puts a value in the place of a variable. -/
def substitute (name : String) (value : Expr) : Expr → Except ArgumentFault Expr
  | .symbol s => .ok (if s = name then value else .symbol s)
  | .app .derivative [f, .symbol s] =>
    if s = name then .ok (derivativeAt f name value)
    else do
      let g ← substitute name value f
      return .app .derivative [g, .symbol s]
  | .app h as => do
    let bs ← substituteAll name value as
    if bs == as then return .app h as else rebuild? h bs
  | e => .ok e

/-- Puts a value in the place of a variable in several expressions. -/
def substituteAll (name : String) (value : Expr) : List Expr → Except ArgumentFault (List Expr)
  | [] => .ok []
  | a :: as => do
    let b ← substitute name value a
    let bs ← substituteAll name value as
    return b :: bs

end

/-- Puts values that carry at least so many bits in the place of variables, one after the other. -/
def substituteMany (bits : Nat) : Bindings → Expr → Except ArgumentFault Expr
  | [], e => .ok e
  | (name, value) :: rest, e => do
    substituteMany bits rest (← substitute name (Bindings.widened bits value) e)

/-- What a refusal means for an evaluation. -/
def ofRefusal : ArgumentFault → EvalFault
  | .divisionByZero => .divisionByZero
  | fault => .refused fault

/-- The evaluator of a function at a point. -/
def functionAt (bindings : Bindings) (f : Func) (args : List Expr) (evs : List Evaluator) :
    Evaluator :=
  match Evaluation.followed? bindings.isFractional f evs with
  | some ev => ev
  | none => fun bits limit =>
    match substituteMany bits bindings.ordered (rawFn f args) with
    | .error fault => .error (ofRefusal fault)
    | .ok v =>
      if v == complexInfinity then .error .unsupported
      else
        match v.evaluator bits limit with
        | .ok .complexInfinity => .ok (.undefined bits)
        | x => x

/-- The environment of a point. -/
def environmentAt (bindings : Bindings) : Environment where
  symbol s := match bindings.lookup s with
    | some value => Evaluation.leaf value
    | none => Evaluation.unsupported
  function := functionAt bindings

/-- What an expression comes to at a point. -/
inductive Reached where
  /-- a value -/
  | value (v : Evaluated)
  /-- an expression without one -/
  | stuck (e : Expr)

/-- The bits of an evaluation at a point, and the limit for the precision of its sums. -/
def pointBits : Nat × Nat := (57, 332)

/-- Whether an expression into which values were put has parts that can be evaluated. -/
def hasEvaluableParts : Expr → Bool
  | .const .complexInfinity => false
  | .symbol _ => false
  | .dummy _ => false
  | .app (.fn f) as =>
    (rawFn f as).isConstant &&
      match (rawFn f as).evaluator pointBits.1 pointBits.2 with
      | .ok _ => true
      | .error _ => false
  | .app .derivative _ => false
  | .app .subs _ => false
  | _ => true

/-- What an expression comes to when all values are put into it. -/
def reachBySubstitution (bindings : Bindings) (e : Expr) : Except EvalFault Reached :=
  match substituteMany 53 bindings.ordered e with
  | .error fault => .error (ofRefusal fault)
  | .ok v =>
    if !v.hasEvaluableParts then .ok (.stuck e)
    else if !v.isConstant then .ok (.stuck v)
    else
      match v.evaluator 53 pointBits.2 with
      | .ok x => .ok (.value x)
      | .error .unsupported => .ok (.stuck v)
      | .error fault => .error fault

/-- What an expression comes to at a point, for all heads alike. -/
def reachPlainly (bindings : Bindings) (e : Expr) : Except EvalFault Reached :=
  match e.evaluatorIn (environmentAt bindings) pointBits.1 pointBits.2 with
  | .ok v => .ok (.value v)
  | .error .unsupported => reachBySubstitution bindings e
  | .error fault => .error fault

/-- A value as an expression. -/
def ofEvaluated (bits : Nat) : Evaluated → Expr
  | .complexInfinity => complexInfinity
  | .parts re im =>
    let part := fun (p : Option Part) => (p.map (Canonical.ofPart bits)).getD zero
    sum [part re, product [part im, imaginary]]

/-- What has been reached as an expression. -/
def Reached.expr : Reached → Expr
  | .value v => ofEvaluated 53 v
  | .stuck e => e

mutual

/-- What an expression comes to at a point.  The largest and the smallest of several expressions
come to the largest and the smallest of what these come to. -/
def reach (bindings : Bindings) : Expr → Except EvalFault Reached
  | .app (.fn f) as =>
    if f = .max ∨ f = .min then do
      let vs ← reachAll bindings as
      match applyChecked f vs with
      | .error fault => .error (ofRefusal fault)
      | .ok v =>
        if !v.isConstant then return .stuck v
        else
          match v.evaluator 53 pointBits.2 with
          | .ok x => return .value x
          | .error _ => return .stuck v
    else reachPlainly bindings (rawFn f as)
  | e => reachPlainly bindings e

/-- What several expressions come to at a point. -/
def reachAll (bindings : Bindings) : List Expr → Except EvalFault (List Expr)
  | [] => .ok []
  | a :: as => do
    let v ← reach bindings a
    let vs ← reachAll bindings as
    return v.expr :: vs

end

end Expr

end ErrorBars
