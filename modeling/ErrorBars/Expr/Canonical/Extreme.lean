import ErrorBars.Expr.Canonical.Arith

/-!
# Extremes

The largest and the smallest of several expressions.  Arguments that cannot decide the result are
left out: one that another argument is known to exceed, and one that is absorbed, as in `max x (min
x y) = x`.  What the opposite extremes among the arguments have in common comes in front, as in `max
(min x y) (min x z) = min x (max y z)`.
-/

set_option autoImplicit false

namespace ErrorBars.Canonical

/-- The function that yields the largest, or the smallest, argument. -/
def extremeFunc (largest : Bool) : Func := if largest then .max else .min

/-- The end of the real line that is never the largest, or the smallest. -/
def extremeBottom (largest : Bool) : Expr := if largest then .const .negInfinity else Expr.infinity

/-- The expressions, each once. -/
def distinct (es : List Expr) : List Expr :=
  es.foldl (fun acc e => if acc.any (· == e) then acc else acc ++ [e]) []

/-- An extreme of arguments that are only put in order. -/
def plainExtreme (largest : Bool) (es : List Expr) : Expr :=
  match Expr.sortBySize (distinct es) with
  | [] => extremeBottom largest
  | [e] => e
  | es => Expr.rawFn (extremeFunc largest) es

/-- The kind and the arguments of an extreme. -/
def asExtreme? : Expr → Option (Bool × List Expr)
  | .app (.fn .max) as => some (true, as)
  | .app (.fn .min) as => some (false, as)
  | _ => none

/-- The arguments of nested applications of one function. -/
def openNested (f : Func) (es : List Expr) : List Expr :=
  es.flatMap fun
    | .app (.fn g) as => if f = g then as else [.app (.fn g) as]
    | e => [e]

/-! ## Comparing -/

/-- Whether one expression is not below another, if that is known. -/
def notBelow? (A : Arith) (a b : Expr) : Option Bool :=
  if a.isNumber && b.isNumber then some (!a.lessNumber b)
  else if a.facts.real == some true && b.facts.real == some true then
    let d := (A.sub a b).facts
    if d.isNonnegative then some true
    else if d.isNegative then some false
    else none
  else none

/-- Whether the first of two expressions is the larger one, if that is known; equal expressions
count as such. -/
def isLarger? (A : Arith) (a b : Expr) : Option Bool :=
  if a == b then some true
  else
    let compareBoth := fun (a b : Expr) =>
      match notBelow? A a b with
      | some v => some v
      | none => (notBelow? A b a).map (!·)
    match compareBoth a b with
    | some v => some v
    | none => compareBoth (A.sub a b) Expr.zero

/-- Takes one more expression in among those that may be the extreme. -/
def takeCandidate (A : Arith) (largest : Bool) (kept : List Expr) (e : Expr) : List Expr :=
  let relations := kept.map fun k => (k, isLarger? A e k)
  let left := relations.filter fun r =>
    match r.2 with
    | some v => v != largest && !(e == r.1)
    | none => true
  if relations.any fun r => r.2.isSome then
    if left.length < kept.length then left.map (·.1) ++ [e] else kept
  else kept ++ [e]

/-! ## Leaving arguments out -/

mutual

/-- The closed arguments of extremes of one kind within an expression that is an extreme itself. -/
def nestedNumbers (largest : Bool) : Expr → List Expr
  | .app (.fn f) as =>
    if f = .max ∨ f = .min then
      (if f = extremeFunc largest then (as.take 1).filter Expr.isConstant else []) ++
        nestedNumbersAll largest as
    else []
  | _ => []

/-- The closed arguments of extremes of one kind within several expressions. -/
def nestedNumbersAll (largest : Bool) : List Expr → List Expr
  | [] => []
  | a :: as => nestedNumbers largest a ++ nestedNumbersAll largest as

end

/-- The more extreme one of two closed expressions. -/
def moreExtreme (A : Arith) (largest : Bool) (a b : Expr) : Expr :=
  match notBelow? A a b with
  | some v => if v == largest then a else b
  | none => a

/-- Leaves out opposite extremes whose number is on the wrong side of a closed argument. -/
def dropBounded (A : Arith) (largest : Bool) (es : List Expr) : List Expr :=
  match es with
  | [] => []
  | first :: _ =>
    if first.isConstant then
      let numbers := nestedNumbersAll largest es ++ es.takeWhile Expr.isConstant
      let bound := numbers.foldl (fun m n => moreExtreme A largest m n) first
      es.filter fun e =>
        match asExtreme? e with
        | some (kind, a :: _) =>
          !(kind != largest && a.isConstant && !(a == bound) &&
            notBelow? A bound a == some largest)
        | _ => true
    else es

mutual

/-- An extreme without an argument that stands beside it: where the opposite extreme has that
argument the argument alone is left. -/
def without (largest : Bool) (a : Expr) : Expr → Expr
  | .app (.fn f) as =>
    if f = .max ∨ f = .min then
      let rest := withoutAll largest a as
      if as.any (· == a) then
        if f = extremeFunc largest then plainExtreme largest (rest.filter fun e => !(e == a)) else a
      else plainExtreme (f = .max) rest
    else .app (.fn f) as
  | e => e

/-- Several extremes without an argument that stands beside them. -/
def withoutAll (largest : Bool) (a : Expr) : List Expr → List Expr
  | [] => []
  | e :: es => without largest a e :: withoutAll largest a es

end

/-- Leaves every argument out of the extremes that stand behind it. -/
def absorb (largest : Bool) : Nat → List Expr → List Expr
  | 0, es => es
  | _ + 1, [] => []
  | fuel + 1, e :: es => e :: absorb largest fuel (es.map (without largest e))

/-- Takes what the opposite extremes among the arguments have in common in front of them. -/
def shareArguments (largest : Bool) (es : List Expr) : List Expr :=
  let opposite := es.filterMap fun e => (asExtreme? e).filter fun x => x.1 != largest
  let others := es.filter fun e => !((asExtreme? e).any fun x => x.1 != largest)
  match opposite with
  | [] => es
  | (_, first) :: rest =>
    let common := first.filter fun a => rest.all fun x => x.2.any (· == a)
    if common.isEmpty then es
    else
      let left := opposite.map fun x => x.2.filter fun a => !common.any (· == a)
      let inner := if left.any List.isEmpty then []
        else [plainExtreme largest (left.map (plainExtreme (!largest)))]
      others ++ [plainExtreme (!largest) (common ++ inner)]

/-! ## The whole -/

/-- The largest, or smallest, of several expressions. -/
def extreme (A : Arith) (largest : Bool) (es : List Expr) : Option Expr :=
  let top := extremeBottom (!largest)
  let bottom := extremeBottom largest
  let es := distinct (openNested (extremeFunc largest) (es.filter fun e => !(e == bottom)))
  if es.any (· == top) then some top
  else
    let es := dropBounded A largest (Expr.sortBySize es)
    let es := absorb largest es.length es
    let es := if es.length < 2 then es else shareArguments largest es
    some (plainExtreme largest ((distinct es).foldl (takeCandidate A largest) []))

end ErrorBars.Canonical
