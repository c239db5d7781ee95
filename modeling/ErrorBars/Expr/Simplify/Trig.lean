import ErrorBars.Expr.Simplify.Factor
import ErrorBars.Expr.Simplify.OpCount
import ErrorBars.Expr.Simplify.Trig.Rules

/-!
# Shorter forms with circular and hyperbolic functions

`circularStep` sends an expression through all rules, one after the other, and keeps the result only
if it is simpler than what it started from; where two ways are open the simpler one is taken.
Simpler means fewer functions, then fewer operations, then fewer nodes (`trigWeight`).

Hyperbolic functions are circular ones of an imaginary angle, so that the same rules serve them.
-/

set_option autoImplicit false

namespace ErrorBars.Expr

/-! ## Choosing -/

mutual

/-- The number of circular functions. -/
def circularCount : Expr → Nat
  | .app h as => (if isCircular (.app h as) then 1 else 0) + circularCounts as
  | _ => 0

/-- The number of circular functions in several expressions. -/
def circularCounts : List Expr → Nat
  | [] => 0
  | a :: as => circularCount a + circularCounts as

end

/-- What decides between two forms: the number of circular functions, of operations, of nodes and of
arguments, and whether it is a sum. -/
def trigWeight (e : Expr) : List Nat :=
  [e.circularCount, e.opCount, e.size, e.args.length, if e.isAdd then 1 else 0]

/-- The first of the simplest forms. -/
def simplestTrig (first : Expr) (others : List Expr) : Expr :=
  (others.foldl (fun (best : Expr × List Nat) e =>
    let w := e.trigWeight
    if compare w best.2 == .lt then (e, w) else best) (first, first.trigWeight)).1

/-- One step: either a rule, or the simplest result of several. -/
abbrev TrigStep := Expr → Expr

/-- The simplest result of several steps. -/
def anyOfSteps (first : TrigStep) (others : List TrigStep) : TrigStep := fun e =>
  simplestTrig (first e) (others.map fun f => f e)

/-- The step that changes nothing. -/
def stay : TrigStep := fun e => e

/-- Multiplies out products and powers. -/
def multiplyOut : TrigStep := expand Expansion.algebraic

/-- Multiplies out products. -/
def multiplyProducts : TrigStep := expand Expansion.productsOnly

/-- Factors an expression that is brought over one denominator first. -/
def factorQuotient : TrigStep := fun e =>
  let (n, d) := e.numerDenom
  factor (if d == one then n else n / d)

/-- The steps in their order. -/
def trigSteps : List TrigStep :=
  [ turnAngles,
    secantsToReciprocals,
    openTangents,
    factor,
    tangentsToQuotients,
    anyOfSteps stay [multiplyOut],
    quotientsToTangents,
    factorQuotient,
    joinConjugates,
    sineSquares.apply,
    openAngles,
    openDoubles,
    openSharedDoubles,
    cosineSquares.apply,
    factor,
    joinConjugates,
    anyOfSteps stay [multiplyOut],
    joinAngles,
    joinDoubledCosines,
    anyOfSteps stay [productsToSums],
    anyOfSteps stay [fun e => quotientsToTangents (tangentsToQuotients e)],
    anyOfSteps (fun e => multiplyProducts (sineSquares.apply e))
      [fun e => multiplyProducts (sineReciprocals.applyBelow e)],
    anyOfSteps (fun e => multiplyProducts (cosineSquares.apply e))
      [fun e => multiplyProducts (cosineReciprocals.applyBelow e)],
    reciprocalsToSecants,
    anyOfSteps stay [quotientsToTangents],
    anyOfSteps stay
      [fun e => multiplyProducts (cotangentSquares.apply (tangentSquares.apply e))],
    secantsToReciprocals,
    tangentsToQuotients,
    quotientsToTangents,
    anyOfSteps stay [fun e => factorTerms true (openTangents e)] ]

/-- All steps on one expression, kept only if the result is simpler. -/
def circularStep (e : Expr) : Expr :=
  if !e.hasCircular then e
  else
    let (outer, inner) := match e with
      | .app .mul fs =>
        (product (fs.filter fun f => !f.hasCircular), product (fs.filter hasCircular))
      | e => (one, e)
    let best := simplestTrig inner [trigSteps.foldl (fun acc step => step acc) inner]
    if outer == one then best else outer * best

/-! ## Hyperbolic functions -/

/-- The hyperbolic functions. -/
def hyperbolicFunctions : List Func := [.sinh, .cosh, .tanh, .coth, .sech, .csch]

/-- Whether a hyperbolic function occurs. -/
def hasHyperbolic (e : Expr) : Bool := e.hasFn hyperbolicFunctions

/-- The placeholder that marks the angles of hyperbolic functions. -/
def hyperbolicMark : Expr := .dummy "angle"

/-- A marked angle; in a sum every term is marked. -/
def markAngle : Expr → Expr
  | .app .add ts => sum (ts.map (· * hyperbolicMark))
  | x => x * hyperbolicMark

/-- Hyperbolic functions as circular functions of marked angles. -/
def hyperbolicToCircular (e : Expr) : Expr :=
  e.bottomUp fun
    | .app (.fn f) [x] =>
      let y := markAngle x
      match f with
      | .sinh => imaginary * apply .sin [y]
      | .cosh => apply .cos [y]
      | .tanh => imaginary * apply .tan [y]
      | .coth => apply .cot [y] / imaginary
      | .sech => apply .sec [y]
      | .csch => apply .csc [y] / imaginary
      | _ => .app (.fn f) [x]
    | e => e

/-- Puts an expression for a placeholder. -/
def fill (name : String) (value : Expr) (e : Expr) : Expr :=
  e.foldUp (fun l => if l == .dummy name then value else l) rebuild

/-- An angle without its mark; the terms that carry none become imaginary. -/
def unmarkAngle (y : Expr) : Expr :=
  let ts := y.terms
  let marked := ts.filter (·.has hyperbolicMark)
  let plain := ts.filter fun t => !t.has hyperbolicMark
  fill "angle" one (sum marked) + sum plain * imaginary

/-- Circular functions of marked angles as hyperbolic functions. -/
def circularToHyperbolic (e : Expr) : Expr :=
  e.bottomUp fun
    | .app (.fn f) [y] =>
      if y.has hyperbolicMark then
        let x := unmarkAngle y
        match f with
        | .sin => apply .sinh [x] / imaginary
        | .cos => apply .cosh [x]
        | .tan => apply .tanh [x] / imaginary
        | .cot => imaginary * apply .coth [x]
        | .sec => apply .sech [x]
        | .csc => imaginary * apply .csch [x]
        | _ => .app (.fn f) [y]
      else .app (.fn f) [y]
    | e => e

mutual

/-- Puts the imaginary unit in front of what it multiplies in a sum; not inside functions. -/
def gatherImaginary : Expr → Expr
  | .app .add ts =>
    match sum (gatherImaginaryAll ts) with
    | .app .add us =>
      let isImaginary := fun (t : Expr) => t.factors.any (· == imaginary)
      let parts := (us.filter isImaginary).map fun t =>
        product (t.factors.filter fun f => !(f == imaginary))
      imaginary * sum parts + sum (us.filter fun t => !isImaginary t)
    | e => e
  | .app .mul fs => product (gatherImaginaryAll fs)
  | .app .pow [b, e] => power (gatherImaginary b) e
  | e => e

/-- Puts the imaginary unit in front of what it multiplies in sums. -/
def gatherImaginaryAll : List Expr → List Expr
  | [] => []
  | e :: es => gatherImaginary e :: gatherImaginaryAll es

end

/-- Hides parts behind placeholders. -/
def hide (parts : List (Expr × String)) : Expr → Expr := fun e =>
  parts.foldl (fun acc p =>
    acc.bottomUp fun x => if x == p.1 then .dummy p.2 else x) e

/-- Applies a step for circular functions to the hyperbolic functions of an expression, whose
circular functions are left alone. -/
def onHyperbolic (step : Expr → Expr) (e : Expr) : Expr :=
  let circular := e.partsWith isCircular
  let named := circular.zipIdx.map fun p => (p.1, "part" ++ toString p.2)
  let e := circularToHyperbolic (step (hyperbolicToCircular (hide named e)))
  gatherImaginary (settleSigns (named.foldl (fun acc p => fill p.2 p.1 acc) e))

/-! ## The whole -/

/-- A number in front of a sum goes into the sum. -/
def spreadNumber (e : Expr) : Expr :=
  match e with
  | .app .mul [.rat q, .app .add ts] => .rat q * .app .add ts
  | e => e

/-- A simpler form of an expression with circular and hyperbolic functions. -/
def trigSimplify (e : Expr) : Expr :=
  let s := e.bottomUp circularStep
  let s := if s.hasHyperbolic then onHyperbolic (fun x => x.bottomUp circularStep) s else s
  if s == e then e else spreadNumber s

end ErrorBars.Expr
