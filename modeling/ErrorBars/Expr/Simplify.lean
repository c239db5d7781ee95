import ErrorBars.Expr.Simplify.Cases
import ErrorBars.Expr.Simplify.Exponential
import ErrorBars.Expr.Simplify.Gamma
import ErrorBars.Expr.Simplify.JoinLogs
import ErrorBars.Expr.Simplify.JoinPowers

/-!
# Shorter forms

`simplify` looks for a shorter form of an expression.  It works through the kinds of parts that an
expression may have (quotients, powers, circular functions, logarithms, exponentials), each time
keeping the shortest of several equal forms, and in the end keeps the expression as it was if the
new form is much longer.

Arguments of functions are simplified on their own.  A sign function is resolved into cases.
-/

set_option autoImplicit false

namespace ErrorBars.Expr

/-! ## Steps -/

mutual

/-- Changes the arguments of functions, the outermost ones only. -/
def mapInsideFunctions (f : Expr → Expr) : Expr → Expr
  | .app h as =>
    match h with
    | .add | .mul | .pow | .fn .exp =>
      let bs := mapInsideFunctionsAll f as
      if bs == as then .app h as else rebuild h bs
    | .fn g =>
      let bs := as.map f
      -- an absolute value may not be in canonical form
      if bs == as && g ≠ .abs then .app h as else rebuild (.fn g) bs
    | h => .app h as
  | e => e

/-- Changes the arguments of functions in several expressions. -/
def mapInsideFunctionsAll (f : Expr → Expr) : List Expr → List Expr
  | [] => []
  | a :: as => mapInsideFunctions f a :: mapInsideFunctionsAll f as

end

/-- Whether the head is that of a sum, a product, a power or an exponential. -/
def isAlgebraic : Expr → Bool
  | .app .add _ | .app .mul _ | .app .pow _ | .app (.fn .exp) _ => true
  | _ => false

/-- One fraction. -/
def asFraction (e : Expr) : Expr :=
  let (n, d) := numerDenom e
  match d with
  | .rat q =>
    if q = 1 then n
    else
      let (c, m) := n.coeffMul
      match c with
      | .rat p => if p / q = 1 then m else if m == one then .rat (p / q)
        else rawMul (.rat (p / q) :: m.factors)
      | _ => n / d
  | d => n / d

/-- Multiplies numbers that stand in front of sums into them. -/
def spreadNumbers (e : Expr) : Expr :=
  e.bottomUp fun
    | .app .mul [c, .app .add ts] =>
      if c.isNumber then c * .app .add ts else .app .mul [c, .app .add ts]
    | e => e

/-- The shortest quotient of sums and products. -/
def shortestQuotient (e : Expr) : Expr :=
  let e := e.bottomUp asFraction
  let (c, p) := (joinPowers .all false e).contentPrimitive true
  let e := .rat c * p
  let cancelled := cancel e
  let cancelled := shortest cancelled [cancel (expand Expansion.algebraic cancelled)]
  let joined := shortest (together e) [together cancelled]
  factorTerms false (shortest joined [cancelled, e])

/-- The shortest form of powers and products. -/
def shortestProduct (e : Expr) : Expr :=
  let s := shortest (joinPowers .exponents true e) [joinPowers .all false e, e]
  let s := shortest s [cancel s]
  shortest s
    [factorTerms true s, expand ⟨false, false, true, false⟩ (expand Expansion.productsOnly s)]

/-- A minus in front of a quotient is tried below the line too. -/
def settleQuotient (e : Expr) : Expr :=
  if e.leadsWithMinus then
    let (n, d) := fraction e
    if d.isZero then e else settleSigns (-n / -d)
  else e

/-- Simplifies the functions in an expression, one kind after the other. -/
def simplifyFunctions (e : Expr) : Expr :=
  let e := if e.hasCircular || e.hasHyperbolic then trigSimplify e else e
  let e := if e.hasFn [.log] then
    shortest (expand ⟨false, false, false, true⟩ e) [joinLogs e] else e
  let e := if e.hasFn [.factorial, .binomial, .gamma] then simplifyGammas e else e
  let e := shortestProduct e
  if e.hasCircular || e.hasHyperbolic || e.hasFn [.exp] then simplifyExponentials e else e

/-! ## The whole -/

/-- A form may have this many operations for every ten of what it stands for. -/
def growthLimit : Nat := 17

/-- A shorter form, looked for to a depth. -/
def simplifyTo : Nat → Expr → Expr
  | 0, e => e
  | fuel + 1, e =>
    if e.isZero then zero
    else
      let before := joinAbsolutes (settleSigns e)
      let e := mapInsideFunctions (simplifyTo fuel) before
      if !e.isAlgebraic then settleAbsolutes e
      else
        let e := shortestQuotient e
        let e := if e.hasFn [.sign] then simplifyCases (simplifyTo fuel) e else e
        if e.hasBranches then e
        else
          let e := settleQuotient (clearRoot (spreadNumbers (simplifyFunctions e)))
          settleAbsolutes
            (if growthLimit * before.opCount < 10 * e.opCount then before else e)

/-- A shorter form. -/
def simplify (e : Expr) : Expr := simplifyTo (e.size + 2) e

end ErrorBars.Expr
