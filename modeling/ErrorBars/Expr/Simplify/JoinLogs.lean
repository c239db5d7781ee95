import ErrorBars.Expr.Simplify.CommonFactor

/-!
# Joining logarithms

A number times a logarithm is the logarithm of a power, and a sum of logarithms with one common
factor is the logarithm of a product, where the arguments are known to be above zero.  A single
logarithm of anything else may join in.
-/

set_option autoImplicit false

namespace ErrorBars.Expr

/-- Logarithms with a common factor: the factor, and the argument of the joined logarithm as a list
of factors. -/
abbrev LogGroups := List (Expr × List Expr)

/-- Takes in a factor of the argument. -/
def LogGroups.add (gs : LogGroups) (outer arg : Expr) : LogGroups :=
  if gs.any fun g => g.1 == outer then
    gs.map fun g => if g.1 == outer then (g.1, g.2 ++ [arg]) else g
  else gs ++ [(outer, [arg])]

/-- The argument of a logarithm that may be joined. -/
def logArg? : Expr → Option Expr
  | .app (.fn .log) [x] => if x.isPositive then some x else none
  | _ => none

/-- A term with one logarithm: the factors that stay outside, those that become an exponent, and the
argument of the logarithm. -/
def splitLogTerm? (e : Expr) : Option (Expr × Expr × Expr) :=
  let fs := e.factors
  match fs.filterMap logArg? with
  | [x] =>
    let rest := fs.filter fun f => (logArg? f).isNone
    let negative := rest.filter fun f => f.isRational && f.isNegativeNumber
    let inside := rest.filter fun f =>
      !(f.isRational && f.isNegativeNumber) && f.facts.real == some true
    let outside := rest.filter fun f =>
      !(f.isRational && f.isNegativeNumber) && !(f.facts.real == some true)
    some (product (negative.map (fun _ => minusOne) ++ outside),
      product (negative.map negNumber ++ inside), x)
  | _ => none

/-- Puts groups whose factors differ in sign together as quotients. -/
def joinOppositeLogs : Nat → List (Expr × Expr) → List Expr
  | 0, gs => gs.map fun g => g.1 * rawFn .log [g.2]
  | _ + 1, [] => []
  | fuel + 1, (c, x) :: rest =>
    match rest.find? fun g => g.1 == -c with
    | some (_, y) =>
      let others := joinOppositeLogs fuel (rest.filter fun g => !(g.1 == -c))
      if c.hasNegativeCoeff then -c * rawFn .log [y / x] :: others
      else c * rawFn .log [x / y] :: others
    | none => c * rawFn .log [x] :: joinOppositeLogs fuel rest

/-- Joins the logarithms of a sum. -/
def joinLogsOf (ts : List Expr) : Expr :=
  let (groups, others) := ts.foldl (fun (acc : LogGroups × List Expr) t =>
    match splitLogTerm? t with
    | some (outer, c, x) => (acc.1.add outer (power x c), acc.2)
    | none => (acc.1, acc.2 ++ [t])) ([], [])
  let (groups, others) := match others with
    | [.app (.fn .log) [x]] => (groups.add one x, [])
    | others => (groups, others)
  if groups.isEmpty then sum ts
  else
    let joined := groups.map fun g => (g.1, product g.2)
    sum (others ++ joinOppositeLogs joined.length joined)

/-- Joins logarithms in all sums and products. -/
def joinLogs (e : Expr) : Expr :=
  e.bottomUp fun
    | .app .add ts => joinLogsOf ts
    | .app .mul fs => joinLogsOf [.app .mul fs]
    | e => e

end ErrorBars.Expr
