import ErrorBars.Expr.Simplify.CommonFactor

/-!
# Numerator and denominator

`numerDenom` brings an expression over one denominator, without cancelling; `fraction` only reads
off the factors with negative exponents.
-/

set_option autoImplicit false

namespace ErrorBars.Expr

/-- Whether an exponent is to be moved to the other side of the line: below zero, or with a minus in
front where the sign is not known. -/
def flipsExponent (e : Expr) : Bool :=
  let f := e.facts
  f.isNegative || (e.isMul && !f.isPositive && e.leadsWithMinus)

/-- Numerator and denominator of a power, from those of its base.  They are told apart only where
that is right: for a whole exponent, or a denominator known to be real. -/
def powerNumerDenom (b e n d : Expr) : Expr × Expr :=
  let flips := flipsExponent e
  let whole := e.isWhole
  let f := d.facts
  let real := f.real == some true
  let (n, d) := if real || whole then (n, d) else (b, one)
  let f := d.facts
  let nonpositive := f.isNegative || f.zero == some true
  let known := f.isPositive || nonpositive
  let (n, d) := if nonpositive then (-n, -d)
    else if !known && !whole then (b, one)
    else (n, d)
  let (n, d, e) := if flips then (d, n, -e) else (n, d, e)
  if e.isInfinite && n == one && !(d == one) then (one, power d e)
  else if e.isInfinite && d == one && !(n == one) then (power n e, one)
  else (power n e, power d e)

/-- Adds a numerator to those over the same denominator. -/
def groupByDenom (acc : List (Expr × List Expr)) (nd : Expr × Expr) : List (Expr × List Expr) :=
  if acc.any (fun g => g.1 == nd.2) then
    acc.map fun g => if g.1 == nd.2 then (g.1, g.2 ++ [nd.1]) else g
  else acc ++ [(nd.2, [nd.1])]

/-- Brings a sum over one denominator: the product of all denominators. -/
def sumNumerDenom (content : Rat) (parts : List (Expr × Expr)) : Expr × Expr :=
  let above := keepCoeff (int content.num)
  let below := keepCoeff (int content.den)
  match parts.foldl groupByDenom [] with
  | [(d, ns)] => (sum (ns.map above), below d)
  | groups =>
    let indexed := groups.zipIdx
    let numers := indexed.map fun (g, i) =>
      product (sum g.2 :: (indexed.filter fun h => h.2 ≠ i).map fun h => h.1.1)
    (above (sum numers), below (product (groups.map (·.1))))

mutual

/-- Numerator and denominator. -/
def numerDenom : Expr → Expr × Expr
  | .rat q => (int q.num, int q.den)
  | .app .add ts =>
    let c := (primitive (.app .add ts)).1
    if c = 1 then sumNumerDenom 1 (numerDenoms ts)
    else sumNumerDenom c ((numerDenoms ts).map fun p =>
      let (n, m) := p.1.coeffMul
      let (d, k) := p.2.coeffMul
      match n, d with
      | .rat n, .rat d =>
        let q := n / d / c
        (keepCoeff (int q.num) m, keepCoeff (int q.den) k)
      | _, _ => (.rat (1 / c) * p.1, p.2))
  | .app .mul fs =>
    let parts := numerDenoms fs
    (product (parts.map (·.1)), product (parts.map (·.2)))
  | .app .pow [b, e] =>
    let (n, d) := numerDenom b
    powerNumerDenom b e n d
  | .app (.fn .exp) [x] =>
    let f := x.facts
    let flips := f.isNegative || (!f.isPositive && x.leadsWithMinus)
    if flips then (one, apply .exp [-x]) else (rawFn .exp [x], one)
  | e => (e, one)

/-- Numerators and denominators. -/
def numerDenoms : List Expr → List (Expr × Expr)
  | [] => []
  | e :: es => numerDenom e :: numerDenoms es

end

/-- A factor above or below the line. -/
def fractionPart (f : Expr) : Expr × Expr :=
  match f with
  | .rat q => (int q.num, int q.den)
  | .app .pow _ | .app (.fn .exp) _ =>
    let (b, x) := f.baseExp
    let k := x.facts
    if k.isNegative then (one, if x == minusOne then b else power b (-x))
    else if k.isPositive then (f, one)
    else if x.isMul then numerDenom f
    else (f, one)
  | f => (f, one)

/-- The product of the factors above the line, and of those below. -/
def fraction (e : Expr) : Expr × Expr :=
  let parts := e.factors.map fractionPart
  (product (parts.map (·.1)), product (parts.map (·.2)))

end ErrorBars.Expr
