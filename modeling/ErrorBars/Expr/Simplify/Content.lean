import ErrorBars.Expr.Canonical

/-!
# Rational content

The content of a sum is the largest positive rational number that divides the numbers in front of
all its terms; what remains is primitive.  `contentPrimitive` also takes the contents out of the
parts of products and powers.

With `clear` unset, a fraction is not put in front of a sum if some term would lose its denominator:
`x / 2 + 1` stays a sum.
-/

set_option autoImplicit false

namespace ErrorBars.Expr

/-- Whether an expression is one of the two infinities with a sign, or the one without. -/
def isComplexInfinity (e : Expr) : Bool := e == complexInfinity

/-- A number times an expression, left unexpanded.  A fraction in front of a sum goes into the sum
if it leaves a whole number there and is not to be cleared; minus one goes into the sum unless the
sign is to stay in front. -/
def scale (clear sign : Bool) (c e : Expr) : Expr :=
  if e == one then c
  else if c == one then e
  else if c == minusOne && !sign then -e
  else
    match e with
    | .app .add ts =>
      let pairs := ts.map fun t =>
        let (d, m) := t.coeffMul
        (mulNumbers d c, m)
      let fraction := match c with
        | .rat q => q.den ≠ 1
        | _ => false
      if !clear && fraction && pairs.any (fun p => p.1.isInteger) then
        rawAdd (pairs.map fun p =>
          if p.2 == one then p.1
          else productOf (if p.1 == one then p.2.factors else p.1 :: p.2.factors))
      else rawMul [c, .app .add ts]
    | e => keepCoeff c e

/-- Terms with the rational numbers in front of them. -/
def rationalTerms (ts : List Expr) : List (Rat × Expr) :=
  ts.map fun t =>
    match t.coeffMul with
    | (.rat q, m) => (q, m)
    | _ => (1, t)

/-- The content of a list of rational numbers. -/
def ratContent (qs : List Rat) : Rat :=
  let g := qs.foldl (fun (g : Nat) q => Nat.gcd g q.num.natAbs) 0
  let l := qs.foldl (fun (l : Nat) q => Nat.lcm l q.den) 1
  mkRat g l

/-- Puts terms into canonical order; a number stays in front. -/
def sortTerms (ts : List Expr) : List Expr :=
  match ts with
  | t :: rest =>
    if t.isNumber || t == complexInfinity then t :: sortArgs rest else sortArgs (t :: rest)
  | [] => []

/-- The content of a sum and its primitive part; of anything else, the magnitude of the rational
number in front. -/
def primitive (e : Expr) : Rat × Expr :=
  match e with
  | .app .add ts =>
    let pairs := rationalTerms ts
    let c := ratContent (pairs.map (·.1))
    if c = 1 ∨ c = 0 then (1, e)
    else (c, rawAdd (sortTerms (pairs.map fun p => keepCoeff (.rat (p.1 / c)) p.2)))
  | e =>
    let (c, r) := e.ratCoeffMul
    if c = 0 then (1, zero) else if c < 0 then (-c, -r) else (c, r)

/-- The content of a power whose base and exponent have been made primitive. -/
def powerContent (b : Expr) (ce : Rat) (pe : Expr) (factorOut : Expr → Rat × Expr) : Rat × Expr :=
  let general := fun (_ : Unit) =>
    let e := keepCoeff (.rat ce) pe
    match e, b with
    | .rat q, .app .mul _ =>
      let (h, t) := factorOut b
      match (power (.rat h) (.rat q)).coeffMul with
      | (.rat c, m) =>
        let (m, me) := m.baseExp
        if m == one || me == e then (c, power (keepCoeff m t) e) else (1, power b e)
      | _ => (1, power b e)
    | _, _ => (1, power b e)
  match b with
  | .rat q =>
    match pe.coeffAdd with
    | (.rat h, t) =>
      if q = 0 then general ()
      else
        let ceh := ce * h
        match power b (.rat ceh) with
        | .rat c => (c, power b (keepCoeff (.rat ce) t))
        | _ =>
          let whole := ceh.num / ceh.den
          let part := ceh.num % ceh.den
          match power b (int whole) with
          | .rat c => (c, power b (keepCoeff (.rat ce) (t + .rat (part / ce / ceh.den))))
          | _ => general ()
    | _ => general ()
  | _ => general ()

mutual

/-- The rational content of an expression and what remains. -/
def contentPrimitive (clear : Bool) : Expr → Rat × Expr
  | .rat q => if q = 0 then (1, .rat 0) else if q < 0 then (-q, minusOne) else (q, one)
  | .app .add ts =>
    let parts := (contentPrimitives clear ts).map fun p => keepCoeff (.rat p.1) p.2
    let (con, prim) := primitive (sum parts)
    if !clear && con.den ≠ 1 && prim.isAdd then
      let whole := sum (prim.terms.map fun t => .rat (1 / con.den) * t)
      if whole.terms.any fun t => t.coeffMul.1.isInteger then (con.num, whole)
      else (con, prim)
    else (con, prim)
  | .app .mul fs =>
    let parts := contentPrimitives clear fs
    (parts.foldl (fun c p => c * p.1) 1,
      product ((parts.map (·.2)).filter fun p => !(p == one)))
  | .app .pow [b, e] =>
    let (cb, pb) := contentPrimitive clear b
    let (ce, pe) := contentPrimitive clear e
    powerContent (keepCoeff (.rat cb) pb) ce pe fun b =>
      let (c, p) := b.ratCoeffMul
      if c < 0 then (-c, -p) else (c, p)
  | e => (1, e)

/-- The rational contents of several expressions and what remains. -/
def contentPrimitives (clear : Bool) : List Expr → List (Rat × Expr)
  | [] => []
  | e :: es => contentPrimitive clear e :: contentPrimitives clear es

end

end ErrorBars.Expr
