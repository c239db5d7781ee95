import ErrorBars.Expr.Canonical.Bounds

/-!
# Canonical products

Nested products are opened, numbers are multiplied, and powers of one base are merged when their
exponents differ only in the number in front.  Roots of numbers are merged further: first by
exponent, then by common divisors of their bases, so that no exponent exceeds one.  Powers of minus
one and of the imaginary unit are counted together.

A number times a sum is multiplied out, unless the sum already has a number in front.
-/

set_option autoImplicit false

namespace ErrorBars.Canonical

/-- The product of the number in front, which may be an interval, with a number. -/
def mulCoeff (A : Arith) (c n : Expr) : Expr := (boundsProduct? A c n).getD (Expr.mulNumbers c n)

/-- What has been gathered of a product. -/
structure ProductParts where
  /-- the product of the numbers; it may be infinite without direction -/
  coeff : Expr
  /-- powers, as base and exponent, the last one first -/
  powers : List (Expr × Expr)
  /-- powers of numbers with symbolic exponents, the last one first -/
  numeric : List (Expr × Expr)
  /-- roots of positive rational numbers -/
  roots : List (Rat × Rat)
  /-- the exponent of minus one -/
  minusOne : Rat
  /-- whether the product has no value -/
  undefined : Bool

namespace ProductParts

/-- Nothing gathered yet. -/
def empty : ProductParts := ⟨Expr.one, [], [], [], 0, false⟩

/-- Takes in a number. -/
def mulNumber (A : Arith) (p : ProductParts) (n : Expr) : ProductParts :=
  if n == Expr.undefined then { p with undefined := true }
  else if p.coeff.isFnOf .bounds then { p with coeff := mulCoeff A p.coeff n }
  else if p.coeff == Expr.complexInfinity then
    if n.isZero then { p with undefined := true } else p
  else
    let c := Expr.mulNumbers p.coeff n
    if c == Expr.undefined then { p with undefined := true } else { p with coeff := c }

/-- Takes in an infinity without direction. -/
def mulInfinity (p : ProductParts) : ProductParts :=
  if p.coeff.isZero then { p with undefined := true }
  else { p with coeff := Expr.complexInfinity }

/-- Takes in a power. -/
def addPower (p : ProductParts) (b e : Expr) : ProductParts :=
  { p with powers := (b, e) :: p.powers }

/-- Takes in one factor. -/
def take (A : Arith) : Nat → ProductParts → Expr → ProductParts
  | 0, p, e => p.addPower e Expr.one
  | fuel + 1, p, e =>
    if e.isNumber then p.mulNumber A e
    else
      match e with
      | .const .complexInfinity => p.mulInfinity
      | .app (.fn .bounds) ends =>
        let e := Expr.rawFn .bounds ends
        { p with coeff := (boundsProduct? A e p.coeff).getD e }
      | .const .i => { p with minusOne := p.minusOne + 1 / 2 }
      | .app .mul fs => fs.foldl (take A fuel) p
      | .app .pow [b, x] =>
        let (b, x) := (Expr.app .pow [b, x]).baseExp
        match b, x with
        | .rat q, .rat r =>
          if r.den = 1 || r < 0 then
            let v := A.power b x
            if v == .app .pow [b, x] then p.addPower b x else take A fuel p v
          else
            let p := if q < 0 then { p with minusOne := p.minusOne + r } else p
            let q := if q < 0 then -q else q
            if q = 1 then p else { p with roots := p.roots ++ [(q, r)] }
        | b, x =>
          if b.isNumber && (b.isPositive || x.isWhole) && !x.isRational then
            { p with numeric := (b, x) :: p.numeric }
          else p.addPower b x
      | e =>
        let (b, x) := e.baseExp
        p.addPower b x

end ProductParts

/-! ## Merging powers -/

/-- Powers of one base: the base, and for each exponent without the number in front those
numbers. -/
abbrev Gathered := List (Expr × List (Expr × List Expr))

/-- Adds a number to those in front of an exponent. -/
def gatherExponent (n t : Expr) : List (Expr × List Expr) → List (Expr × List Expr)
  | [] => [(t, [n])]
  | (u, ns) :: rest => if u == t then (u, ns ++ [n]) :: rest else (u, ns) :: gatherExponent n t rest

/-- Adds a power to those gathered. -/
def gatherPower (b n t : Expr) : Gathered → Gathered
  | [] => [(b, [(t, [n])])]
  | (c, es) :: rest =>
    if c == b then (c, gatherExponent n t es) :: rest else (c, es) :: gatherPower b n t rest

/-- Merges powers of one base whose exponents differ only in the number in front. -/
def gather (A : Arith) (powers : List (Expr × Expr)) : List (Expr × Expr) :=
  let gathered : Gathered := powers.foldl (fun g p =>
    let (n, t) := p.2.coeffMul
    gatherPower p.1 n t g) []
  gathered.flatMap fun (b, es) => es.map fun (t, ns) => (b, A.mul (A.sum ns) t)

/-- One power that has been merged, evaluated: the factor it gives, and the base and exponent of
that factor.  A power that vanishes gives nothing. -/
inductive Evaluation where
  /-- no factor -/
  | gone
  /-- no value, because infinities cancel -/
  | undefined
  /-- a number -/
  | number (n : Expr)
  /-- a factor with its base and exponent -/
  | factor (e base exponent : Expr)

/-- Evaluates a merged power. -/
def evaluatePower (A : Arith) (p : Expr × Expr) : Evaluation :=
  let (b, e) := p
  if e.isZero then
    if (b.isAdd || b.isMul) && b.args.any Expr.isInfinite then .undefined else .gone
  else if e == Expr.one then
    if b.isNumber then .number b else .factor b b e
  else
    let v := A.power b e
    if v.isPow && !b.isPow then
      let (c, x) := v.baseExp
      .factor v c x
    else .factor v b e

/-- Whether some base occurs twice. -/
def repeats : List Expr → Bool
  | [] => false
  | b :: bs => bs.any (· == b) || repeats bs

/-- The factors that merged powers give.  When evaluating a power changes its base, and that base
then occurs twice, everything is merged once more. -/
def evaluatePowers (A : Arith) : Nat → List (Expr × Expr) → List Evaluation
  | 0, powers => powers.map (evaluatePower A)
  | rounds + 1, powers =>
    let evaluated := powers.map (evaluatePower A)
    let pairs := evaluated.filterMap fun
      | .factor _ b e => some (b, e)
      | _ => none
    let changed := (powers.zip evaluated).any fun
      | (p, .factor _ b _) => !(b == p.1)
      | _ => false
    if changed && repeats (pairs.map (·.1)) then
      let numbers := evaluated.filter fun
        | .factor .. => false
        | _ => true
      numbers ++ evaluatePowers A rounds (gather A pairs)
    else evaluated

/-! ## Roots of numbers -/

/-- A number with a fractional exponent. -/
abbrev Root := Rat × Rat

/-- Puts roots with equal bases together by adding their exponents. -/
def addRoot (q r : Rat) : List Root → List Root
  | [] => [(q, r)]
  | (p, s) :: rest => if p = q then (p, s + r) :: rest else (p, s) :: addRoot q r rest

/-- Puts roots with equal exponents together by multiplying their bases. -/
def mulRoot (q r : Rat) : List Root → List Root
  | [] => [(q, r)]
  | (p, s) :: rest => if s = r then (p * q, s) :: rest else (p, s) :: mulRoot q r rest

/-- The power of a positive rational number with a natural exponent. -/
def ratPow (q : Rat) (n : Nat) : Rat := mkRat (q.num ^ n) (q.den ^ n)

/-- Splits the whole part off an exponent: the number it gives, and the exponent that is left. -/
def splitExponent (q r : Rat) : Rat × Rat :=
  let n := r.num / r.den
  (if 0 ≤ n then ratPow q n.toNat else 1 / ratPow q n.natAbs, r - n)

/-- The greatest common divisor of two rational numbers. -/
def ratGcd (p q : Rat) : Rat := mkRat (Nat.gcd p.num.natAbs q.num.natAbs) (Nat.lcm p.den q.den)

/-- Takes the common divisors with one base out of the bases that follow: the number they give, what
is left of that base, the changed roots, and the new roots. -/
def shareRoot (q r : Rat) : List Root → Rat × Rat × List Root × List Root
  | [] => (1, q, [], [])
  | (p, s) :: rest =>
    let g := if q = 1 then 1 else ratGcd q p
    if g = 1 then
      let (c, q', rest', grown) := shareRoot q r rest
      (c, q', (p, s) :: rest', grown)
    else
      let (n, e) := splitExponent g (r + s)
      let (c, q', rest', grown) := shareRoot (q / g) r rest
      (n * c, q', (p / g, s) :: rest', if e = 0 then grown else (g, e) :: grown)

/-- Takes out common divisors of all bases; the number that this gives, and the roots that are
left. -/
def shareRoots : Nat → List Root → Rat × List Root
  | 0, roots => (1, roots)
  | _ + 1, [] => (1, [])
  | fuel + 1, (q, r) :: rest =>
    if q = 1 then shareRoots fuel rest
    else
      let (c, q', rest', grown) := shareRoot q r rest
      let (d, others) := shareRoots fuel (rest' ++ grown)
      (c * d, if q' = 1 then others else (q', r) :: others)

/-- The roots of a product merged: a number, other factors, and roots by exponent. -/
def mergeRoots (A : Arith) (roots : List Root) : Expr × List Expr × List (Expr × Expr) :=
  let byBase := roots.foldl (fun acc p => addRoot p.1 p.2 acc) []
  let byExponent := byBase.foldl (fun acc p => mulRoot p.1 p.2 acc) []
  let split := byExponent.map fun p =>
    if p.2.den = 1 || (p.2.den : Int) < p.2.num then
      let (n, e) := splitExponent p.1 p.2
      (n, p.1, e)
    else (1, p.1, p.2)
  let number := split.foldl (fun acc t => acc * t.1) 1
  let (shared, left) := shareRoots 200
    (split.filterMap fun t => if t.2.2 = 0 then none else some (t.2.1, t.2.2))
  let evaluated := left.flatMap fun p => (A.power (.rat p.1) (.rat p.2)).factors
  let coeff := evaluated.foldl (fun acc e => if e.isNumber then Expr.mulNumbers acc e else acc)
    (.rat (number * shared))
  let rest := evaluated.filter fun e => !e.isNumber
  let powers := rest.foldl (fun (acc : List (Expr × List Expr)) e =>
    match e with
    | .app .pow [b, x] => gatherExponent b x acc
    | _ => acc) []
  let others := rest.filter fun e => !e.isPow
  (coeff, others, powers.map fun (x, bs) => (A.product bs, x))

/-! ## The product -/

/-- A power of minus one: the sign it gives, its factor, and the roots, one of which may take it
in. -/
def mergeMinusOne (n : Rat) (powers : List (Expr × Expr)) :
    Bool × List Expr × List (Expr × Expr) :=
  let whole := n.num / n.den
  let part := n - whole
  let negative := whole % 2 ≠ 0
  if part = 0 then (negative, [], powers)
  else if part.den = 2 then (negative, [Expr.imaginary], powers)
  else if powers.any fun p => p.2 == .rat part && p.1.isPositive then
    (negative, [], powers.map fun p =>
      if p.2 == .rat part && p.1.isPositive then (Expr.negNumber p.1, p.2) else p)
  else (negative, [Expr.rawPow Expr.minusOne (.rat part)], powers)

/-- Whether a factor cannot change an infinity without direction. -/
def swallowedByInfinity (e : Expr) : Bool :=
  let f := e.facts
  f.zero == some false && f.real.isSome

/-- Brings the factors of a product of finite numbers and other factors into their final form. -/
def finishProduct (A : Arith) (coeff : Expr) (factors : List Expr) : Expr :=
  let coeff := factors.foldl (fun acc e => if e.isNumber then mulCoeff A acc e else acc) coeff
  let others := Expr.sortArgs (factors.filter fun e => !e.isNumber)
  if coeff == Expr.undefined then Expr.undefined
  else if coeff == Expr.one then Expr.productOf others
  else
    match others with
    | [.app .add ts] =>
      if coeff.isInfinite || coeff.isFnOf .bounds then Expr.rawMul [coeff, .app .add ts]
      else A.sum (ts.map fun t => A.mul coeff t)
    | others => Expr.productOf (coeff :: others)

/-- The product of a number that may be zero or infinite and other factors. -/
def closeProduct (A : Arith) (coeff : Expr) (factors : List Expr) : Expr :=
  if coeff == Expr.infinity || coeff == .const .negInfinity then
    let minus := factors.filter Expr.isNegative
    let coeff := if minus.length % 2 = 1 then Expr.negNumber coeff else coeff
    finishProduct A coeff (factors.filter fun e => !e.isPositive && !e.isNegative)
  else if coeff == Expr.complexInfinity then
    Expr.productOf (coeff :: Expr.sortArgs (factors.filter fun e => !swallowedByInfinity e))
  else if coeff.isZero then
    if factors.any fun e => e.facts.finite == some false then Expr.undefined else coeff
  else finishProduct A coeff factors

/-- How deeply products are opened. -/
def productDepth : Nat := 64

/-- The product of factors that have been taken apart. -/
def assemble (A : Arith) (p : ProductParts) : Expr :=
  if p.undefined then Expr.undefined
  else
    let evaluated := evaluatePowers A 1 (gather A p.powers.reverse)
    if evaluated.any fun | .undefined => true | _ => false then Expr.undefined
    else
      let symbolic := evaluated.flatMap fun
        | .factor e .. => e.factors
        | .number n => [n]
        | _ => []
      let numeric := (gather A p.numeric.reverse).foldl
        (fun (acc : List (Expr × List Expr)) q => gatherExponent q.1 q.2 acc) []
      let numericFactors := numeric.filterMap fun (x, bs) =>
        if x.isZero then none else some (A.power (A.product bs) x)
      let (rootNumber, rootOthers, rootPowers) := mergeRoots A p.roots
      let (negative, units, rootPowers) := mergeMinusOne p.minusOne rootPowers
      let rootFactors := rootPowers.flatMap fun q => (A.power q.1 q.2).factors
      let coeff := if p.coeff == Expr.complexInfinity then p.coeff
        else mulCoeff A p.coeff rootNumber
      let coeff := if !negative || coeff == Expr.complexInfinity then coeff
        else if coeff.isFnOf .bounds then mulCoeff A coeff Expr.minusOne
        else Expr.negNumber coeff
      closeProduct A coeff (symbolic ++ numericFactors ++ rootOthers ++ units ++ rootFactors)

/-- A rational number, neither zero nor one, times a sum: a sum without a number in front is
multiplied out. -/
def timesSum (A : Arith) (q : Rat) (e : Expr) : Option Expr :=
  match e with
  | .app .add ts => some (A.sum (ts.map (A.keepCoeff (.rat q))))
  | .app .mul [c, .app .add ts] =>
    if c.isNumber then
      let n := Expr.mulNumbers (.rat q) c
      some (if n == Expr.one then .app .add ts else Expr.rawMul [n, .app .add ts])
    else none
  | _ => none

/-- The canonical product of several factors. -/
def product (A : Arith) (es : List Expr) : Expr :=
  let general := fun (es : List Expr) =>
    assemble A (es.foldl (ProductParts.take A productDepth) ProductParts.empty)
  match es.filter fun e => !(e == Expr.one) with
  | [] => Expr.one
  | [e] => e
  | [.rat q, e] =>
    if q = 0 then general [.rat q, e] else (timesSum A q e).getD (general [.rat q, e])
  | [e, .rat q] =>
    if q = 0 then general [e, .rat q] else (timesSum A q e).getD (general [e, .rat q])
  | [a, b] => (boundsProduct? A a b).getD (general [a, b])
  | es => general es

end ErrorBars.Canonical
