import ErrorBars.Expr.Simplify.Fraction

/-!
# Expansion

`Expansion` says which laws are used from left to right: products over sums, whole powers of sums,
sums in exponents, and logarithms of products.  `expand` applies them everywhere, from the leaves
up. A sum that would grow beyond `expansionLimit` terms is left as it is.

`clearRoot` removes a constant denominator `a + b * sqrt c`, by multiplying with `a - b * sqrt c`.
-/

set_option autoImplicit false

namespace ErrorBars.Expr

/-- Which laws are used. -/
structure Expansion where
  /-- a product of sums is the sum of all products -/
  products : Bool
  /-- a whole power of a sum is a product of sums -/
  powers : Bool
  /-- a power with a sum as exponent is a product of powers -/
  exponents : Bool
  /-- the logarithm of a product is a sum of logarithms -/
  logs : Bool

/-- All laws. -/
def Expansion.all : Expansion := ⟨true, true, true, true⟩

/-- Products and powers of sums. -/
def Expansion.algebraic : Expansion := ⟨true, true, false, false⟩

/-- Products of sums only. -/
def Expansion.productsOnly : Expansion := ⟨true, false, false, false⟩

/-- The most terms that an expansion may reach. -/
def expansionLimit : Nat := 1500

/-- A product multiplied out. -/
def expandFactors (fs : List Expr) : Expr :=
  let sums := fs.filter isAdd
  let plain := product (fs.filter fun f => !f.isAdd)
  let count := sums.foldl (fun n s => n * s.terms.length) 1
  if sums.isEmpty || expansionLimit < count then product fs
  else
    -- one sum at a time, so that like terms are merged early
    let body := sums.foldl (fun acc s =>
      sum (acc.terms.flatMap fun t => s.terms.map fun u => t * u)) one
    sum (body.terms.map fun t => plain * t)

/-- The number of terms of a whole power of a sum: a binomial coefficient, cut off at the limit. -/
def powerTerms (terms n : Nat) : Nat :=
  (List.range (terms - 1)).foldl (fun (acc : Nat) i =>
    if expansionLimit < acc then acc else acc * (n + i + 1) / (i + 1)) 1

/-- A whole power of a sum multiplied out, by repeated squaring. -/
def expandPower (base : Expr) : Nat → Nat → Expr
  | 0, _ => one
  | fuel + 1, n =>
    if n = 0 then one
    else if n = 1 then base
    else
      let half := expandPower base fuel (n / 2)
      let square := expandFactors [half, half]
      if n % 2 = 0 then square else expandFactors [square, base]

/-- A product over a quotient line multiplied out above and below it. -/
def expandQuotient (e : Expr) : Expr :=
  match e with
  | .app .mul fs =>
    let (n, d) := fraction e
    if d.isMul then
      match expandFactors n.factors / expandFactors d.factors with
      | .app .mul gs => expandFactors gs
      | q => q
    else expandFactors fs
  | e => e

/-- A power of a sum with a rational exponent multiplied out as far as the exponent is whole. -/
def expandSumPower (b : Expr) (q : Rat) : Expr :=
  let n := (q.num.natAbs / q.den : Nat)
  if n = 0 ∨ (n = 1 ∧ q.den = 1) ∨ expansionLimit < powerTerms b.terms.length n then
    power b (.rat q)
  else
    let whole := expandPower b (Nat.log2 n + 2) n
    let part : Rat := mkRat q.num.natAbs q.den - n
    let value := if part = 0 then whole
      else sum (whole.terms.map fun t => t * power b (.rat part))
    if q < 0 then inv value else value

/-- The logarithm of a product as a sum, as far as the factors are positive, and the logarithm of a
perfect power as a multiple. -/
def expandLog (x : Expr) : Expr :=
  match x with
  | .rat q =>
    if q.den = 1 then
      match perfectPower? q.num.toNat with
      | some (b, k) => int k * apply .log [int b]
      | none => apply .log [x]
    else apply .log [int q.num] - apply .log [int q.den]
  | .app .mul fs =>
    let positive := fs.filter isPositive
    let negative := fs.filter isNegative
    let other := fs.filter fun f => !f.isPositive && !f.isNegative
    let rest := other ++ negative.map fun _ => minusOne
    if positive.isEmpty && negative.isEmpty then apply .log [x]
    else
      sum ((positive.map fun f => apply .log [f]) ++ (negative.map fun f => apply .log [-f]) ++
        [apply .log [product rest]])
  | .app .pow [b, e] =>
    if e.facts.real == some true && b.isPositive then e * apply .log [b] else apply .log [x]
  | x => apply .log [x]

/-- Applies the laws to an application whose arguments are expanded. -/
def expandNode (laws : Expansion) (e : Expr) : Expr :=
  match e with
  | .app .mul fs =>
    if laws.products then
      match product fs with
      | .app .mul gs => expandQuotient (.app .mul gs)
      | p => p
    else e
  | .app .pow [b, .app .add ts] =>
    if laws.exponents && b.facts.zero == some false then product (ts.map (power b)) else e
  | .app .pow [.app .add ts, .rat q] =>
    if laws.powers then expandSumPower (.app .add ts) q else e
  | .app (.fn .exp) [.app .add ts] =>
    if laws.exponents then product (ts.map fun t => apply .exp [t]) else e
  | .app (.fn .log) [x] => if laws.logs then expandLog x else e
  | e => e

/-- Expands an expression. -/
def expand (laws : Expansion) (e : Expr) : Expr := e.bottomUp (expandNode laws)

/-! ## Roots in denominators -/

/-- A square root of a whole number with a rational number in front: the number, and what is under
the root. -/
def numericRoot? (e : Expr) : Option (Rat × Rat) :=
  let (c, r) := e.coeffMul
  match c, r with
  | .rat q, .app .pow [.rat n, .rat h] => if h == 1 / 2 then some (q, n) else none
  | _, _ => none

/-- Removes a constant denominator with one square root. -/
def clearRoot (e : Expr) : Expr :=
  let (n, d) := numerDenom e
  match d with
  | .app .add [.rat a, t] =>
    match numericRoot? t with
    | some (b, c) =>
      let norm := a * a - b * b * c
      if norm = 0 then e
      else
        let conjugate := (.rat (a / norm)) + (.rat (-b / norm)) * sqrt (.rat c)
        let (p, q) := fraction (factorTerms true conjugate)
        expand Expansion.all (n * p) / q
    | none => e
  | _ => e

end ErrorBars.Expr
