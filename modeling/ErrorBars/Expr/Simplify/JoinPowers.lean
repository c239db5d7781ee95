import ErrorBars.Expr.Simplify.CommonFactor
import ErrorBars.Numeric.Roots

/-!
# Joining powers

In a product, powers of one base are joined by adding their exponents (`joinExponents`), and powers
with one exponent by multiplying their bases (`joinBases`) where that is right for all complex
numbers: for whole exponents, and otherwise for bases not below zero, of which at most one may be
unknown.

A number in front is taken into a power of a divisor of it, so that `2 ^ x / 4` is `2 ^ (x - 2)`.
-/

set_option autoImplicit false

namespace ErrorBars.Expr

/-- What is joined. -/
inductive Join where
  /-- exponents of one base, then bases of one exponent -/
  | all
  /-- exponents of one base only -/
  | exponents
  /-- bases of one exponent only -/
  | bases
  deriving DecidableEq

/-! ## Exponents -/

/-- How often a natural number divides another, to a bound. -/
def multiplicityNat (p : Nat) : Nat → Nat → Nat
  | 0, _ => 0
  | fuel + 1, n => if n ≠ 0 ∧ 1 < p ∧ n % p = 0 then multiplicityNat p fuel (n / p) + 1 else 0

/-- How often a rational number divides another; below zero if it divides the reciprocal. -/
def multiplicity (p n : Rat) : Int :=
  let count := fun (a b : Nat) => (multiplicityNat a (Nat.log2 b + 1) b : Int)
  let above := n.num.natAbs
  let below := n.den
  if p.den = 1 then count p.num.natAbs above - count p.num.natAbs below
  else if p.num.natAbs = 1 then count p.den below
  else
    min (count p.num.natAbs above) (count p.den below) -
      min (count p.den above) (count p.num.natAbs below)

/-- A power with the base as small as possible: `8 ^ x` is `2 ^ (3 * x)`. -/
def rootedPower (e : Expr) : Expr × Expr :=
  let (b, x) := e.baseExp
  match b.int? with
  | some n =>
    match perfectPower? n.toNat with
    | some (c, k) => if e.isPow then (int c, int k * x) else (b, x)
    | none => (b, x)
  | none => (b, x)

/-- Powers by base: each base with the exponents to be added. -/
abbrev ByBase := List (Expr × List Expr)

/-- Adds an exponent to those of a base. -/
def ByBase.add (ps : ByBase) (b e : Expr) : ByBase :=
  if ps.any fun p => p.1 == b then ps.map fun p => if p.1 == b then (p.1, p.2 ++ [e]) else p
  else ps ++ [(b, [e])]

/-- Takes as much of a number as possible into the powers with numbers as bases. -/
def absorbCoeff (ps : ByBase) (coeff : Rat) : Rat × ByBase :=
  ps.foldr (fun p (acc : Rat × ByBase) =>
    let (c, rest) := acc
    match p.1 with
    | .rat b =>
      if b = 0 ∨ b = 1 ∨ b = -1 ∨ c = 1 ∨ c = 0 ∨ p.2.all isNumber then (c, p :: rest)
      else
        let size := if b < 0 then -b else b
        let m := multiplicity size (if c < 0 then -c else c)
        if m = 0 then (c, p :: rest)
        else
          match power p.1 (int (-m)) with
          | .rat d => (c * d, (p.1, p.2 ++ [int m]) :: rest)
          | _ => (c, p :: rest)
    | _ => (c, p :: rest)) (coeff, [])

/-- Joins powers of a base and of its opposite, where one exponent is whole. -/
def joinOpposites : Nat → List (Expr × Expr) → List (Expr × Expr)
  | 0, ps => ps
  | _ + 1, [] => []
  | fuel + 1, (b, e) :: rest =>
    let named := match b with
      | .symbol _ => true
      | b => b.isAdd
    let opposite := -b
    match rest.find? fun p => p.1 == opposite with
    | some (_, f) =>
      if named && e.isWhole then
        let others := joinOpposites fuel
          (rest.map fun p => if p.1 == opposite then (p.1, f + e) else p)
        (minusOne, e) :: others
      else if named && f.isWhole then
        (b, e + f) :: (minusOne, f) :: joinOpposites fuel (rest.filter fun p => !(p.1 == opposite))
      else (b, e) :: joinOpposites fuel rest
    | none => (b, e) :: joinOpposites fuel rest

/-- How often all factors of a base occur with whole exponents among the powers; zero if one does
not. -/
def occurrences (ps : List (Expr × Expr)) (base : Expr) : Nat :=
  let counts := base.factors.map fun f =>
    let (b, e) := f.baseExp
    match e.int?, ps.find? fun p => p.1 == b with
    | some k, some (_, x) =>
      match x.int? with
      | some n => if 0 < k then (n / k).toNat else 0
      | none => 0
    | _, _ => 0
  counts.foldl min (counts.headD 0)

/-- A root of a product takes in whole powers of the product: `x * y * sqrt (x * y)` is
`(x * y) ^ (3 / 2)`. -/
def joinRoots (ps : List (Expr × Expr)) : List (Expr × Expr) :=
  ps.foldl (fun qs p =>
    match p.2 with
    | .rat r =>
      if r.den ≠ 1 && p.1.isMul then
        let n := occurrences qs p.1
        if n = 0 then qs
        else
          qs.map fun q =>
            if q.1 == p.1 then (q.1, .rat (r + n))
            else
              match p.1.factors.find? fun f => f.baseExp.1 == q.1 with
              | some f => (q.1, q.2 - int n * f.baseExp.2)
              | none => q
      else qs
    | _ => qs) ps

/-- The product with the exponents of each base added. -/
def joinExponents (fs : List Expr) : Expr :=
  let coeff := fs.foldl (fun (c : Rat) f => match f with
    | .rat q => c * q
    | _ => c) 1
  let powers : ByBase := (fs.filter fun f => !f.isRational).foldl (fun ps f =>
    let (b, e) := rootedPower f
    if b.isPow || b.isFnOf .exp then ps.add (power b e) one else ps.add b e) []
  let (coeff, powers) := absorbCoeff powers coeff
  let powers := if coeff = 1 then powers else powers.add (.rat coeff) one
  let joined := (powers.map fun p => (p.1, sum p.2)).filter fun p => !p.2.isZero
  let joined := joinRoots (joinOpposites joined.length joined)
  product (joined.map fun p => power p.1 p.2)

/-! ## Bases -/

/-- Moves the number in an exponent to the base where that is right: `2 ^ (2 * x)` is `4 ^ x`. -/
def coeffToBase (p : Expr × Expr) : Expr × Expr :=
  let (b, e) := p
  if b.isNonnegative || e.isWhole then
    let (c, t) := match e with
      | .app .mul (.rat q :: rest) => (.rat q, productOf rest)
      | .rat q => (.rat q, one)
      | e => (one, e)
    if c == one || t == one then p else (power b c, t)
  else p

/-- The number of terms when multiplied out, no terms being merged. -/
def termCount : Nat → Expr → Nat
  | 0, _ => 1
  | fuel + 1, e =>
    match e with
    | .app .add ts => ts.foldl (fun n t => n + termCount fuel t) 0
    | .app .mul fs => fs.foldl (fun n f => n * termCount fuel f) 1
    | _ => 1

/-- Bases of one exponent joined: the bases that are left. -/
def joinedBases (e : Expr) (bases : List Expr) : List Expr :=
  match bases with
  | [b] => [b]
  | bases =>
    if e.isWhole then [product bases]
    else
      let negative := bases.filter isNegative
      let nonnegative := bases.filter fun b => !b.isNegative && b.isNonnegative
      let unknown := bases.filter fun b => !b.isNegative && !b.isNonnegative
      let (together, apart) :=
        if (unknown.length = 1 && negative.isEmpty) || (negative.length = 1 && unknown.isEmpty) then
          (nonnegative ++ unknown ++ negative, [])
        else if negative.isEmpty then (nonnegative, unknown)
        else if e.isRational then
          (nonnegative ++ negative.map (- ·), unknown ++ negative.map fun _ => minusOne)
        else (nonnegative, unknown ++ negative)
      let base := product together
      let opened := match base with
        | .app .mul fs =>
          if (fs.filter isAdd).length < 2 then base
          else sum ((fs.foldl (fun acc f =>
            acc.flatMap fun t => f.terms.map fun u => t * u) [one]))
        | base => base
      let base := if opened.terms.length < termCount (base.size + 1) base then
        factorTerms true opened else base
      apart ++ [base]

/-- The product with the bases of each exponent joined. -/
def joinBases (fs : List Expr) : Expr :=
  let powers := fs.map fun f => coeffToBase f.baseExp
  let byExponent : ByBase := powers.foldl (fun ps p =>
    let (b, e) := p
    if e.isAdd && (b.isPositive || e.isWhole) then
      let e := factorTerms true e
      if e.hasNegativeCoeff then ps.add (-e) (inv b) else ps.add e b
    else ps.add e b) []
  let byBase : ByBase := byExponent.foldl (fun ps p =>
    (joinedBases p.1 p.2).foldl (fun ps b => ps.add b p.1) ps) []
  product (byBase.flatMap fun p => p.2.map (power p.1))

/-! ## Everywhere -/

/-- Joins powers in an expression, to a depth. -/
def joinPowersTo : Nat → Join → Bool → Expr → Expr
  | 0, _, _, e => e
  | fuel + 1, join, deep, e =>
    let go := joinPowersTo fuel join deep
    let e := match e with
      | .app h as => if deep || e.isAdd || e.isMul then rebuild h (as.map go) else e
      | e => e
    let joined := fun (deep : Bool) (fs : List Expr) =>
      match join with
      | .exponents => joinExponents fs
      | .bases => joinBases fs
      | .all => joinPowersTo fuel .bases deep (joinExponents fs)
    match e with
    | .app .pow _ => joined false [e]
    | .app .mul fs => joined deep fs
    | e => e

/-- Joins powers everywhere in sums and products; with `deep` set, everywhere. -/
def joinPowers (join : Join) (deep : Bool) (e : Expr) : Expr :=
  joinPowersTo (2 * e.size + 4) join deep e

end ErrorBars.Expr
