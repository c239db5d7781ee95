import ErrorBars.Polynomial.Gcd
import ErrorBars.Polynomial.Modular
import ErrorBars.Numeric.Roots

/-!
# Factors of polynomials

`factorList` writes a polynomial over the integers as an integer times powers of irreducible
polynomials whose first integer is above zero.

A variable in which the polynomial has the least degree goes first.  The content in this variable is
factored by itself, and what remains is taken apart into parts without repeated factors.  Such a
part is irreducible if it is linear; it is split by its discriminant if it is quadratic; and
otherwise powers of one variable are put in for all of them, so that it becomes a polynomial in one
variable, whose factors modulo a large prime are then joined until they divide it.
-/

set_option autoImplicit false

namespace ErrorBars.Poly

/-! ## Parts without repeated factors -/

/-- The derivative in the first variable. -/
def derivative {n : Nat} (p : Poly (n + 1)) : Poly (n + 1) :=
  ofCoeffs (p.coeffs.filterMap fun a => if a.1 = 0 then none else some (a.1 - 1, scale a.1 a.2))

/-- The parts of a primitive polynomial without repeated factors, with their multiplicities from `i`
on: `w` is the product of the factors left, `c` that of what they are repeated by. -/
def squarefreeFrom {n : Nat} :
    Nat → Nat → Poly (n + 1) → Poly (n + 1) → List (Poly (n + 1) × Nat)
  | 0, i, w, _ => [(w, i)]
  | fuel + 1, i, w, c =>
    if degree w = 0 then []
    else
      let y := gcd w c
      let z := quotient w y
      let rest := squarefreeFrom fuel (i + 1) y (quotient c y)
      if degree z = 0 then rest else (normalSign z, i) :: rest

/-- The parts of a primitive polynomial without repeated factors, with their multiplicities. -/
def squarefreeParts {n : Nat} (p : Poly (n + 1)) : List (Poly (n + 1) × Nat) :=
  let c := gcd p (derivative p)
  squarefreeFrom (degree p + 1) 1 (quotient p c) c

/-- A polynomial without content in its first variable. -/
def primitivePart {n : Nat} (p : Poly (n + 1)) : Poly (n + 1) :=
  normalSign (divideCoeffs (contentWith gcd p) p)

/-! ## Square roots -/

/-- Adds terms to a square root as long as there is a remainder; the root of the leading coefficient
is doubled in `lead`. -/
def rootTerms {n : Nat} (p : Poly (n + 1)) (lead : Poly n) (half : Nat) :
    Nat → Poly (n + 1) → Option (Poly (n + 1))
  | 0, _ => none
  | fuel + 1, q =>
    match (sub p (mul q q)).coeffs with
    | [] => some q
    | (d, c) :: _ =>
      if d < half then none
      else do
        let k ← divide? c lead
        rootTerms p lead half fuel (add q (ofCoeffs [(d - half, k)]))

/-- The square root of a polynomial, if it is the square of one. -/
def sqrt? : {n : Nat} → Poly n → Option (Poly n)
  | 0, p =>
    if p.toInt < 0 then none else (exactRoot? 2 p.toInt.toNat).map fun r => ofInt r
  | _ + 1, p =>
    match p.coeffs with
    | [] => some (ofCoeffs [])
    | (d, c) :: _ =>
      if d % 2 = 1 then none
      else do
        let s ← sqrt? c
        rootTerms p (scale 2 s) (d / 2) (d / 2 + 2) (ofCoeffs [(d / 2, s)])

/-- The coefficient of a power of the first variable. -/
def coeff {n : Nat} (p : Poly (n + 1)) (d : Nat) : Poly n := ((p.coeffs.lookup d).getD (zero n))

/-- The factors of a quadratic polynomial without content. -/
def splitQuadratic {n : Nat} (p : Poly (n + 1)) : List (Poly (n + 1)) :=
  let a := coeff p 2
  let b := coeff p 1
  match sqrt? (sub (mul b b) (scale 4 (mul a (coeff p 0)))) with
  | none => [p]
  | some s =>
    let factor := fun (t : Poly n) =>
      primitivePart
        (add (ofCoeffs [(1, scale 2 a)]) (if t.isZero then ofCoeffs [] else ofCoeffs [(0, t)]))
    [factor (sub b s), factor (add b s)]

/-! ## One variable -/

/-- Exponents of two such that one less is a prime. -/
def mersenneExponents : List Nat := [31, 61, 89, 107, 127, 521, 607]

/-- The coefficients by ascending degree. -/
def toDense (p : Poly 1) : List Int :=
  (List.range (degree p + 1)).map fun d => toInt (coeff p d)

/-- The polynomial with given coefficients by ascending degree. -/
def ofDense (cs : List Int) : Poly 1 :=
  ofCoeffs ((cs.zipIdx.reverse.filter fun c => c.1 ≠ 0).map fun c => (c.2, ofInt c.1))

/-- A bound for the coefficients of all divisors, times the leading coefficient. -/
def divisorBound (p : Poly 1) : Nat :=
  let cs := toDense p
  let norm := cs.foldl (fun (s : Nat) c => s + c.natAbs) 0
  2 ^ degree p * norm * p.leadingInt.natAbs

/-- All ways to choose so many members of a list: the chosen ones and the others. -/
def choices {α : Type} : Nat → List α → List (List α × List α)
  | 0, xs => [([], xs)]
  | _ + 1, [] => []
  | k + 1, x :: xs =>
    (choices k xs).map (fun c => (x :: c.1, c.2)) ++
      (choices (k + 1) xs).map (fun c => (c.1, x :: c.2))

/-- Joins pieces until they divide a polynomial.  `candidate` makes a possible divisor of the
product of some pieces; choices of `size` pieces are tried next. -/
def joinPieces {n : Nat} {α : Type} (candidate : Poly (n + 1) → List α → Poly (n + 1)) :
    Nat → Nat → List α → Poly (n + 1) → List (Poly (n + 1))
  | 0, _, _, p => [p]
  | fuel + 1, size, pieces, p =>
    if pieces.length < 2 * size then [p]
    else
      let found := (choices size pieces).findSome? fun c =>
        let d := candidate p c.1
        if (d.const?).isSome then none else (divide? p d).map fun q => (d, q, c.2)
      match found with
      | some (d, q, rest) => d :: joinPieces candidate fuel size rest (normalSign q)
      | none => joinPieces candidate fuel (size + 1) pieces p

/-- The most pieces that are joined in all ways. -/
def pieceLimit : Nat := 12

/-- The irreducible factors of a primitive polynomial in one variable without repeated factors. -/
def splitUnivariate (p : Poly 1) : List (Poly 1) :=
  let bound := 2 * divisorBound p + 1
  let primes : List Nat :=
    (mersenneExponents.map fun (k : Nat) => 2 ^ k - 1).filter fun q => bound < q
  let reduced := fun (q : Nat) => ModPoly.trim ((toDense p).map fun c => (c % (q : Int)).toNat)
  match primes.find? fun (q : Nat) =>
      p.leadingInt % (q : Int) ≠ 0 && ModPoly.isSquarefree q (ModPoly.monic q (reduced q)) with
  | none => [p]
  | some q =>
    let pieces := ModPoly.factors q (ModPoly.monic q (reduced q))
    if pieceLimit < pieces.length then [p]
    else
      let candidate := fun (f : Poly 1) (gs : List ModPoly) =>
        let product := gs.foldl (ModPoly.mul q) [(f.leadingInt % (q : Int)).toNat]
        primitivePart (ofDense (product.map fun (c : Nat) =>
          if 2 * c < q then (c : Int) else (c : Int) - (q : Int)))
      joinPieces candidate (2 * pieces.length + 2) 1 pieces p

/-! ## Several variables -/

/-- The degrees in all variables. -/
def degrees {n : Nat} (p : Poly n) : List Nat :=
  p.monomials.foldl (fun ds m => (ds.zip m.1).map fun d => max d.1 d.2) (List.replicate n 0)

/-- A polynomial from its monomials. -/
def ofMonomials (n : Nat) (ms : List (List Nat × Int)) : Poly n :=
  ms.foldl (fun p m => add p (monomial n m.1 m.2)) (zero n)

/-- The polynomial with the variable at a position moved to the front. -/
def bringForward {n : Nat} (i : Nat) (p : Poly n) : Poly n :=
  if i = 0 then p
  else ofMonomials n (p.monomials.map fun m => (m.1.getD i 0 :: m.1.eraseIdx i, m.2))

/-- The polynomial with the first variable moved to a position. -/
def bringBack {n : Nat} (i : Nat) (p : Poly n) : Poly n :=
  if i = 0 then p
  else ofMonomials n (p.monomials.map fun m => (m.1.tail.insertIdx i (m.1.headD 0), m.2))

/-- The exponent of the power that stands for a monomial, given the degrees. -/
def packExponents (ds es : List Nat) : Nat :=
  (ds.zip es).foldr (fun x n => x.2 + (x.1 + 1) * n) 0

/-- The monomial that a power stands for. -/
def unpackExponents : List Nat → Nat → List Nat
  | [], _ => []
  | d :: ds, k => k % (d + 1) :: unpackExponents ds (k / (d + 1))

/-- The largest degree in one variable of what is factored. -/
def packLimit : Nat := 48

/-- The irreducible factors of a primitive polynomial without repeated factors, through powers of
one variable. -/
def splitPacked {n : Nat} (p : Poly (n + 1)) : List (Poly (n + 1)) :=
  let ds := degrees p
  let packed : Poly 1 := ofMonomials 1 (p.monomials.map fun m => ([packExponents ds m.1], m.2))
  if packLimit < degree packed then [p]
  else
    let unpack := fun (f : Poly 1) =>
      ofMonomials (n + 1) (f.monomials.map fun m => (unpackExponents ds (m.1.headD 0), m.2))
    let split := fun (f : Poly 1) => if degree f = 1 then [f]
      else if degree f = 2 then splitQuadratic f else splitUnivariate f
    let pieces := (squarefreeParts packed).flatMap fun f =>
      (split f.1).flatMap fun g => List.replicate f.2 g
    if pieceLimit < pieces.length then [p]
    else
      let candidate := fun (_ : Poly (n + 1)) (gs : List (Poly 1)) =>
        normalSign (unpack (gs.foldl mul (one 1)))
      joinPieces candidate (2 * pieces.length + 2) 1 pieces p

/-- The irreducible factors of a polynomial without content in its first variable and without
repeated factors. -/
def splitSquarefree {n : Nat} (p : Poly (n + 1)) : List (Poly (n + 1)) :=
  if degree p = 1 then [p]
  else if degree p = 2 then splitQuadratic p
  else splitPacked p

/-- The position of the least number above zero. -/
def leastPositive? (ds : List Nat) : Option Nat :=
  (ds.zipIdx.filter fun d => 0 < d.1).foldl (fun (best : Option (Nat × Nat)) d =>
    match best with
    | some b => if d.1 < b.1 then some d else best
    | none => some d) none |>.map (·.2)

/-- The irreducible factors of a polynomial without integer content, with their multiplicities; the
first argument bounds the number of variables. -/
def factorsTo {n : Nat} : Nat → Poly (n + 1) → List (Poly (n + 1) × Nat)
  | 0, p => [(p, 1)]
  | fuel + 1, p =>
    match leastPositive? (degrees p) with
    | none => []
    | some i =>
      let q := bringForward i p
      let c := contentWith gcd q
      let inContent := if (c.const?).isSome then [] else factorsTo fuel (ofCoeffs [(0, c)])
      let inRest := (squarefreeParts (divideCoeffs c q)).flatMap fun f =>
        (splitSquarefree f.1).map fun g => (g, f.2)
      (inContent ++ inRest).map fun f => (normalSign (bringBack i f.1), f.2)

/-- A polynomial as an integer times powers of irreducible polynomials. -/
def factorList {n : Nat} (p : Poly (n + 1)) : Int × List (Poly (n + 1) × Nat) :=
  let c : Int := if p.leadingInt < 0 then -(intContent p) else intContent p
  if c = 0 then (0, [])
  else (c, factorsTo (n + 2) (quotient p (const (n + 1) c)))

end ErrorBars.Poly
