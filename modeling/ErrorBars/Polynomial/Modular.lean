import ErrorBars.Numeric.Power

/-!
# Polynomials modulo a prime

A polynomial in one variable modulo a prime is the list of its coefficients by ascending degree,
each below the prime, the last one not zero.  `factors` splits a polynomial without repeated factors
into irreducible ones: first by the degree of the factors (`byDegree`), then by chance
(`splitEqual`).
-/

set_option autoImplicit false

namespace ErrorBars

/-- Polynomials modulo a prime. -/
abbrev ModPoly := List Nat

namespace ModPoly

/-- Without zeros at the highest degrees. -/
def trim (f : ModPoly) : ModPoly := (f.reverse.dropWhile (· == 0)).reverse

/-- The degree; zero for constants. -/
def degree (f : ModPoly) : Nat := f.length - 1

/-- The coefficient of the highest power. -/
def leading (f : ModPoly) : Nat := f.getLastD 0

/-- A power of a number. -/
def powNat (p a : Nat) : Nat → Nat → Nat
  | 0, _ => 1
  | fuel + 1, e =>
    if e = 0 then 1
    else
      let half := powNat p a fuel (e / 2)
      let square := half * half % p
      if e % 2 = 0 then square else square * a % p

/-- The inverse of a number that is not zero. -/
def invNat (p a : Nat) : Nat := powNat p a (Nat.log2 p + 1) (p - 2)

/-- The sum, not trimmed. -/
def addRaw (p : Nat) : ModPoly → ModPoly → ModPoly
  | [], g => g
  | f, [] => f
  | a :: f, b :: g => (a + b) % p :: addRaw p f g

/-- The sum. -/
def add (p : Nat) (f g : ModPoly) : ModPoly := trim (addRaw p f g)

/-- A multiple by a number. -/
def scale (p k : Nat) (f : ModPoly) : ModPoly := trim (f.map fun a => k * a % p)

/-- The difference. -/
def sub (p : Nat) (f g : ModPoly) : ModPoly := add p f (scale p (p - 1) g)

/-- The product, not trimmed. -/
def mulRaw (p : Nat) : ModPoly → ModPoly → ModPoly
  | [], _ => []
  | a :: f, g => addRaw p (g.map fun b => a * b % p) (0 :: mulRaw p f g)

/-- The product. -/
def mul (p : Nat) (f g : ModPoly) : ModPoly := trim (mulRaw p f g)

/-- With one as the coefficient of the highest power. -/
def monic (p : Nat) (f : ModPoly) : ModPoly :=
  if f.isEmpty then f else scale p (invNat p f.leading) f

/-- Takes multiples of a divisor away from a polynomial, both by descending degree; the steps give
the quotient. -/
def divideStep (p inverse : Nat) (g : List Nat) : Nat → List Nat → List Nat × List Nat
  | 0, f => ([], f)
  | steps + 1, f =>
    match f with
    | [] => ([], [])
    | a :: _ =>
      let c := a * inverse % p
      let negated := (p - c) % p
      let rec combine : List Nat → List Nat → List Nat
        | [], _ => []
        | f, [] => f
        | a :: f, b :: g => (a + negated * b) % p :: combine f g
      let (q, r) := divideStep p inverse g steps (combine f g).tail
      (c :: q, r)

/-- Quotient and remainder. -/
def divide (p : Nat) (f g : ModPoly) : ModPoly × ModPoly :=
  if g.isEmpty || f.length < g.length then ([], f)
  else
    let (q, r) := divideStep p (invNat p g.leading) g.reverse (f.length - g.length + 1) f.reverse
    (trim q.reverse, trim r.reverse)

/-- The remainder. -/
def mod (p : Nat) (f g : ModPoly) : ModPoly := (divide p f g).2

/-- The greatest common divisor, monic; the first argument bounds the number of divisions. -/
def gcd (p : Nat) : Nat → ModPoly → ModPoly → ModPoly
  | 0, f, _ => monic p f
  | fuel + 1, f, g => if g.isEmpty then monic p f else gcd p fuel g (mod p f g)

/-- The greatest common divisor. -/
def commonDivisor (p : Nat) (f g : ModPoly) : ModPoly := gcd p (f.length + g.length + 2) f g

/-- A power modulo a polynomial. -/
def powMod (p : Nat) (m a : ModPoly) : Nat → Nat → ModPoly
  | 0, _ => [1]
  | fuel + 1, e =>
    if e = 0 then [1]
    else
      let half := powMod p m a fuel (e / 2)
      let square := mod p (mul p half half) m
      if e % 2 = 0 then square else mod p (mul p square a) m

/-- The power `a ^ e` modulo a polynomial. -/
def power (p : Nat) (m a : ModPoly) (e : Nat) : ModPoly := powMod p m (mod p a m) (Nat.log2 e + 1) e

/-- The derivative. -/
def derivative (p : Nat) (f : ModPoly) : ModPoly :=
  trim ((f.zipIdx.drop 1).map fun a => a.1 * a.2 % p)

/-- The products of the irreducible factors of each degree, with that degree.  `frobenius` is the
power of the variable whose exponent is that of the prime. -/
def byDegree (p : Nat) : Nat → Nat → ModPoly → ModPoly → List (ModPoly × Nat)
  | 0, d, f, _ => [(f, d)]
  | fuel + 1, d, f, frobenius =>
    if f.degree < 2 * d then (if f.degree = 0 then [] else [(f, f.degree)])
    else
      let next := power p f frobenius p
      let g := commonDivisor p f (sub p next [0, 1])
      if g.degree = 0 then byDegree p fuel (d + 1) f next
      else
        let rest := (divide p f g).1
        (g, d) :: byDegree p fuel (d + 1) rest (mod p next rest)

/-- Splits a product of irreducible factors of one degree.  `k` is the shift that is tried next. -/
def splitEqual (p d : Nat) : Nat → Nat → ModPoly → List ModPoly
  | 0, _, f => [f]
  | fuel + 1, k, f =>
    if f.degree ≤ d then [f]
    else
      let g := commonDivisor p f (sub p (power p f [k, 1] ((p ^ d - 1) / 2)) [1])
      if g.degree = 0 || g.degree = f.degree then splitEqual p d fuel (k + 1) f
      else splitEqual p d fuel (k + 1) g ++ splitEqual p d fuel (k + 1) (divide p f g).1

/-- The irreducible factors of a monic polynomial without repeated factors. -/
def factors (p : Nat) (f : ModPoly) : List ModPoly :=
  (byDegree p (f.length + 1) 1 f [0, 1]).flatMap fun g =>
    splitEqual p g.2 (20 * f.length + 20) 1 g.1

/-- Whether no factor is repeated. -/
def isSquarefree (p : Nat) (f : ModPoly) : Bool := (commonDivisor p f (derivative p f)).degree = 0

end ModPoly

end ErrorBars
