import ErrorBars.Polynomial.Basic

/-!
# Greatest common divisors of polynomials

`divide?` divides exactly.  Most polynomials have no common divisor that involves the first variable
at all, which shows already when numbers are put in for the other variables; `gcd` makes such a
probe first.  Otherwise a large number is put in for the first variable, and the greatest common
divisor of the values is read as digits to that number (`gcdByDigits?`); what divides both
polynomials then is their greatest common divisor.  If that fails, the contents in the first
variable are split off and pseudo- remainders of the primitive parts are taken.
-/

set_option autoImplicit false

namespace ErrorBars.Poly

/-- Exact division, given exact division of coefficients; the first argument bounds the number of
steps. -/
def divideWith {n : Nat} (divideCoeff : Poly n → Poly n → Option (Poly n)) :
    Nat → Poly (n + 1) → Poly (n + 1) → Option (Poly (n + 1))
  | 0, _, _ => none
  | fuel + 1, p, q =>
    match p.coeffs, q.coeffs with
    | [], _ => some (ofCoeffs [])
    | _, [] => none
    | (d, c) :: _, (e, b) :: _ =>
      if d < e then none
      else do
        let k ← divideCoeff c b
        let rest ← divideWith divideCoeff fuel (sub p (shift (d - e) k q)) q
        return add (ofCoeffs [(d - e, k)]) rest

/-- The quotient, if the second polynomial divides the first. -/
def divide? : {n : Nat} → Poly n → Poly n → Option (Poly n)
  | 0, p, q =>
    if q.toInt = 0 then none
    else if p.toInt % q.toInt = 0 then some (ofInt (p.toInt / q.toInt)) else none
  | _ + 1, p, q => divideWith divide? (degree p + 2) p q

/-- The quotient of an exact division. -/
def quotient {n : Nat} (p q : Poly n) : Poly n := (divide? p q).getD p

/-- The pseudo-remainder; the first argument bounds the number of steps. -/
def remainder {n : Nat} : Nat → Poly (n + 1) → Poly (n + 1) → Poly (n + 1)
  | 0, p, _ => p
  | fuel + 1, p, q =>
    match p.coeffs, q.coeffs with
    | [], _ => p
    | _, [] => p
    | (d, c) :: _, (e, b) :: _ =>
      if d < e then p
      else remainder fuel (sub (shift 0 b p) (shift (d - e) c q)) q

/-- Numbers that are put in for variables to probe for common divisors. -/
def probePoint : List Int := [10007, 20011, 30011, 40009, 50021, 60013, 70001, 80021, 90001, 11003]

/-- The polynomial in its first variable alone that results from putting in numbers for the
others. -/
def probe {n : Nat} (p : Poly (n + 1)) : Poly 1 :=
  ofCoeffs ((p.coeffs.map fun a => (a.1, ofInt (eval probePoint a.2))).filter fun a =>
    !(toInt a.2 == 0))

/-- The greatest common divisor of coefficients. -/
def contentWith {n : Nat} (gcdCoeff : Poly n → Poly n → Poly n) (p : Poly (n + 1)) : Poly n :=
  p.coeffs.foldl (fun g a =>
    match const? g with
    | some 1 => g
    | _ => gcdCoeff g a.2) (zero n)

/-- Divides all coefficients. -/
def divideCoeffs {n : Nat} (c : Poly n) (p : Poly (n + 1)) : Poly (n + 1) :=
  ofCoeffs (p.coeffs.map fun a => (a.1, quotient a.2 c))

/-- The last remainder that is not zero, primitive; the first argument bounds the number of
steps. -/
def lastRemainder {n : Nat} (gcdCoeff : Poly n → Poly n → Poly n) :
    Nat → Poly (n + 1) → Poly (n + 1) → Poly (n + 1)
  | 0, _, _ => one (n + 1)
  | fuel + 1, p, q =>
    let r := remainder (degree p + 2) p q
    if r.isZero then q
    else if degree r = 0 then one (n + 1)
    else lastRemainder gcdCoeff fuel q (divideCoeffs (contentWith gcdCoeff r) r)

/-- A polynomial or its opposite, so that the first integer is above zero. -/
def normalSign {n : Nat} (p : Poly n) : Poly n := if p.leadingInt < 0 then neg p else p

/-- The greatest common divisor of integers as polynomials. -/
def gcdInt (p q : Poly 0) : Poly 0 := ofInt (Int.gcd p.toInt q.toInt)

/-! ## Digits -/

/-- The value when a number is put in for the first variable. -/
def evalFirst {n : Nat} (x : Int) (p : Poly (n + 1)) : Poly n :=
  p.coeffs.foldl (fun acc a => add acc (scale (x ^ a.1) a.2)) (zero n)

/-- Changes all integers. -/
def mapInts (f : Int → Int) : {n : Nat} → Poly n → Poly n
  | 0, p => ofInt (f p.toInt)
  | _ + 1, p => ofCoeffs ((p.coeffs.map fun a => (a.1, mapInts f a.2)).filter fun a => !a.2.isZero)

/-- The integers that occur. -/
def ints : {n : Nat} → Poly n → List Int
  | 0, p => [p.toInt]
  | _ + 1, p => p.coeffs.flatMap fun a => ints a.2

/-- The largest magnitude of an integer that occurs. -/
def norm {n : Nat} (p : Poly n) : Nat := p.ints.foldl (fun (m : Nat) k => max m k.natAbs) 0

/-- The greatest common divisor of the integers that occur. -/
def intContent {n : Nat} (p : Poly n) : Nat :=
  p.ints.foldl (fun (g : Nat) k => Nat.gcd g k.natAbs) 0

/-- The digits of polynomials to a base, from the lowest on, each between minus and plus half the
base; the first argument bounds their number. -/
def digits {n : Nat} (x : Int) : Nat → Nat → Poly n → List (Nat × Poly n)
  | 0, _, _ => []
  | fuel + 1, i, p =>
    if p.isZero then []
    else
      let digit := mapInts (fun k => Int.bmod k x.toNat) p
      let rest := mapInts (fun k => k / x) (sub p digit)
      if digit.isZero then digits x fuel (i + 1) rest
      else (i, digit) :: digits x fuel (i + 1) rest

/-- How many numbers are put in for one variable. -/
def digitTrials : Nat := 6

/-- The largest number of bits that a number put in may have. -/
def digitLimit : Nat := 400000

/-- Puts in one number after the other until the digits are a common divisor. -/
def tryDigits {n : Nat} (gcdValues : Poly n → Poly n → Option (Poly n)) (p q : Poly (n + 1)) :
    Nat → Int → Option (Poly (n + 1))
  | 0, _ => none
  | fuel + 1, x =>
    let a := evalFirst x p
    let b := evalFirst x q
    let next := fun (_ : Unit) =>
      let root : Int := Nat.sqrt (Nat.sqrt x.toNat)
      tryDigits gcdValues p q fuel (73794 * x * root / 27011)
    if digitLimit < Nat.log2 x.toNat then none
    else if a.isZero || b.isZero then next ()
    else
      match gcdValues a b with
      | none => none
      | some h =>
        let g := ofCoeffs (digits x (min (degree p) (degree q) + 2) 0 h).reverse
        let content : Int := intContent g
        let g := mapInts (fun k => k / content) (normalSign g)
        if (divide? p g).isSome && (divide? q g).isSome then some g else next ()

/-- The greatest common divisor of two polynomials that are not zero, read from the digits of the
greatest common divisor of values. -/
def gcdByDigits? : {n : Nat} → Poly n → Poly n → Option (Poly n)
  | 0, p, q => some (gcdInt p q)
  | _ + 1, p, q =>
    let c := intContent p
    let d := intContent q
    let p := mapInts (fun k => k / (c : Int)) p
    let q := mapInts (fun k => k / (d : Int)) q
    let bound := 2 * min (norm p) (norm q) + 29
    let ratio := min (norm p / p.leadingInt.natAbs) (norm q / q.leadingInt.natAbs)
    let start := max (min bound (99 * Nat.sqrt bound)) (2 * ratio + 4)
    (tryDigits gcdByDigits? p q digitTrials start).map (scale (Nat.gcd c d))

/-! ## The greatest common divisor -/

/-- The greatest common divisor of polynomials in at least one variable, given that of coefficients.
`coprime` tells whether the primitive parts are known to have none, and `direct?` may find it. -/
def gcdWith {n : Nat} (gcdCoeff : Poly n → Poly n → Poly n)
    (coprime : Poly (n + 1) → Poly (n + 1) → Bool)
    (direct? : Poly (n + 1) → Poly (n + 1) → Option (Poly (n + 1))) (p q : Poly (n + 1)) :
    Poly (n + 1) :=
  if p.isZero then normalSign q
  else if q.isZero then normalSign p
  else if degree p = 0 || degree q = 0 || coprime p q then
    ofCoeffs [(0, gcdCoeff (contentWith gcdCoeff p) (contentWith gcdCoeff q))]
  else
    match direct? p q with
    | some g => g
    | none =>
      let cp := contentWith gcdCoeff p
      let cq := contentWith gcdCoeff q
      let p := divideCoeffs cp p
      let q := divideCoeffs cq q
      let (p, q) := if degree p < degree q then (q, p) else (p, q)
      let g := lastRemainder gcdCoeff (degree q + 2) p q
      normalSign (shift 0 (gcdCoeff cp cq) g)

/-- The greatest common divisor of polynomials in one variable. -/
def gcdUnivariate (p q : Poly 1) : Poly 1 := gcdWith gcdInt (fun _ _ => false) (fun _ _ => none) p q

/-- Whether numbers put in for all variables but the first show that every common divisor is free of
the first. -/
def probeCoprime {n : Nat} (p q : Poly (n + 1)) : Bool :=
  let a := probe p
  let b := probe q
  degree a = degree p && degree b = degree q && degree (gcdUnivariate a b) = 0

/-- The greatest common divisor; its first integer is not below zero. -/
def gcd : {n : Nat} → Poly n → Poly n → Poly n
  | 0, p, q => gcdInt p q
  | _ + 1, p, q => gcdWith gcd probeCoprime gcdByDigits? p q

/-- Divides two polynomials by their greatest common divisor, so that the first integer of the
second is above zero.  They stay as they are if what was found does not divide both. -/
def reduce {n : Nat} (p q : Poly n) : Poly n × Poly n :=
  let g := gcd p q
  let (p', q') := match divide? p g, divide? q g with
    | some p', some q' => (p', q')
    | _, _ => (p, q)
  if q'.leadingInt < 0 then (neg p', neg q') else (p', q')

end ErrorBars.Poly
