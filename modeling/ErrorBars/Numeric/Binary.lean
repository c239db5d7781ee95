import ErrorBars.Numeric.Decimal

/-!
# Binary numbers of any precision

A `Binary` is `mantissa · 2 ^ exponent` with integers of any size; in normal form the mantissa is
odd or zero.  Sums and products are exact, and `Binary.round` cuts a number to a given count of
bits, so that each rounded operation is an exact one followed by one rounding.
-/

set_option autoImplicit false

namespace ErrorBars

/-- `mantissa · 2 ^ exponent`. -/
structure Binary where
  /-- the mantissa -/
  mantissa : Int
  /-- the exponent -/
  exponent : Int
  deriving DecidableEq, Repr

/-- The number of bits of a natural number; zero has none. -/
def bitLength (n : Nat) : Nat := if n = 0 then 0 else Nat.log2 n + 1

/-- How often two divides a number, counted up to `fuel`. -/
def trailingZeros : Nat → Nat → Nat
  | 0, _ => 0
  | fuel + 1, n => if n ≠ 0 ∧ n % 2 = 0 then trailingZeros fuel (n / 2) + 1 else 0

namespace Binary

/-- Zero. -/
def zero : Binary := ⟨0, 0⟩

/-- One. -/
def one : Binary := ⟨1, 0⟩

instance : Inhabited Binary := ⟨zero⟩

/-- Removes factors of two from a natural mantissa, many at a time while there are many. -/
def stripTwos : Nat → Nat → Int → Nat × Int
  | 0, m, e => (m, e)
  | fuel + 1, m, e =>
    if m = 0 then (0, 0)
    else
      let block := 2 ^ fuel
      if m % 2 ^ block = 0 then stripTwos fuel (m >>> block) (e + block) else stripTwos fuel m e

/-- The normal form: an odd mantissa, or zero. -/
def normal (m : Int) (e : Int) : Binary :=
  if m = 0 then zero
  else
    let n := m.natAbs
    let rounds := bitLength (bitLength n) + 1
    let (k, e) := if n % 2 = 1 then (n, e) else stripTwos rounds n e
    ⟨if m < 0 then -(k : Int) else k, e⟩

/-- A whole number. -/
def ofInt (n : Int) : Binary := normal n 0

/-- Whether the number is zero. -/
def isZero (x : Binary) : Bool := x.mantissa == 0

/-- Whether the number is below zero. -/
def isNegative (x : Binary) : Bool := x.mantissa < 0

/-- Change of sign. -/
def neg (x : Binary) : Binary := ⟨-x.mantissa, x.exponent⟩

/-- Absolute value. -/
def abs (x : Binary) : Binary := ⟨x.mantissa.natAbs, x.exponent⟩

/-- The number of bits of the mantissa. -/
def bits (x : Binary) : Nat := bitLength x.mantissa.natAbs

/-- The place above the first bit: `|x| < 2 ^ magnitude x`, and no smaller power will do. -/
def magnitude (x : Binary) : Int := x.exponent + x.bits

/-- Exact sum. -/
def add (x y : Binary) : Binary :=
  if x.isZero then y
  else if y.isZero then x
  else
    let e := min x.exponent y.exponent
    normal (x.mantissa * 2 ^ (x.exponent - e).toNat + y.mantissa * 2 ^ (y.exponent - e).toNat) e

/-- Exact difference. -/
def sub (x y : Binary) : Binary := x.add y.neg

/-- Exact product. -/
def mul (x y : Binary) : Binary := normal (x.mantissa * y.mantissa) (x.exponent + y.exponent)

/-- Multiplication by a power of two. -/
def scale (x : Binary) (k : Int) : Binary := if x.isZero then x else ⟨x.mantissa, x.exponent + k⟩

/-- Division of a natural number by `2 ^ k`, to nearest, a tie to the even result. -/
def shiftNearest (n k : Nat) : Nat :=
  if k = 0 then n
  else
    let q := n >>> k
    let r := n - (q <<< k)
    let half := 1 <<< (k - 1)
    if half < r ∨ (r = half ∧ q % 2 = 1) then q + 1 else q

/-- The nearest number of at most `bits` bits, a tie to the even mantissa. -/
def round (bits : Nat) (x : Binary) : Binary :=
  let n := x.mantissa.natAbs
  let extra := bitLength n - bits
  if extra = 0 then x
  else
    let m := shiftNearest n extra
    normal (if x.mantissa < 0 then -(m : Int) else m) (x.exponent + extra)

/-- The ratio of two integers, cut to `bits` bits. -/
def ofRatio (bits : Nat) (n : Int) (d : Nat) : Binary :=
  if n = 0 ∨ d = 0 then zero
  else
    let shift := (bits + 2 + bitLength d) - bitLength n.natAbs
    let q := (n.natAbs <<< shift) / d
    let last := if q * d = n.natAbs <<< shift then 0 else 1
    let m : Int := (2 * q + last : Nat)
    round bits (normal (if n < 0 then -m else m) (-(shift : Int) - 1))

/-- A rational number, cut to `bits` bits. -/
def ofRat (bits : Nat) (q : Rat) : Binary := ofRatio bits q.num q.den

/-- Quotient, cut to `bits` bits; a division by zero gives zero. -/
def div (bits : Nat) (x y : Binary) : Binary :=
  let q := ofRatio bits (if y.mantissa < 0 then -x.mantissa else x.mantissa) y.mantissa.natAbs
  q.scale (x.exponent - y.exponent)

/-- The exact rational value.  Only for numbers of moderate exponent. -/
def toRat (x : Binary) : Rat :=
  if 0 ≤ x.exponent then (x.mantissa * 2 ^ x.exponent.toNat : Int)
  else mkRat x.mantissa (2 ^ (-x.exponent).toNat)

/-- The largest integer that does not exceed the number. -/
def floor (x : Binary) : Int :=
  if 0 ≤ x.exponent then x.mantissa * 2 ^ x.exponent.toNat
  else if x.magnitude < 0 then (if x.mantissa < 0 then -1 else 0)
  else Int.fdiv x.mantissa (2 ^ (-x.exponent).toNat)

/-- The largest integer that does not exceed `x · 2 ^ bits`. -/
def toFixed (bits : Nat) (x : Binary) : Int := (x.scale bits).floor

/-- The number `n / 2 ^ bits`. -/
def ofFixed (bits : Nat) (n : Int) : Binary := normal n (-(bits : Int))

/-- Comparison; numbers of different size are told apart without writing either of them out. -/
def lt (x y : Binary) : Bool :=
  if x.isZero then !y.isZero && !y.isNegative
  else if y.isZero then x.isNegative
  else if x.isNegative != y.isNegative then x.isNegative
  else if x.magnitude < y.magnitude then !x.isNegative
  else if y.magnitude < x.magnitude then x.isNegative
  else (x.sub y).isNegative

/-- Sum, cut to `bits` bits.  A term that lies wholly below the last bit wanted is dropped, so that
terms of very different size are never aligned. -/
def addTo (bits : Nat) (x y : Binary) : Binary :=
  if x.isZero then y.round bits
  else if y.isZero then x.round bits
  else if y.magnitude + (bits + 8 : Nat) < x.magnitude then x.round bits
  else if x.magnitude + (bits + 8 : Nat) < y.magnitude then y.round bits
  else (x.add y).round bits

/-- Whether the number is an integer. -/
def isInteger (x : Binary) : Bool := x.isZero || (normal x.mantissa x.exponent).exponent ≥ 0

/-- Square root of a number that is not negative, cut to `bits` bits. -/
def sqrt (bits : Nat) (x : Binary) : Binary :=
  if x.mantissa ≤ 0 then zero
  else
    let odd := x.exponent % 2
    let m := x.mantissa.natAbs <<< odd.toNat
    let e := (x.exponent - odd) / 2
    let shift := (bits + 2) - bitLength m / 2
    let big := m <<< (2 * shift)
    let r := Nat.sqrt big
    let last := if r * r = big then 0 else 1
    round bits (normal ((2 * r + last : Nat) : Int) (e - shift - 1))

/-- Integer power by repeated squaring, every step cut to `bits` bits. -/
def powNat (bits : Nat) (x : Binary) (n : Nat) : Binary :=
  if n = 0 then one
  else
    let half := powNat bits x (n / 2)
    let square := round bits (half.mul half)
    if n % 2 = 0 then square else round bits (square.mul x)
termination_by n
decreasing_by omega

/-- Integer power, cut to `bits` bits; a negative power of zero gives zero. -/
def powInt (bits : Nat) (x : Binary) (n : Int) : Binary :=
  let wide := bits + 2 * bitLength n.natAbs + 10
  if 0 ≤ n then round bits (powNat wide x n.natAbs)
  else div bits one (powNat wide x n.natAbs)

/-- The double nearest to the number. -/
def toDouble (x : Binary) : Double :=
  Double.ofScaled (x.mantissa < 0) x.mantissa.natAbs x.exponent

/-- A finite double as a binary number. -/
def ofDouble? (x : Double) : Option Binary := x.scaled?.map fun p => normal p.1 p.2

end Binary

end ErrorBars
