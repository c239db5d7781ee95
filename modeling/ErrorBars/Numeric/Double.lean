import ErrorBars.Numeric.Power

/-!
# Double precision numbers

A finite double is a sign, a mantissa `m` and an exponent `e` standing for `± m · 2 ^ e`; the pair
`(m, e)` is canonical, so every finite double is written in exactly one way.  Every operation is the
exact operation followed by one rounding (to nearest, a tie to the even mantissa), and nothing here
goes through the machine's floating point unit: whatever is computed can also be reasoned about.

* `Double.ofRatio`, `Double.ofScaled` — the rounding, from a quotient and from a scaled integer.
* `Double.add`, `Double.mul`, `Double.abs`, `Double.hypot` — with the usual rules for infinities and
  for values that are not numbers.
* `Double.ofInt?`, `Double.ofRat?` — conversions that refuse what does not fit.
-/

set_option autoImplicit false

namespace ErrorBars

/-- The pairs that stand for a finite double: a full 53-bit mantissa, or the smallest exponent. -/
def Double.Canonical (mantissa : Nat) (exponent : Int) : Prop :=
  mantissa < 2 ^ (53 : Nat) ∧ -1074 ≤ exponent ∧ exponent ≤ 971 ∧
    (2 ^ (52 : Nat) ≤ mantissa ∨ exponent = -1074)

instance (m : Nat) (e : Int) : Decidable (Double.Canonical m e) :=
  inferInstanceAs (Decidable (_ ∧ _))

/-- A double precision number. -/
inductive Double where
  /-- not a number -/
  | nan
  /-- plus or minus infinity -/
  | infinite (negative : Bool)
  /-- `± mantissa · 2 ^ exponent`; there are two zeros -/
  | finite (negative : Bool) (mantissa : Nat) (exponent : Int)
      (canonical : Double.Canonical mantissa exponent)
  deriving DecidableEq

namespace Double

/-- Zero with the given sign. -/
def zero (negative : Bool) : Double := .finite negative 0 (-1074) (by decide)

instance : Inhabited Double := ⟨zero false⟩

/-- `n / d` to the nearest integer, a tie to the even one. -/
def nearestQuotient (n d : Nat) : Nat :=
  let q := n / d
  let r := n % d
  if d < 2 * r ∨ (2 * r = d ∧ q % 2 = 1) then q + 1 else q

/-- `2 ^ k` times the ratio `n / d`, as a pair of numerator and denominator. -/
def scaleRatio (n d : Nat) (k : Int) : Nat × Nat :=
  if 0 ≤ k then (n <<< k.toNat, d) else (n, d <<< (-k).toNat)

/-- The double with this mantissa and exponent; infinity when the exponent is too large. -/
def assemble (negative : Bool) (m : Nat) (e : Int) : Double :=
  if m = 2 ^ (53 : Nat) then
    if h : Canonical (2 ^ (52 : Nat)) (e + 1) then .finite negative (2 ^ (52 : Nat)) (e + 1) h
    else .infinite negative
  else if h : Canonical m e then .finite negative m e h
  else .infinite negative

/-- The double nearest to `± n / d`. -/
def ofRatio (negative : Bool) (n d : Nat) : Double :=
  if n = 0 ∨ d = 0 then zero negative
  else
    let size : Int := (Nat.log2 n : Int) - (Nat.log2 d : Int)
    let e : Int := max (size - 53) (-1074)
    let (a, b) := scaleRatio n d (-e)
    if a / b < 2 ^ (53 : Nat) then assemble negative (nearestQuotient a b) e
    else
      let (a, b) := scaleRatio n d (-(e + 1))
      assemble negative (nearestQuotient a b) (e + 1)

/-- The double nearest to `± n · 2 ^ k`.  Exponents far outside the range are settled by their
size, so that no huge power of two is ever written out. -/
def ofScaled (negative : Bool) (n : Nat) (k : Int) : Double :=
  if n = 0 then zero negative
  else
    let size : Int := (Nat.log2 n : Int) + k
    if 1100 < size then .infinite negative
    else if size < -1200 then zero negative
    else if 0 ≤ k then ofRatio negative (n <<< k.toNat) 1
    else ofRatio negative n (1 <<< (-k).toNat)

/-- The double nearest to `± n · 10 ^ k`. -/
def ofDecimal (negative : Bool) (n : Nat) (k : Int) : Double :=
  if n = 0 then zero negative
  else
    let size : Int := (Nat.log2 n : Int) * 3 / 10 + k
    if 400 < size then .infinite negative
    else if size < -800 then zero negative
    else if 0 ≤ k then ofRatio negative (n * 10 ^ k.toNat) 1
    else ofRatio negative n (10 ^ (-k).toNat)

/-- An integer as a double, unless it is too large for one. -/
def ofInt? (n : Int) : Option Double :=
  match ofRatio (n < 0) n.natAbs 1 with
  | .infinite _ => none
  | x => some x

/-- A rational number as a double, unless it is too large for one. -/
def ofRat? (q : Rat) : Option Double :=
  match ofRatio (q.num < 0) q.num.natAbs q.den with
  | .infinite _ => none
  | x => some x

/-- Neither infinite nor undefined. -/
def isFinite : Double → Bool
  | .finite .. => true
  | _ => false

/-- Whether the number is below zero; no zero is, and a value that is no number is not. -/
def isNegative : Double → Bool
  | .nan => false
  | .infinite s => s
  | .finite s m _ _ => s && m != 0

/-- A value that counts as zero, of either sign. -/
def isZero : Double → Bool
  | .finite _ m _ _ => m == 0
  | _ => false

/-- The number as an integer times a power of two. -/
def scaled? : Double → Option (Int × Int)
  | .finite s m e _ => some (if s then -(m : Int) else m, e)
  | _ => none

/-- The exact value of a finite double. -/
def toRat? : Double → Option Rat
  | .finite s m e _ =>
    let n : Int := if s then -(m : Int) else m
    some (if 0 ≤ e then (n * 2 ^ e.toNat : Int) else mkRat n (2 ^ (-e).toNat))
  | _ => none

/-- Absolute value. -/
def abs : Double → Double
  | .nan => .nan
  | .infinite _ => .infinite false
  | .finite _ m e h => .finite false m e h

/-- Change of sign. -/
def neg : Double → Double
  | .nan => .nan
  | .infinite s => .infinite (!s)
  | .finite s m e h => .finite (!s) m e h

/-- Sum.  Opposite infinities have none; an exact zero is positive unless both terms are negative
zeros. -/
def add : Double → Double → Double
  | .nan, _ => .nan
  | _, .nan => .nan
  | .infinite a, .infinite b => if a = b then .infinite a else .nan
  | .infinite a, .finite .. => .infinite a
  | .finite .., .infinite b => .infinite b
  | .finite a m e _, .finite b n f _ =>
    let g := min e f
    let x : Int := (m <<< (e - g).toNat : Nat)
    let y : Int := (n <<< (f - g).toNat : Nat)
    let s := (if a then -x else x) + (if b then -y else y)
    if s = 0 then zero (a && b) else ofScaled (s < 0) s.natAbs g

/-- Product.  Zero times an infinity has none. -/
def mul : Double → Double → Double
  | .nan, _ => .nan
  | _, .nan => .nan
  | .infinite a, .infinite b => .infinite (a != b)
  | .infinite a, .finite b n _ _ => if n = 0 then .nan else .infinite (a != b)
  | .finite a m _ _, .infinite b => if m = 0 then .nan else .infinite (a != b)
  | .finite a m e _, .finite b n f _ => ofScaled (a != b) (m * n) (e + f)

/-- The double nearest to `√n · 2 ^ k`.  The root is taken with more bits than a double holds, and
a root that is not exact keeps a last bit, so that the rounding sees on which side it lies. -/
def ofSqrt (n : Nat) (k : Int) : Double :=
  let shift := 64 - min 64 (Nat.log2 n / 2)
  let big := n <<< (2 * shift)
  let r := Nat.sqrt big
  let last := if r * r = big then 0 else 1
  ofScaled false (2 * r + last) (k - shift - 1)

/-- `√(x² + y²)`: the squares are exact, so nothing overflows on the way.  An infinite side makes
the result infinite, whatever the other one is. -/
def hypot : Double → Double → Double
  | .infinite _, _ => .infinite false
  | _, .infinite _ => .infinite false
  | .nan, _ => .nan
  | _, .nan => .nan
  | .finite _ m e _, .finite _ n f _ =>
    let g := min e f
    let x := m <<< (e - g).toNat
    let y := n <<< (f - g).toNat
    if x = 0 ∧ y = 0 then zero false else ofSqrt (x * x + y * y) g

instance : Add Double := ⟨add⟩
instance : Mul Double := ⟨mul⟩
instance : Neg Double := ⟨neg⟩

end Double

end ErrorBars
