import ErrorBars.Expr.Number
import ErrorBars.Numeric.Decimal

/-!
# The text of numbers

Rational numbers are written as quotients.  Approximate numbers are written with as many significant
digits as their precision is worth, a half rounded up; numbers of moderate size without an exponent.
Inside a larger expression zeros at the end are left out.
-/

set_option autoImplicit false

namespace ErrorBars.Expr

/-- The text of a rational number. -/
def rationalText (q : Rat) : String :=
  if q.den = 1 then toString q.num else toString q.num ++ "/" ++ toString q.den

/-- A positive ratio rounded to a count of significant digits, a half up: the digits, and the place
of the first of them. -/
def roundedDigits (n d count : Nat) : Nat × Int :=
  let place := Decimal.firstPlace n d
  let (a, b) := Decimal.scaleTen n d ((count : Int) - 1 - place)
  let digits := (2 * a + b) / (2 * b)
  if digits = 10 ^ count then (10 ^ (count - 1), place + 1) else (digits, place)

/-- Removes zeros at the end, but keeps one digit after the point. -/
def stripZeros (cs : List Char) : List Char :=
  let kept := (cs.reverse.dropWhile (· == '0')).reverse
  if kept.getLast? = some '.' then kept ++ ['0'] else kept

/-- Lays out digits around the point.  The first digit stands in the given place. -/
def layout (strip : Bool) (digits : List Char) (count : Nat) (place : Int) : String :=
  let low : Int := min (-((count / 3 : Nat) : Int)) (-5)
  let fixed := low < place ∧ place < count
  let digits := if fixed ∧ place < 0 then List.replicate (-place).toNat '0' ++ digits else digits
  let split := if fixed ∧ 0 ≤ place then place.toNat + 1 else 1
  let digits := digits ++ List.replicate (split - digits.length) '0'
  let body := digits.take split ++ '.' :: digits.drop split
  let body := String.ofList (if strip then stripZeros body else body)
  if fixed then body
  else if place < 0 then body ++ "e" ++ toString place
  else body ++ "e+" ++ toString place

/-- The text of an approximate number. -/
def floatText (strip : Bool) (x : Binary) (bits : Nat) : String :=
  if x.isZero then "0.0"
  else
    let count := digitsOfBits bits
    let (n, d) := if 0 ≤ x.exponent then (x.mantissa.natAbs * 2 ^ x.exponent.toNat, 1)
      else (x.mantissa.natAbs, 2 ^ (-x.exponent).toNat)
    let (digits, place) := roundedDigits n d count
    (if x.isNegative then "-" else "") ++ layout strip (Nat.toDigits 10 digits) count place

/-- The text of a number. -/
def numberText (strip : Bool) : Expr → String
  | .rat q => rationalText q
  | .float x bits => floatText strip x bits
  | .const .infinity => "oo"
  | .const .negInfinity => "-oo"
  | _ => "nan"

end ErrorBars.Expr
