import ErrorBars.Expr.Evaluate
import ErrorBars.Numeric.Roots

/-!
# Numbers among the expressions

Sums, products and comparisons of the expressions that are numbers: exact rationals, approximate
numbers, the two infinities and the undefined value.  As soon as one operand is approximate so is
the result, with the larger of the precisions; an approximate result that is zero becomes the exact
zero.
-/

set_option autoImplicit false

namespace ErrorBars.Expr

/-- An approximate number; zero is exact. -/
def approx (x : Binary) (bits : Nat) : Expr := if x.isZero then zero else .float (x.round bits) bits

/-- The value of a number at some precision. -/
def toExtended (bits : Nat) : Expr → Extended
  | .rat q => .number (Binary.ofRat bits q)
  | .float x _ => .number x
  | .const .infinity => .infinite false
  | .const .negInfinity => .infinite true
  | _ => .undefined

/-- The number with a value. -/
def ofExtended (bits : Nat) : Extended → Expr
  | .number x => approx x bits
  | .infinite s => .const (if s then .negInfinity else .infinity)
  | .undefined => undefined

/-- The precision of an approximate number, and nothing for an exact one. -/
def precision : Expr → Nat
  | .float _ bits => bits
  | _ => 0

/-- Applies an operation on values at the larger of two precisions. -/
def combineNumbers (op : Nat → Extended → Extended → Extended) (a b : Expr) : Expr :=
  let bits := max 2 (max a.precision b.precision)
  ofExtended bits (op bits (a.toExtended bits) (b.toExtended bits))

/-- The sum of two numbers. -/
def addNumbers (a b : Expr) : Expr :=
  match a, b with
  | .rat p, .rat q => .rat (p + q)
  | a, b => combineNumbers Extended.add a b

/-- The product of two numbers. -/
def mulNumbers (a b : Expr) : Expr :=
  match a, b with
  | .rat p, .rat q => .rat (p * q)
  | a, b => combineNumbers Extended.mul a b

/-- The sum of several numbers. -/
def sumNumbers (ns : List Expr) : Expr :=
  match ns with
  | [] => zero
  | n :: rest => rest.foldl addNumbers n

/-- A number with its sign changed. -/
def negNumber : Expr → Expr
  | .rat q => .rat (-q)
  | .float x bits => .float x.neg bits
  | .const .infinity => .const .negInfinity
  | .const .negInfinity => .const .infinity
  | e => e

/-- Whether a number is below zero. -/
def isNegativeNumber : Expr → Bool
  | .rat q => q < 0
  | .float x _ => x.isNegative
  | .const .negInfinity => true
  | _ => false

/-- Whether a number is above zero. -/
def isPositiveNumber : Expr → Bool
  | .rat q => 0 < q
  | .float x _ => !x.isNegative && !x.isZero
  | .const .infinity => true
  | _ => false

/-- The absolute value of a number. -/
def absNumber (e : Expr) : Expr := if e.isNegativeNumber then negNumber e else e

/-- The exact value of a finite number. -/
def exactNumber? : Expr → Option Rat
  | .rat q => some q
  | .float x _ => if x.exponent.natAbs ≤ 20000 then some x.toRat else none
  | _ => none

/-- Whether one number is less than another. -/
def lessNumber (a b : Expr) : Bool :=
  match a, b with
  | .rat p, .rat q => p < q
  | a, b =>
    match a.toExtended 200, b.toExtended 200 with
    | .number x, .number y => x.lt y
    | .infinite s, .infinite t => s && !t
    | .infinite s, .number _ => s
    | .number _, .infinite s => !s
    | _, _ => false

/-- The quotient of two finite numbers, the second not zero. -/
def divNumbers (a b : Expr) : Expr :=
  match a, b with
  | .rat p, .rat q => .rat (p / q)
  | a, b =>
    let bits := max 2 (max a.precision b.precision)
    match a.toExtended bits, b.toExtended bits with
    | .number x, .number y => approx (Binary.div bits x y) bits
    | _, _ => undefined

/-- The bits that a decimal digit is worth, as a numerator over `digitScale`. -/
def digitBits : Nat := 33219280948873623478703

/-- The denominator of the worth of a decimal digit. -/
def digitScale : Nat := 10000000000000000000000

/-- The bits that correspond to a number of decimal digits. -/
def bitsOfDigits (digits : Nat) : Nat :=
  ((digits + 1) * digitBits + digitScale / 2) / digitScale

/-- The decimal digits that a number of bits is worth. -/
def digitsOfBits (bits : Nat) : Nat :=
  max 1 ((bits * digitScale + digitBits / 2) / digitBits - 1)

end ErrorBars.Expr
