import ErrorBars.Numeric.Decimal

/-!
# Numbers as they are given

A measurement or a derivative may be given as a whole number of any size, as a fraction or as a
double.  Whole numbers and fractions multiply exactly; as soon as a double is involved the other
factor becomes a double too, which it may be too large for.
-/

set_option autoImplicit false

namespace ErrorBars

/-- A real number in one of the forms in which it can be given. -/
inductive Number where
  /-- a whole number -/
  | int (n : Int)
  /-- a fraction -/
  | fraction (q : Rat)
  /-- a double -/
  | float (x : Double)
  deriving DecidableEq

namespace Number

/-- The number as a double; `none` if it is too large for one. -/
def toDouble? : Number → Option Double
  | .int n => Double.ofInt? n
  | .fraction q => Double.ofRat? q
  | .float x => some x

/-- Whether the number is below zero. -/
def isNegative : Number → Bool
  | .int n => n < 0
  | .fraction q => q.num < 0
  | .float x => x.isNegative

/-- Product; `none` if a factor is too large to be multiplied as a double. -/
def mul? : Number → Number → Option Number
  | .int m, .int n => some (.int (m * n))
  | .int m, .fraction q => some (.fraction (m * q))
  | .fraction p, .int n => some (.fraction (p * n))
  | .fraction p, .fraction q => some (.fraction (p * q))
  | .float x, y => (toDouble? y).map fun y => .float (x * y)
  | x, .float y => (toDouble? x).map fun x => .float (x * y)

end Number

end ErrorBars
