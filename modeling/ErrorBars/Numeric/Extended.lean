import ErrorBars.Numeric.Special

/-!
# Binary numbers with infinities

The values that an evaluation works with: a binary number, one of the two infinities, or no value at
all.  Division by an exact zero is the only operation that fails; everything else that has no value
yields `undefined`.
-/

set_option autoImplicit false

namespace ErrorBars

/-- A binary number, an infinity, or no value. -/
inductive Extended where
  /-- a number -/
  | number (x : Binary)
  /-- plus or minus infinity -/
  | infinite (negative : Bool)
  /-- no value -/
  | undefined
  deriving DecidableEq, Repr

/-- A division by an exact zero. -/
inductive DivisionByZero where
  | divisionByZero
  deriving DecidableEq, Repr

namespace Extended

instance : Inhabited Extended := ⟨.undefined⟩

/-- Zero. -/
def zero : Extended := .number Binary.zero

/-- One. -/
def one : Extended := .number Binary.one

/-- Whether the value is the number zero. -/
def isZero : Extended → Bool
  | .number x => x.isZero
  | _ => false

/-- Whether the value is a number. -/
def isNumber : Extended → Bool
  | .number _ => true
  | _ => false

/-- Whether the value is below zero. -/
def isNegative : Extended → Bool
  | .number x => x.isNegative
  | .infinite s => s
  | .undefined => false

/-- The place above the first bit; very small for zero, and zero for what is not a number. -/
def magnitude : Extended → Int
  | .number x => if x.isZero then -1000000000 else x.magnitude
  | _ => 0

/-- Change of sign. -/
def neg : Extended → Extended
  | .number x => .number x.neg
  | .infinite s => .infinite (!s)
  | .undefined => .undefined

/-- Absolute value. -/
def abs : Extended → Extended
  | .number x => .number x.abs
  | .infinite _ => .infinite false
  | .undefined => .undefined

/-- Cuts a number to the given bits. -/
def round (bits : Nat) : Extended → Extended
  | .number x => .number (x.round bits)
  | x => x

/-- Sum; opposite infinities have none. -/
def add (bits : Nat) : Extended → Extended → Extended
  | .undefined, _ => .undefined
  | _, .undefined => .undefined
  | .infinite a, .infinite b => if a = b then .infinite a else .undefined
  | .infinite a, _ => .infinite a
  | _, .infinite b => .infinite b
  | .number x, .number y => .number (x.addTo bits y)

/-- Product; zero times an infinity has none. -/
def mul (bits : Nat) : Extended → Extended → Extended
  | .undefined, _ => .undefined
  | _, .undefined => .undefined
  | .infinite a, .infinite b => .infinite (a != b)
  | .infinite a, .number y => if y.isZero then .undefined else .infinite (a != y.isNegative)
  | .number x, .infinite b => if x.isZero then .undefined else .infinite (x.isNegative != b)
  | .number x, .number y => .number ((x.mul y).round bits)

/-- Reciprocal. -/
def inverse (bits : Nat) : Extended → Except DivisionByZero Extended
  | .undefined => .ok .undefined
  | .infinite _ => .ok zero
  | .number x =>
    if x.isZero then .error .divisionByZero else .ok (.number (Binary.div bits Binary.one x))

/-- Power with a natural exponent. -/
def powNat (bits : Nat) (x : Extended) (n : Nat) : Extended :=
  match x with
  | .undefined => .undefined
  | .infinite s => if n = 0 then .undefined else .infinite (s && n % 2 = 1)
  | .number x => .number (Binary.powInt bits x n)

/-- Power with an integer exponent. -/
def powInt (bits : Nat) (x : Extended) (n : Int) : Except DivisionByZero Extended :=
  if 0 ≤ n then .ok (powNat bits x n.toNat) else inverse bits (powNat (bits + 5) x n.natAbs)

/-- Square root of a value that is not negative. -/
def sqrt (bits : Nat) : Extended → Extended
  | .number x => .number (Binary.sqrt bits x)
  | x => x

/-- Exponential. -/
def exp (bits : Nat) : Extended → Extended
  | .number x => .number (Elementary.exp bits x)
  | .infinite s => if s then zero else .infinite false
  | .undefined => .undefined

/-- Logarithm of the absolute value. -/
def log (bits : Nat) : Extended → Extended
  | .number x => if x.isZero then .infinite true else .number (Elementary.log bits x.abs)
  | .infinite _ => .infinite false
  | .undefined => .undefined

/-- A function that has no value at the infinities. -/
def mapNumber (f : Binary → Binary) : Extended → Extended
  | .number x => .number (f x)
  | _ => .undefined

/-- Arc tangent. -/
def arctan (bits : Nat) : Extended → Extended
  | .number x => .number (Elementary.arctan bits x)
  | .infinite s =>
    let half := (Elementary.pi bits).scale (-1)
    .number (if s then half.neg else half)
  | .undefined => .undefined

/-- The angle of the point `(x, y)`. -/
def arctan2 (bits : Nat) : Extended → Extended → Extended
  | .number y, .number x => .number (Elementary.arctan2 bits y x)
  | _, _ => .undefined

/-- The exponent of a power as a whole number of halves, if it is one and not too long to be used
for repeated squaring. -/
def halves? (y : Binary) : Option Int :=
  if y.magnitude ≤ 64 then
    let twice := y.scale 1
    if twice.isInteger then some twice.floor else none
  else none

/-- Power of a base that is not negative with a real exponent.  Whole numbers and whole numbers of
halves are taken by multiplication and square root, which is where a base of zero is noticed; all
other exponents go through the logarithm. -/
def pow (bits : Nat) (x y : Extended) : Except DivisionByZero Extended :=
  match y with
  | .number e =>
    match halves? e with
    | some h =>
      if h % 2 = 0 then
        if h.natAbs < 2 ^ (40 : Nat) then powInt bits x (h / 2) else .ok (general e)
      else if h.natAbs < 2 ^ (40 : Nat) then powInt bits (sqrt (bits + 10) x) h
      else .ok (general e)
    | none => .ok (general e)
  | _ => .ok (exp bits (mul (bits + 10) y (log (bits + 10) x)))
where
  /-- The exponential of the exponent times the logarithm. -/
  general (e : Binary) : Extended :=
    match x with
    | .number b =>
      if b.isZero then exp bits (mul bits (.number e) (.infinite true))
      else .number (Elementary.power bits b e)
    | _ => exp bits (mul bits (.number e) (log bits x))

/-- The double nearest to the value; what is too large is infinite. -/
def toDouble : Extended → Double
  | .number x => x.toDouble
  | .infinite s => .infinite s
  | .undefined => .nan

end Extended

end ErrorBars
