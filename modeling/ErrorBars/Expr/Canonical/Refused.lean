import ErrorBars.Expr.Facts

/-!
# Refused arguments

`Canonical.refused?` is what a function has against its arguments, if it refuses them.
-/

set_option autoImplicit false

namespace ErrorBars.Canonical

/-- Whether a number has no double factorial. -/
def lacksDoubleFactorial (e : Expr) : Bool :=
  match e.int? with
  | some n => n < 0 && n % 2 = 0
  | none => e.isNumber

/-- Whether an approximate number is a negative whole number. -/
def isApproximatePole (e : Expr) : Bool :=
  match e with
  | .float x _ => x.isInteger && x.isNegative
  | _ => false

/-- Whether an argument can be put in order with others. -/
def isComparable (e : Expr) : Bool :=
  !(e.facts.real == some false) && !(e == Expr.undefined) && !(e == Expr.complexInfinity)

/-- Whether a number is known not to lie on the real line. -/
def isOffLine (e : Expr) : Bool :=
  e.isConstant && e.facts.real == some false && !e.isInfinite

/-- Why a function refuses its arguments. -/
def refused? (f : Func) (args : List Expr) : Option ArgumentFault :=
  match f, args with
  | .factorial2, [x] => if lacksDoubleFactorial x then some .noDoubleFactorial else none
  | .factorial, [x] => if isApproximatePole x then some .gammaPole else none
  | .max, xs | .min, xs => (xs.find? fun x => !isComparable x).map .notComparable
  | .heaviside, x :: _ | .dirac, x :: _ => if isOffLine x then some (.notOnLine x) else none
  | .modulo, [_, q] => if q.isZero then some .divisionByZero else none
  | _, _ => none

end ErrorBars.Canonical
