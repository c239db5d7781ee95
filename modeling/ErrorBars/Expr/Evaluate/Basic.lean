import ErrorBars.Expr.Basic
import ErrorBars.Numeric.Extended

/-!
# Results of an evaluation

An expression is evaluated to a wanted number of bits.  Each part of a result carries the number of
bits that can be trusted.

An exact zero is told apart from a zero that stands for a double: the former has no part at all.
That is what decides whether a division by it fails or gives an infinity without direction.

A function that has no value somewhere mostly yields an infinity or stays as it is.  A few refuse
such arguments, both when a formula is read and when it is evaluated (`ArgumentFault`).
-/

set_option autoImplicit false

namespace ErrorBars

/-- A real or an imaginary part, with the number of its bits that can be trusted. -/
structure Part where
  /-- the value -/
  value : Extended
  /-- the accurate bits -/
  accuracy : Int
  deriving Repr

/-- The result of an evaluation.  A part that is exactly zero is absent. -/
inductive Evaluated where
  /-- infinity without a direction -/
  | complexInfinity
  /-- a real and an imaginary part -/
  | parts (re im : Option Part)
  deriving Repr

/-- Why a function refuses its arguments. -/
inductive ArgumentFault where
  /-- a double factorial of a number that is neither a natural number nor odd -/
  | noDoubleFactorial
  /-- a factorial of an approximate negative whole number -/
  | gammaPole
  /-- the largest or smallest of numbers one of which is not real -/
  | notComparable (e : Expr)
  /-- a step or a pulse at a number that is not real -/
  | notOnLine (e : Expr)
  /-- a remainder of a division by zero -/
  | divisionByZero

/-- Why an evaluation has no result. -/
inductive EvalFault where
  /-- a double that is zero stands under a negative power -/
  | divisionByZero
  /-- a variable has no value, or a function cannot be evaluated -/
  | unsupported
  /-- an integer part is wanted although a variable has a value that is not whole -/
  | unsettledInteger
  /-- an integer part of infinity without direction is wanted -/
  | infiniteInteger
  /-- a function refuses its arguments -/
  | refused (fault : ArgumentFault)

/-- Evaluates to a number of bits, under a limit for the precision of sums. -/
abbrev Evaluator := (bits : Nat) → (limit : Nat) → Except EvalFault Evaluated

namespace Evaluated

/-- Exactly zero. -/
def zero : Evaluated := .parts none none

/-- A real number. -/
def real (bits : Nat) (x : Extended) : Evaluated := .parts (some ⟨x, bits⟩) none

/-- A purely imaginary number. -/
def imaginary (bits : Nat) (x : Extended) : Evaluated := .parts none (some ⟨x, bits⟩)

/-- A value that does not exist. -/
def undefined (bits : Nat) : Evaluated := real bits .undefined

/-- The real part of a result that is not infinite without direction. -/
def re? : Evaluated → Option Part
  | .complexInfinity => none
  | .parts re _ => re

/-- The imaginary part of a result that is not infinite without direction. -/
def im? : Evaluated → Option Part
  | .complexInfinity => none
  | .parts _ im => im

/-- The value of a part; an absent one is zero. -/
def valueOr : Option Part → Extended
  | some p => p.value
  | none => .zero

/-- Both parts of a complex number as values. -/
def values : Evaluated → Extended × Extended
  | .complexInfinity => (.undefined, .undefined)
  | .parts re im => (valueOr re, valueOr im)

/-- The accuracy beyond all precisions, that of an exact zero. -/
def exactAccuracy : Int := 1000000000

/-- The number of accurate bits of a complex number as a whole. -/
def accuracy : Evaluated → Int
  | .complexInfinity => exactAccuracy
  | .parts none none => exactAccuracy
  | .parts (some re) none => re.accuracy
  | .parts none (some im) => im.accuracy
  | .parts (some re) (some im) =>
    let a := re.value.magnitude
    let b := im.value.magnitude
    max a b - max (a - re.accuracy) (b - im.accuracy)

/-- A complex number whose parts were computed together: the smaller part has lost the bits by which
it is smaller. -/
def ofComplex (bits : Nat) (re im : Extended) : Evaluated :=
  if re.isZero ∧ im.isZero then zero
  else if re.isZero then imaginary bits im
  else if im.isZero then real bits re
  else
    let a := re.magnitude
    let b := im.magnitude
    if b < a then .parts (some ⟨re, bits⟩) (some ⟨im, bits + min (b - a) 0⟩)
    else .parts (some ⟨re, bits + min (a - b) 0⟩) (some ⟨im, bits⟩)

end Evaluated

namespace Evaluation

open Evaluated (valueOr)

/-- Turns a division by zero into a fault. -/
def guarded {α : Type} : Except DivisionByZero α → Except EvalFault α
  | .ok x => .ok x
  | .error _ => .error .divisionByZero

end Evaluation

end ErrorBars
