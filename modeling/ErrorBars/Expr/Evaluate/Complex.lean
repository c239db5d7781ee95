import ErrorBars.Expr.Evaluate.Basic

/-!
# Complex numbers of any precision

Arithmetic, roots, exponentials and logarithms of numbers given by their two parts, and what follows
from them: the circular and hyperbolic functions and their inverses.
-/

set_option autoImplicit false

namespace ErrorBars.Evaluation

/-- A complex value as its two parts. -/
abbrev Pair := Extended × Extended

/-- Complex product. -/
def mulPair (bits : Nat) (x y : Pair) : Pair :=
  ((Extended.mul bits x.1 y.1).add bits (Extended.mul bits x.2 y.2).neg,
   (Extended.mul bits x.1 y.2).add bits (Extended.mul bits x.2 y.1))

/-- The square of the absolute value. -/
def normSquare (bits : Nat) (x : Pair) : Extended :=
  (Extended.mul bits x.1 x.1).add bits (Extended.mul bits x.2 x.2)

/-- The absolute value. -/
def absPair (bits : Nat) (x : Pair) : Extended := (normSquare (bits + 10) x).sqrt bits

/-- Complex reciprocal. -/
def inversePair (bits : Nat) (x : Pair) : Except DivisionByZero Pair := do
  let n ← (normSquare (bits + 10) x).inverse (bits + 10)
  return (Extended.mul bits x.1 n, (Extended.mul bits x.2 n).neg)

/-- Complex power with a natural exponent. -/
def powNatPair (bits : Nat) (x : Pair) (n : Nat) : Pair :=
  if n = 0 then (.one, .zero)
  else
    let half := powNatPair bits x (n / 2)
    let square := mulPair bits half half
    if n % 2 = 0 then square else mulPair bits square x
termination_by n
decreasing_by omega

/-- Complex power with an integer exponent. -/
def powIntPair (bits : Nat) (x : Pair) (n : Int) : Except DivisionByZero Pair :=
  let wide := bits + 2 * bitLength n.natAbs + 10
  let p := powNatPair wide x n.natAbs
  if 0 ≤ n then .ok p else inversePair wide p

/-- Complex exponential. -/
def expPair (bits : Nat) (x : Pair) : Pair :=
  match x with
  | (re, .number y) =>
    let size := Extended.exp (bits + 8) re
    (Extended.mul bits size (.number (Elementary.cos (bits + 8) y)),
     Extended.mul bits size (.number (Elementary.sin (bits + 8) y)))
  | _ => (.undefined, .undefined)

/-- Complex logarithm. -/
def logPair (bits : Nat) (x : Pair) : Pair :=
  (Extended.log bits (absPair (bits + 20) x), Extended.arctan2 bits x.2 x.1)

/-- Complex square root, with a real part that is not negative. -/
def sqrtPair (bits : Nat) (x : Pair) : Pair :=
  let wp := bits + 20
  let two : Extended := .number ⟨1, -1⟩
  if x.2.isZero then
    if x.1.isNegative then (.zero, x.1.abs.sqrt bits) else (x.1.sqrt bits, .zero)
  else
    let r := absPair wp x
    let a := (Extended.mul wp (r.add wp x.1) two).sqrt bits
    let b := (Extended.mul wp (r.add wp x.1.neg) two).sqrt bits
    (a, if x.2.isNegative then b.neg else b)

/-- Complex power with a real exponent. -/
def powRealPair (bits : Nat) (x : Pair) (y : Extended) : Except DivisionByZero Pair :=
  let general : Pair := expPair bits (mulPair (bits + 10) (logPair (bits + 10) x) (y, .zero))
  match y with
  | .number e =>
    match Extended.halves? e with
    | some h =>
      if 2 ^ (40 : Nat) ≤ h.natAbs then .ok general
      else if h % 2 = 0 then powIntPair bits x (h / 2)
      else powIntPair bits (sqrtPair (bits + 10) x) h
    | none => .ok general
  | _ => .ok general

/-! ## Functions -/

/-- Sum of two complex numbers. -/
def addPair (bits : Nat) (x y : Pair) : Pair := (x.1.add bits y.1, x.2.add bits y.2)

/-- Change of sign. -/
def negPair (x : Pair) : Pair := (x.1.neg, x.2.neg)

/-- Multiplication by the imaginary unit. -/
def timesI (x : Pair) : Pair := (x.2.neg, x.1)

/-- Half of a complex number. -/
def halfPair (bits : Nat) (x : Pair) : Pair :=
  let half : Extended := .number ⟨1, -1⟩
  (Extended.mul bits x.1 half, Extended.mul bits x.2 half)

/-- One. -/
def onePair : Pair := (.one, .zero)

/-- Quotient of two complex numbers. -/
def divPair (bits : Nat) (x y : Pair) : Except DivisionByZero Pair := do
  return mulPair bits x (← inversePair bits y)

/-- Sine or cosine of a complex number. -/
def circularPair (wantCosine : Bool) (bits : Nat) (x : Pair) : Pair :=
  match x with
  | (.number a, .number b) =>
    let wp := bits + 10
    let (s, c) := (Elementary.sin wp a, Elementary.cos wp a)
    let (sh, ch) := (Elementary.sinh wp b, Elementary.cosh wp b)
    if wantCosine then (.number ((c.mul ch).round bits), .number ((s.mul sh).neg.round bits))
    else (.number ((s.mul ch).round bits), .number ((c.mul sh).round bits))
  | _ => (.undefined, .undefined)

/-- Hyperbolic sine or cosine of a complex number: a circular one of the number times the imaginary
unit. -/
def hyperbolicPair (wantCosine : Bool) (bits : Nat) (x : Pair) : Pair :=
  let v := circularPair wantCosine bits (timesI x)
  if wantCosine then v else negPair (timesI v)

/-- Arc sine of a complex number. -/
def arcsinPair (bits : Nat) (x : Pair) : Pair :=
  let wp := bits + 20
  let rest := sqrtPair wp (addPair wp onePair (negPair (mulPair wp x x)))
  negPair (timesI (logPair wp (addPair wp (timesI x) rest)))

/-- Arc tangent of a complex number. -/
def arctanPair (bits : Nat) (x : Pair) : Pair :=
  let wp := bits + 20
  let y := timesI x
  let below := logPair wp (addPair wp onePair (negPair y))
  let above := logPair wp (addPair wp onePair y)
  halfPair wp (timesI (addPair wp below (negPair above)))

/-- Inverse hyperbolic cosine of a complex number. -/
def arcoshPair (bits : Nat) (x : Pair) : Pair :=
  let wp := bits + 20
  let low := sqrtPair wp (addPair wp x (negPair onePair))
  let high := sqrtPair wp (addPair wp x onePair)
  logPair wp (addPair wp x (mulPair wp low high))

end ErrorBars.Evaluation
