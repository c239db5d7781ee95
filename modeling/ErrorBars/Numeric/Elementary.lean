import ErrorBars.Numeric.Binary

/-!
# Elementary functions to any precision

Each function takes the number of bits wanted and works in fixed point with some more.  Series are
summed until a term vanishes at the working precision; the number of terms is bounded by that
precision, which is what the recursion counts down.  Where a result can lose bits by cancellation
the working precision is raised until enough of them are left.
-/

set_option autoImplicit false

namespace ErrorBars.Elementary

/-! ## Series in fixed point

All numbers below carry `wp` fractional bits. -/

/-- `arctan (1 / k)`, or `artanh (1 / k)` when `alternate` is off. -/
def inverseSeries (alternate : Bool) (k2 : Int) : Nat → Int → Int → Bool → Int → Int
  | 0, _, _, _, sum => sum
  | fuel + 1, power, n, minus, sum =>
    if power = 0 then sum
    else
      let term := power / n
      inverseSeries alternate k2 fuel (power / k2) (n + 2) (alternate != minus)
        (if minus && alternate then sum - term else sum + term)

/-- `arctan (1 / k)` in fixed point. -/
def arctanInverse (wp k : Nat) : Int :=
  let p : Int := ((1 <<< wp : Nat) : Int) / (k : Int)
  inverseSeries true ((k * k : Nat) : Int) (wp + 2) p 1 false 0

/-- `artanh (1 / k)` in fixed point. -/
def artanhInverse (wp k : Nat) : Int :=
  let p : Int := ((1 <<< wp : Nat) : Int) / (k : Int)
  inverseSeries false ((k * k : Nat) : Int) (wp + 2) p 1 false 0

/-- `π` in fixed point. -/
def piFixed (wp : Nat) : Int :=
  let w := wp + 16
  (4 * (4 * arctanInverse w 5 - arctanInverse w 239)) / 2 ^ (16 : Nat)

/-- The natural logarithm of two in fixed point. -/
def ln2Fixed (wp : Nat) : Int :=
  let w := wp + 16
  (18 * artanhInverse w 26 - 2 * artanhInverse w 4801 + 8 * artanhInverse w 8749) / 2 ^ (16 : Nat)

/-- The exponential series of `x`. -/
def expSeries (wp : Nat) (x : Int) : Nat → Int → Int → Int → Int
  | 0, _, _, sum => sum
  | fuel + 1, term, n, sum =>
    if term = 0 then sum
    else
      let next := (term * x) / (2 ^ wp * n)
      expSeries wp x fuel next (n + 1) (sum + term)

/-- Squares a fixed point number repeatedly. -/
def squareTimes (wp : Nat) : Nat → Int → Int
  | 0, x => x
  | k + 1, x => squareTimes wp k ((x * x) / 2 ^ wp)

/-- The exponential of `0 ≤ x < 1` in fixed point: the argument is halved a few times first. -/
def expFixed (wp : Nat) (x : Int) : Int :=
  let halvings := Nat.sqrt wp / 2 + 2
  let w := wp + 2 * halvings + 8
  let r := (x * 2 ^ (w - wp)) / 2 ^ halvings
  let one : Int := (1 <<< w : Nat)
  squareTimes w halvings (expSeries w r (w + 2) one 1 0) / 2 ^ (w - wp)

/-- The sum `term - term · x² / (n (n + 1)) + …` of the sine and cosine series. -/
def circularSeries (wp : Nat) (x2 : Int) : Nat → Int → Int → Int → Int
  | 0, _, _, sum => sum
  | fuel + 1, term, n, sum =>
    if term = 0 then sum
    else
      let next := -((term * x2) / (2 ^ wp * (n * (n + 1))))
      circularSeries wp x2 fuel next (n + 2) (sum + term)

/-- Sine and cosine of `|x| ≤ 1` in fixed point. -/
def sinCosFixed (wp : Nat) (x : Int) : Int × Int :=
  let x2 := (x * x) / 2 ^ wp
  (circularSeries wp x2 (wp + 2) x 2 0, circularSeries wp x2 (wp + 2) ((1 <<< wp : Nat) : Int) 1 0)

/-- The sum `power / n ∓ power · x² / (n + 2) …`. -/
def oddSeries (wp : Nat) (alternate : Bool) (x2 : Int) : Nat → Int → Int → Int → Int
  | 0, _, _, sum => sum
  | fuel + 1, power, n, sum =>
    if power = 0 then sum
    else
      let next := (power * x2) / 2 ^ wp
      oddSeries wp alternate x2 fuel (if alternate then -next else next) (n + 2) (sum + power / n)

/-- Halves the angle whose tangent is given. -/
def halveAngle (wp : Nat) : Nat → Int → Int
  | 0, t => t
  | k + 1, t =>
    let one : Int := (1 <<< wp : Nat)
    let root : Int := (Nat.sqrt ((one * one + t * t).natAbs) : Nat)
    halveAngle wp k ((t * one) / (one + root))

/-- `arctan x` of `0 ≤ x ≤ 1` in fixed point. -/
def arctanFixed (wp : Nat) (x : Int) : Int :=
  let halvings := Nat.sqrt wp / 3 + 2
  let w := wp + halvings + 8
  let t := halveAngle w halvings (x * 2 ^ (w - wp))
  oddSeries w true ((t * t) / 2 ^ w) (w + 2) t 1 0 * 2 ^ halvings / 2 ^ (w - wp)

/-- Takes square roots of a fixed point number repeatedly. -/
def rootTimes (wp : Nat) : Nat → Int → Int
  | 0, x => x
  | k + 1, x => rootTimes wp k (Nat.sqrt (x.natAbs <<< wp) : Nat)

/-- The logarithm of `1 ≤ x < 2` in fixed point. -/
def lnFixed (wp : Nat) (x : Int) : Int :=
  let roots := Nat.sqrt wp / 2 + 2
  let w := wp + 2 * roots + 8
  let r := rootTimes w roots (x * 2 ^ (w - wp))
  let one : Int := (1 <<< w : Nat)
  let t := ((r - one) * one) / (r + one)
  2 * oddSeries w false ((t * t) / 2 ^ w) (w + 2) t 1 0 * 2 ^ roots / 2 ^ (w - wp)

/-! ## Constants -/

/-- `π`. -/
def pi (bits : Nat) : Binary := (Binary.ofFixed (bits + 8) (piFixed (bits + 8))).round bits

/-- The natural logarithm of two. -/
def ln2 (bits : Nat) : Binary := (Binary.ofFixed (bits + 8) (ln2Fixed (bits + 8))).round bits

/-! ## Functions of one number -/

/-- Arguments beyond this size have an exponential whose exponent cannot be written out. -/
def expLimit : Int := 2 ^ (16 : Nat)

/-- The exponential.  Beyond the limit only its size, of an overflow or an underflow, is kept. -/
def exp (bits : Nat) (x : Binary) : Binary :=
  if x.isZero then Binary.one
  else if x.magnitude < -(bits : Int) - 4 then (Binary.one.add x).round bits
  else if expLimit < x.magnitude then
    ⟨1, if x.isNegative then -(2 ^ (65536 : Nat)) else 2 ^ (65536 : Nat)⟩
  else
    let wp := bits + 12 + x.magnitude.toNat
    let t := x.toFixed wp
    let l := ln2Fixed wp
    let n := Int.fdiv t l
    let r := t - n * l
    ((Binary.ofFixed wp (expFixed wp r)).scale n).round bits

/-- The natural logarithm of a positive number.  Near one the working precision grows by the number
of bits that cancel. -/
def log (bits : Nat) (x : Binary) : Binary :=
  if x.mantissa ≤ 0 then Binary.zero
  else
    let near := x.magnitude.natAbs ≤ 2
    let d := if near then x.sub Binary.one else x
    if d.isZero then Binary.zero
    else
      let lost := if near then (-d.magnitude).toNat else 0
      let n := x.magnitude - 1
      let wp := bits + 12 + lost + bitLength n.natAbs
      let m := (x.scale (-n)).toFixed wp
      if n = -1 then
        -- just below one: the logarithm of the reciprocal, with the other sign
        let one : Int := (1 <<< wp : Nat)
        let y := (one * one) / x.toFixed wp
        (Binary.ofFixed wp (lnFixed wp y)).neg.round bits
      else (Binary.ofFixed wp (lnFixed wp m + n * ln2Fixed wp)).round bits

/-- The quadrant of an angle, modulo four, and the sine and cosine of what remains, with `wp`
fractional bits.  What remains is at most an eighth of a turn, of either sign. -/
def reduced (wp : Nat) (x : Binary) : Int × Int × Int :=
  let big := wp + x.magnitude.toNat + 4
  let half := piFixed big / 2
  let t := x.toFixed big
  let n := Int.fdiv (t + half / 2) half
  let r := (t - n * half) / 2 ^ (big - wp)
  let (s, c) := sinCosFixed wp r
  (n % 4, s, c)

/-- Sine and cosine at a working precision. -/
def sinCosAt (wp : Nat) (x : Binary) : Int × Int :=
  let (n, s, c) := reduced wp x
  if n = 0 then (s, c)
  else if n = 1 then (c, -s)
  else if n = 2 then (-s, -c)
  else (-c, s)

/-- Raises the working precision until the value found keeps `bits` significant bits. -/
def settle (value : Nat → Int) (bits : Nat) : Nat → Nat → Binary
  | 0, wp => (Binary.ofFixed wp (value wp)).round bits
  | fuel + 1, wp =>
    let v := value wp
    if bits + 8 ≤ bitLength v.natAbs then (Binary.ofFixed wp v).round bits
    else settle value bits fuel (2 * wp)

/-- Arguments beyond this size have no circular functions here: their reduction would need more
digits of `π` than can be written out. -/
def angleLimit : Int := 100000

/-- Sine. -/
def sin (bits : Nat) (x : Binary) : Binary :=
  if x.isZero ∨ angleLimit < x.magnitude then Binary.zero
  else if 2 * x.magnitude < -(bits : Int) - 8 then x.round bits
  else settle (fun wp => (sinCosAt wp x).1) bits 8 (bits + 12 + (-x.magnitude).toNat)

/-- Cosine. -/
def cos (bits : Nat) (x : Binary) : Binary :=
  if x.isZero ∨ angleLimit < x.magnitude then Binary.one
  else settle (fun wp => (sinCosAt wp x).2) bits 8 (bits + 12)

/-- Tangent. -/
def tan (bits : Nat) (x : Binary) : Binary :=
  Binary.div bits (sin (bits + 8) x) (cos (bits + 8) x)

/-- Arc tangent. -/
def arctan (bits : Nat) (x : Binary) : Binary :=
  if x.isZero then Binary.zero
  else if 2 * x.magnitude < -(bits : Int) - 8 then x.round bits
  else
    let a := x.abs
    let wp := bits + 12 + (-a.magnitude).toNat
    let v : Int :=
      if a.magnitude ≤ 0 then arctanFixed wp (a.toFixed wp)
      else piFixed wp / 2 - arctanFixed wp ((Binary.div (wp + 4) Binary.one a).toFixed wp)
    (Binary.ofFixed wp (if x.isNegative then -v else v)).round bits

/-- The angle of the point `(x, y)`. -/
def arctan2 (bits : Nat) (y x : Binary) : Binary :=
  if x.isZero then
    if y.isZero then Binary.zero
    else
      let h := (pi (bits + 4)).scale (-1)
      (if y.isNegative then h.neg else h).round bits
  else
    let base := arctan (bits + 8) (Binary.div (bits + 8) y x)
    if x.isNegative then
      let p := pi (bits + 8)
      (if y.isNegative then base.sub p else base.add p).round bits
    else base.round bits

/-- `x ^ y` for positive `x`: the exponential of `y · log x`, with the bits that the product's
size costs. -/
def power (bits : Nat) (x y : Binary) : Binary :=
  if y.isInteger && y.magnitude ≤ 20 then Binary.powInt bits x y.floor
  else
    let l := log (bits + 8) x
    let size := (l.magnitude + y.magnitude).toNat
    let wp := bits + 12 + size
    exp bits ((log wp x).mul y)

/-- Hyperbolic sine. -/
def sinh (bits : Nat) (x : Binary) : Binary :=
  if x.isZero then Binary.zero
  else
    let wp := bits + 12 + 2 * (-x.magnitude).toNat
    let e := exp wp x
    ((Binary.addTo wp e (Binary.div wp Binary.one e).neg).scale (-1)).round bits

/-- Hyperbolic cosine. -/
def cosh (bits : Nat) (x : Binary) : Binary :=
  let wp := bits + 12
  let e := exp wp x
  ((Binary.addTo wp e (Binary.div wp Binary.one e)).scale (-1)).round bits

/-- Hyperbolic tangent. -/
def tanh (bits : Nat) (x : Binary) : Binary :=
  if x.isZero then Binary.zero
  else if 16 < x.magnitude then (if x.isNegative then Binary.one.neg else Binary.one)
  else
    let wp := bits + 12 + 2 * (-x.magnitude).toNat
    let e := exp wp (x.scale 1)
    Binary.div bits (e.sub Binary.one) (e.add Binary.one)

/-- Arc sine of a number of magnitude at most one. -/
def arcsin (bits : Nat) (x : Binary) : Binary :=
  let wp := bits + 12 + 2 * (-x.magnitude).toNat
  let rest := (Binary.one.sub x).mul (Binary.one.add x)
  if rest.isZero then
    let h := (pi bits).scale (-1)
    if x.isNegative then h.neg else h
  else arctan bits (Binary.div wp x (Binary.sqrt wp rest))

/-- Arc cosine of a number of magnitude at most one. -/
def arccos (bits : Nat) (x : Binary) : Binary :=
  let rest := (Binary.one.sub x).mul (Binary.one.add x)
  if rest.isZero then (if x.isNegative then pi bits else Binary.zero)
  else arctan2 bits (Binary.sqrt (bits + 12) rest) x

/-- Inverse hyperbolic sine. -/
def arsinh (bits : Nat) (x : Binary) : Binary :=
  if x.isZero then Binary.zero
  else
    let a := x.abs
    let wp := bits + 16 + 2 * (-a.magnitude).toNat
    let v := log bits (Binary.addTo wp a (Binary.sqrt wp (Binary.addTo wp (a.mul a) Binary.one)))
    if x.isNegative then v.neg else v

/-- Inverse hyperbolic cosine of a number not below one. -/
def arcosh (bits : Nat) (x : Binary) : Binary :=
  let d := x.sub Binary.one
  if d.isZero then Binary.zero
  else
    let wp := bits + 16 + 2 * (-d.magnitude).toNat
    log bits (Binary.addTo wp x (Binary.sqrt wp (d.mul (Binary.addTo wp x Binary.one))))

/-- Inverse hyperbolic tangent of a number of magnitude below one. -/
def artanh (bits : Nat) (x : Binary) : Binary :=
  if x.isZero then Binary.zero
  else
    let wp := bits + 16 + 2 * (-x.magnitude).toNat
    (log bits (Binary.div wp (Binary.one.add x) (Binary.one.sub x))).scale (-1)

end ErrorBars.Elementary
