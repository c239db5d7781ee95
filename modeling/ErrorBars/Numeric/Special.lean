import ErrorBars.Numeric.Elementary

/-!
# Gamma and error functions

The gamma function and its logarithmic derivatives come from their asymptotic series, after the
argument has been shifted far enough to the right for the series to be sharp; the error function
from a series whose terms are all of one sign.
-/

set_option autoImplicit false

namespace ErrorBars.Special

open ErrorBars (Binary)

/-- The sum of `C(n + 1, k) · B_k` over the `n` numbers known, computed with the running binomial
coefficient. -/
def bernoulliSum (known : Array Rat) : Rat :=
  let n := known.size
  ((List.range n).foldl (fun (acc : Rat × Nat) k =>
    (acc.1 + acc.2 * known[k]!, acc.2 * (n + 1 - k) / (k + 1))) (0, 1)).1

/-- The next Bernoulli number after `B₀`, …, `B_{n - 1}`: with it the sum above, extended by one
term, vanishes. -/
def nextBernoulli (known : Array Rat) : Rat := -(bernoulliSum known) / (known.size + 1 : Nat)

/-- The factorial. -/
def factorial : Nat → Nat
  | 0 => 1
  | n + 1 => (n + 1) * factorial n

/-- The Bernoulli numbers `B₀`, …, `B_{count - 1}`. -/
def bernoulli : Nat → Array Rat
  | 0 => #[]
  | 1 => #[1]
  | n + 1 =>
    let known := bernoulli n
    known.push (if n % 2 = 1 ∧ 1 < n then 0 else nextBernoulli known)

/-- How far to the right arguments are moved before the asymptotic series is used. -/
def horizon (wp : Nat) : Int := wp / 2 + 10

/-- The number of steps that move `x` beyond the horizon. -/
def stepsFrom (wp : Nat) (x : Binary) : Nat := (horizon wp - x.floor).toNat

/-- `x (x + 1) ⋯ (x + n - 1)`. -/
def rising (wp : Nat) (x : Binary) : Nat → Binary
  | 0 => Binary.one
  | n + 1 => ((rising wp x n).mul (x.add (Binary.ofInt n))).round wp

/-- The sum of `1 / (x + i) ^ power` for `i < n`. -/
def reciprocals (wp power : Nat) (x : Binary) : Nat → Binary
  | 0 => Binary.zero
  | n + 1 =>
    let term := Binary.powInt wp (x.add (Binary.ofInt n)) (-(power : Int))
    ((reciprocals wp power x n).addTo wp term)

/-- The number of terms of an asymptotic series: each gains about twice as many bits as the argument
has before its point, and at the horizon at least six. -/
def termCount (wp : Nat) (z : Binary) : Nat :=
  if 24 < z.magnitude then wp / z.magnitude.toNat + 3 else wp / 6 + 5

/-- `log Γ` of a number beyond the horizon. -/
def logGammaFar (wp : Nat) (z : Binary) : Binary :=
  let count := termCount wp z
  let b := bernoulli (2 * count + 1)
  let main := (z.sub ⟨1, -1⟩).mul (Elementary.log wp z)
  let root := (Elementary.log wp ((Elementary.pi (wp + 4)).scale 1)).scale (-1)
  let z2 := (Binary.div wp Binary.one z).mul (Binary.div wp Binary.one z) |>.round wp
  let series := (List.range count).foldl (fun (acc : Binary × Binary) i =>
      let k := i + 1
      let c := b[2 * k]! / ((2 * k) * (2 * k - 1) : Nat)
      (acc.1.addTo wp ((Binary.ofRat wp c).mul acc.2), (acc.2.mul z2).round wp))
    (Binary.zero, Binary.div wp Binary.one z)
  ((main.addTo wp z.neg).addTo wp root).addTo wp series.1

/-- `Γ x` for an `x` that is no pole and not far to the left. -/
def gammaNear (bits : Nat) (x : Binary) : Binary :=
  if x.magnitude < -(bits : Int) - 4 then Binary.div bits Binary.one x
  else
    let wp := bits + 30 + 2 * x.magnitude.toNat
    let n := stepsFrom wp x
    let top := Elementary.exp wp (logGammaFar (wp + 20) (x.add (Binary.ofInt n)))
    Binary.div bits top (rising wp x n)

/-- `π` times a number, which keeps only its fractional part modulo two. -/
def piTimes (wp : Nat) (x : Binary) : Binary :=
  let turns := (x.scale (-1)).floor
  let rest := x.sub ((Binary.ofInt turns).scale 1)
  ((Elementary.pi (wp + 8)).mul rest).round (wp + 8)

/-- `Γ x` for an `x` that is no pole.  Far to the left the reflection
`Γ x · Γ (1 - x) = π / sin (π x)` is used. -/
def gamma (bits : Nat) (x : Binary) : Binary :=
  if x.isNegative ∧ 4 < x.magnitude then
    let wp := bits + 20
    let s := Elementary.sin wp (piTimes (wp + x.magnitude.toNat) x)
    Binary.div bits (Elementary.pi wp) (s.mul (gammaNear wp (Binary.one.sub x)))
  else gammaNear bits x

/-- Arguments up to this magnitude have a gamma function that can be written out. -/
def gammaLimit : Int := 4000

/-- The `m`-th derivative of the logarithmic derivative of `Γ`, beyond the horizon. -/
def polygammaFar (wp m : Nat) (z : Binary) : Binary :=
  let count := termCount wp z + m
  let b := bernoulli (2 * count + 1)
  let inv := Binary.div wp Binary.one z
  let z2 := (inv.mul inv).round wp
  let first := if m = 0 then Elementary.log wp z
    else (Binary.ofInt (factorial (m - 1))).mul (Binary.powInt wp inv m)
  let second := (Binary.ofInt (factorial m)).mul (Binary.powInt wp inv (m + 1)) |>.scale (-1)
  let series := (List.range count).foldl (fun (acc : Binary × Binary) i =>
      let k := i + 1
      let c := b[2 * k]! * factorial (2 * k + m - 1) / factorial (2 * k)
      (acc.1.addTo wp ((Binary.ofRat wp c).mul acc.2), (acc.2.mul z2).round wp))
    (Binary.zero, Binary.powInt wp inv (m + 2))
  if m = 0 then (first.addTo wp second.neg).addTo wp series.1.neg
  else
    let total := (first.addTo wp second).addTo wp series.1
    if m % 2 = 1 then total else total.neg

/-- The `m`-th derivative of the logarithmic derivative of `Γ`, not far to the left. -/
def polygammaNear (bits m : Nat) (x : Binary) : Binary :=
  let wp := bits + 40 + x.magnitude.natAbs * (m + 1)
  let n := stepsFrom wp x
  let far := polygammaFar wp m (x.add (Binary.ofInt n))
  let shift := (reciprocals wp (m + 1) x n).mul (Binary.ofInt (factorial m))
  (far.addTo wp (if m % 2 = 0 then shift.neg else shift)).round bits

/-- The `m`-th derivative of the logarithmic derivative `ψ` of `Γ`.  Far to the left `ψ` itself
comes from the reflection `ψ (1 - x) - ψ x = π cot (π x)`. -/
def polygamma (bits m : Nat) (x : Binary) : Binary :=
  if m = 0 ∧ x.isNegative ∧ 8 < x.magnitude then
    let wp := bits + 40
    let angle := piTimes (wp + x.magnitude.toNat) x
    let cot := Binary.div wp (Elementary.cos wp angle) (Elementary.sin wp angle)
    let right := polygammaNear wp 0 (Binary.one.sub x)
    (right.addTo wp ((Elementary.pi wp).mul cot).neg).round bits
  else polygammaNear bits m x

/-- The terms `2 ^ n x ^ (2 n + 1) / (1 · 3 ⋯ (2 n + 1))`, summed until they vanish. -/
def errorSeries (wp : Nat) (x2 : Binary) : Nat → Binary → Nat → Binary → Binary
  | 0, _, _, sum => sum
  | fuel + 1, term, n, sum =>
    if term.magnitude + wp < sum.magnitude then sum
    else
      let next := Binary.div wp ((term.mul x2).scale 1) (Binary.ofInt (2 * n + 3))
      errorSeries wp x2 fuel next (n + 1) (sum.addTo wp term)

/-- The terms `x ^ (2 n + 1) / (n! (2 n + 1))`, summed until they vanish; `power` is
`x ^ (2 n + 1) / n!`. -/
def imaginaryErrorSeries (wp : Nat) (x2 : Binary) : Nat → Binary → Nat → Binary → Binary
  | 0, _, _, sum => sum
  | fuel + 1, power, n, sum =>
    let term := Binary.div wp power (Binary.ofInt (2 * n + 1))
    if term.magnitude + wp < sum.magnitude then sum
    else
      let next := Binary.div wp (power.mul x2) (Binary.ofInt (n + 1))
      imaginaryErrorSeries wp x2 fuel next (n + 1) (sum.addTo wp term)

/-- The error function of `i x`, divided by `i`. -/
def erfi (bits : Nat) (x : Binary) : Binary :=
  if x.isZero ∨ 16 < x.magnitude then Binary.zero
  else
    let wp := bits + 20
    let x2 := (x.mul x).round wp
    let sum := imaginaryErrorSeries wp x2 (4 * bits + 100 + 8 * x2.floor.toNat) x 0 Binary.zero
    Binary.div bits (sum.scale 1) (Binary.sqrt wp (Elementary.pi wp))

/-- The error function. -/
def erf (bits : Nat) (x : Binary) : Binary :=
  if x.isZero then Binary.zero
  else
    let x2 := x.mul x
    if 16 < x.magnitude ∨ (bits + 10 : Int) < x2.floor then
      if x.isNegative then Binary.one.neg else Binary.one
    else
      let wp := bits + 20
      let sum := errorSeries wp x2 (4 * bits + 100 + 4 * x2.floor.toNat) x 0 Binary.zero
      let root := Binary.sqrt wp (Elementary.pi wp)
      Binary.div bits ((sum.mul (Elementary.exp wp x2.neg)).scale 1) root

/-- The complementary error function, `1 - erf x`.  Far to the right it is about `exp (-x²)`, so the
error function is computed with as many more bits. -/
def erfc (bits : Nat) (x : Binary) : Binary :=
  if x.isNegative ∨ x.isZero then (Binary.one.sub (erf (bits + 10) x)).round bits
  else if 12 < x.magnitude then Binary.zero
  else
    let wide := bits + 20 + 2 * (x.mul x).floor.toNat + 2 * x.magnitude.toNat
    (Binary.one.sub (erf wide x)).round bits

/-! ## Constants -/

/-- Half of one plus the square root of five. -/
def goldenRatio (bits : Nat) : Binary :=
  ((Binary.one.add (Binary.sqrt (bits + 10) (Binary.ofInt 5))).scale (-1)).round bits

/-- The limit of the harmonic sums less the logarithm: `-ψ 1`. -/
def eulerGamma (bits : Nat) : Binary := (polygamma bits 0 Binary.one).neg

/-- The sum of `(-1) ^ k / (2 k + 1) ^ 2`: an eighth of what `ψ' (1 / 4)` exceeds `π ^ 2` by. -/
def catalan (bits : Nat) : Binary :=
  let wp := bits + 20
  let circle := Elementary.pi wp
  (((polygamma wp 1 ⟨1, -2⟩).sub (circle.mul circle)).scale (-3)).round bits

/-- A root of `x ^ 3 = x ^ 2 + x + 1`, by so many steps of Newton's method from a larger number. -/
def tribonacciRoot (wp : Nat) : Nat → Binary
  | 0 => Binary.ofInt 2
  | n + 1 =>
    let x := tribonacciRoot wp n
    let x2 := (x.mul x).round wp
    let value := (((x2.mul x).sub x2).sub x).sub Binary.one
    let slope := ((x2.mul (Binary.ofInt 3)).sub (x.scale 1)).sub Binary.one
    (x.sub (Binary.div wp value slope)).round wp

/-- The limit ratio of a sequence whose terms are sums of the three before: the real root of
`x ^ 3 = x ^ 2 + x + 1`. -/
def tribonacci (bits : Nat) : Binary :=
  (tribonacciRoot (bits + 20) (Nat.log2 (bits + 20) + 4)).round bits

end ErrorBars.Special
