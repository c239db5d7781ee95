import ErrorBars.Numeric.Power

/-!
# Roots and factors of natural numbers

What is needed to take perfect powers out of a root: integer roots, the largest exponent under which
a number is a perfect power, and the factors below a limit.
-/

set_option autoImplicit false

namespace ErrorBars

/-- Sets bits of a root from the highest down as long as its power does not exceed `n`. -/
def rootBits (k n : Nat) : Nat → Nat → Nat
  | 0, r => r
  | i + 1, r =>
    let s := r + 2 ^ i
    if s ^ k ≤ n then rootBits k n i s else rootBits k n i r

/-- The largest `r` with `r ^ k ≤ n`. -/
def nthRoot (k n : Nat) : Nat :=
  if k = 0 then 0
  else if k = 1 then n
  else if n < 2 then n
  else rootBits k n (Nat.log2 n / k + 1) 0

/-- The root of a number, if it is an integer. -/
def exactRoot? (k n : Nat) : Option Nat :=
  let r := nthRoot k n
  if r ^ k = n then some r else none

/-- The base of `n` as a power with an exponent of at most `k`, the largest possible. -/
def perfectPowerFrom (n : Nat) : Nat → Option (Nat × Nat)
  | 0 => none
  | 1 => none
  | k + 2 =>
    match exactRoot? (k + 2) n with
    | some r => some (r, k + 2)
    | none => perfectPowerFrom n (k + 1)

/-- A number as a perfect power with the largest exponent; `none` if it is none. -/
def perfectPower? (n : Nat) : Option (Nat × Nat) :=
  if n < 4 then none else perfectPowerFrom n (Nat.log2 n)

/-- Divides out a factor as often as possible: what remains, and how often it went. -/
def divideOut (p : Nat) : Nat → Nat → Nat → Nat × Nat
  | 0, n, k => (n, k)
  | fuel + 1, n, k =>
    if 1 < p ∧ n ≠ 0 ∧ n % p = 0 then divideOut p fuel (n / p) (k + 1) else (n, k)

/-- Trial division by `p`, `p + 1`, …: the factors found with their multiplicities.  What is left
when the divisors exceed the root counts as a factor; what is left when they run out counts as a
power of a factor. -/
def trialFactors : Nat → Nat → Nat → List (Nat × Nat)
  | 0, _, n => if 1 < n then [(perfectPower? n).getD (n, 1)] else []
  | fuel + 1, p, n =>
    if n < p * p then (if 1 < n then [(n, 1)] else [])
    else if n % p = 0 then
      let (rest, k) := divideOut p (Nat.log2 n + 1) n 0
      (p, k) :: trialFactors fuel (p + 1) rest
    else trialFactors fuel (p + 1) n

/-- The divisors that are tried when factors are taken out of a root. -/
def factorLimit : Nat := 2 ^ (15 : Nat)

/-- The prime factors below the limit with their multiplicities, and what is left. -/
def smallFactors (n : Nat) : List (Nat × Nat) := trialFactors factorLimit 2 n

end ErrorBars
