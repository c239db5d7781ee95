import ErrorBars.Expr.Canonical.Arith

/-!
# Factorials and related functions

Factorials, binomial coefficients, the gamma function and its derivatives, the error function, the
unit step and the unit pulse at arguments for which they have exact values.
-/

set_option autoImplicit false

namespace ErrorBars.Canonical

/-- The factorial of a natural number, multiplied in halves so that the factors stay balanced. -/
def productRange : Nat → Nat → Nat → Nat
  | 0, _, _ => 1
  | fuel + 1, lo, hi =>
    if hi < lo then 1
    else if lo = hi then lo
    else
      let mid := (lo + hi) / 2
      productRange fuel lo mid * productRange fuel (mid + 1) hi

/-- The factorial of a natural number. -/
def naturalFactorial (n : Nat) : Nat := productRange (Nat.log2 (n + 1) + 3) 1 n

/-- Factorial. -/
def factorial (e : Expr) : Option Expr :=
  if e.isZero then some Expr.one
  else if e == Expr.infinity then some Expr.infinity
  else
    e.int?.map fun n =>
      if n < 0 then Expr.complexInfinity else Expr.int (naturalFactorial n.toNat)

/-- The product of every second number down from `n`. -/
def naturalFactorial2 (n : Nat) : Nat :=
  if n % 2 = 0 then 2 ^ (n / 2) * naturalFactorial (n / 2)
  else naturalFactorial n / (2 ^ ((n - 1) / 2) * naturalFactorial ((n - 1) / 2))

/-- Double factorial. -/
def factorial2 (e : Expr) : Option Expr :=
  e.int?.bind fun n =>
    if 0 ≤ n then some (Expr.int (naturalFactorial2 n.toNat))
    else if n % 2 = 0 then none
    else
      let sign : Int := if ((1 - n) / 2) % 2 = 0 then 1 else -1
      some (.rat (mkRat (n * sign) (naturalFactorial2 n.natAbs)))

/-- The falling product `n (n - 1) ⋯` of `k` factors over the factorial of `k`. -/
def fallingRatio (n : Rat) (k : Nat) : Rat :=
  (List.range k).foldl (fun (acc : Rat) i => acc * (n - (i : Nat)) / ((i + 1 : Nat) : Rat)) 1

/-- The product of two sums, multiplied out. -/
def mulTerms (A : Arith) (a b : Expr) : Expr :=
  A.sum (a.terms.flatMap fun s => b.terms.map fun t => A.mul s t)

/-- The product `(d + 1) ⋯ (d + k)` over the factorial of `k`, for a closed `d`, multiplied out. -/
def risingRatio (A : Arith) (d : Expr) (k : Nat) : Expr :=
  let product := (List.range k).foldl
    (fun acc i => mulTerms A acc (A.add d (Expr.int (i + 1 : Nat)))) Expr.one
  mulTerms A product (.rat (mkRat 1 (naturalFactorial k)))

/-- Binomial coefficient. -/
def binomial (A : Arith) (n k : Expr) : Option Expr :=
  let d := A.sub n k
  let fn := n.facts
  let generic := fn.isNonnegative || fn.integer == some false
  if k.isZero || (generic && d.isZero) then some Expr.one
  else if (A.sub k Expr.one).isZero || (generic && (A.sub d Expr.one).isZero) then some n
  else
    match k.int? with
    | some i =>
      if i < 0 || (fn.isNonnegative && n.isWhole && d.isNegative) then some Expr.zero
      else
        match n with
        | .rat q => some (.rat (fallingRatio q i.toNat))
        | n => if n.isConstant then some (risingRatio A d i.toNat) else none
    | none =>
      if fn.negative == some true && n.isWhole then some Expr.complexInfinity
      else if k.isConstant then
        let g := fun e => A.apply .gamma [e]
        some (A.div (g (A.add n Expr.one)) (A.mul (g (A.add k Expr.one)) (g (A.add d Expr.one))))
      else none

/-- Gamma function. -/
def gamma (A : Arith) (e : Expr) : Option Expr :=
  match e with
  | .const .infinity => some Expr.infinity
  | .const .undefined => some e
  | .rat q =>
    if q.den = 1 then
      some (if 0 < q.num then Expr.int (naturalFactorial (q.num - 1).toNat)
        else Expr.complexInfinity)
    else if q.den = 2 then
      let n := q.num.natAbs / 2
      let root := A.sqrt Expr.pi
      let odd := fun (k : Nat) => (List.range k).foldl (fun (acc : Nat) i => acc * (2 * i + 1)) 1
      if 0 < q.num then some (A.mul (.rat (mkRat (odd n : Int) (2 ^ n))) root)
      else
        let k := n + 1
        let c : Int := if k % 2 = 0 then (odd k : Int) else -(odd k : Int)
        some (A.mul (.rat (mkRat ((2 ^ k : Nat) : Int) 1 / (c : Rat))) root)
    else none
  | .float x bits =>
    if x.isInteger then
      some (if x.isNegative || x.isZero then Expr.complexInfinity
        else Expr.approx (Special.gamma (bits + 4) x) bits)
    else none
  | _ => none

/-- Whether an expression is an end of the real line times the imaginary unit. -/
def isEndlessTurn (e : Expr) : Bool :=
  match e with
  | .app .mul [.const .infinity, .const .i] | .app .mul [.const .i, .const .infinity] => true
  | .app .mul [.const .negInfinity, .const .i] | .app .mul [.const .i, .const .negInfinity] => true
  | _ => false

/-- Error function. -/
def erf (A : Arith) (e : Expr) : Option Expr :=
  if e.isZero then some Expr.zero
  else if e == Expr.infinity then some Expr.one
  else if e == Expr.undefined then some e
  else if isEndlessTurn e then some e
  else if e.leadsWithMinus then some (A.neg (A.apply .erf [A.neg e]))
  else none

/-- Complementary error function. -/
def erfc (A : Arith) (e : Expr) : Option Expr :=
  if e.isZero then some Expr.one
  else if e == Expr.infinity then some Expr.zero
  else if e == Expr.undefined then some e
  else if isEndlessTurn e then some (A.neg e)
  else if e.leadsWithMinus then some (A.sub (Expr.int 2) (A.apply .erfc [A.neg e]))
  else none

/-- Unit step, with a value at its edge. -/
def heaviside (e edge : Expr) : Option Expr :=
  let f := e.facts
  if e == Expr.undefined then some e
  else if f.isNegative then some Expr.zero
  else if f.isPositive then some Expr.one
  else if f.zero == some true then some edge
  else none

/-- A unit step whose value at the edge is given; one half need not be. -/
def heavisideWith (e edge : Expr) : Option Expr :=
  match heaviside e edge with
  | some v => some v
  | none => if edge == Expr.half then some (Expr.rawFn .heaviside [e]) else none

/-- Unit pulse: zero away from its place. -/
def dirac (A : Arith) (e : Expr) : Option Expr :=
  if e == Expr.undefined then some e
  else if e.facts.real == some true && e.facts.zero == some false && !e.isInfinite then
    some Expr.zero
  else
    match e with
    | .app .mul (.rat q :: _) => if q < 0 then some (A.apply .dirac [A.neg e]) else none
    | .app .mul (.float x _ :: _) => if x.isNegative then some (A.apply .dirac [A.neg e]) else none
    | _ => none

/-- A derivative of the unit pulse: even ones are even, odd ones are odd. -/
def diracDerivative (A : Arith) (e order : Expr) : Option Expr :=
  if order.isZero then some (A.apply .dirac [e])
  else
    match dirac A e, order.int? with
    | some (.app _ [x]), some n =>
      let v := A.apply .dirac [x, order]
      some (if n % 2 = 0 then v else A.neg v)
    | known, _ => known

/-- The sum of the reciprocals of the first natural numbers. -/
def harmonic (n : Nat) : Rat :=
  (List.range n).foldl (fun (acc : Rat) i => acc + mkRat 1 (i + 1)) 0

/-- The derivatives of the logarithmic derivative of the gamma function. -/
def polygamma (A : Arith) (n z : Expr) : Option Expr :=
  if z == Expr.infinity then some (if n.isZero then Expr.infinity else Expr.zero)
  else
    match z.int? with
    | some m =>
      if m ≤ 0 then some Expr.complexInfinity
      else if n.isZero then some (A.sub (.rat (harmonic (m - 1).toNat)) (.const .eulerGamma))
      else none
    | none => none

end ErrorBars.Canonical
