import ErrorBars.Expr.Canonical.Bounds
import ErrorBars.Expr.Canonical.Separation

/-!
# Exponential and logarithm

The exponential of a logarithm is a power; the logarithm of a number that is below zero or not real
is split into that of its absolute value and its angle.
-/

set_option autoImplicit false

namespace ErrorBars.Canonical

/-- The exponential of `r` imaginary half turns, if it is a unit. -/
def expTurn? (A : Arith) (r : Rat) : Option Expr :=
  if r.den = 1 then some (if r.num % 2 = 0 then Expr.one else Expr.minusOne)
  else if r.den = 2 then some (if r.num % 4 = 1 then Expr.imaginary else A.neg Expr.imaginary)
  else
    let p := ratMod r 2
    let p := if 1 < p then p - 2 else p
    if p = r then none
    else some (A.apply .exp [A.product [.rat p, Expr.imaginary, Expr.pi]])

/-- The exponential of a product with a single logarithm among numbers: a power. -/
def expOfLog? (A : Arith) (fs : List Expr) : Option Expr :=
  let logs := fs.filter (Expr.isFnOf .log)
  let others := fs.filter fun f => !f.isFnOf .log
  match logs with
  | [.app (.fn .log) [x]] =>
    if others.all fun f => f.isConstant && f.facts.real == some true then
      some (A.power x (A.product others))
    else none
  | _ => none

/-- What stands in front of the imaginary half turn. -/
def imaginaryTurn? (A : Arith) (e : Expr) : Option Rat :=
  match (coeffOfUnit? A e).bind (coeffOf? A Expr.pi) with
  | some (.rat r) => some r
  | _ => none

/-- The exponential of one term of a sum: the factor it gives outside, or the term that stays. -/
def expTerm (A : Arith) (t : Expr) : Expr ⊕ Expr :=
  if t == Expr.one then .inr t
  else
    match A.apply .exp [t] with
    | .app (.fn .exp) [u] => .inr u
    | v => .inl v

/-- The exponential of a sum: terms that give powers or numbers are taken out. -/
def expOfSum (A : Arith) (ts : List Expr) : Option Expr :=
  let split := ts.map (expTerm A)
  let outside := split.filterMap fun | .inl v => some v | .inr _ => none
  let inside := split.filterMap fun | .inl _ => none | .inr t => some t
  if outside.isEmpty && inside == ts then none
  else
    let rest := A.sum inside
    some (A.product (outside ++ [if rest == Expr.zero then Expr.one else Expr.rawFn .exp [rest]]))

/-- The exponential of an infinite multiple of a closed number: the real part of that number
decides. -/
def expOfInfinite (A : Arith) (negative : Bool) (e : Expr) : Option Expr :=
  let e := if negative then A.neg e else e
  let z := partsOf A e
  if !e.isConstant then none
  else if z.re.facts.zero == some true then some Expr.undefined
  else if z.re.isPositive && !z.im.isZero then some Expr.complexInfinity
  else if z.re.isNegative then some Expr.zero
  else none

/-- Exponential. -/
def exp (A : Arith) (e : Expr) : Option Expr :=
  if e.isZero then some Expr.one
  else if e == Expr.one then some Expr.euler
  else if e == Expr.undefined || e == Expr.complexInfinity then some Expr.undefined
  else if e == Expr.infinity then some Expr.infinity
  else if e == .const .negInfinity then some Expr.zero
  else
    match e with
    | .app (.fn .log) [x] => some x
    | .app (.fn .bounds) [a, b] =>
      some (Ends.interval ⟨A.apply .exp [a], A.apply .exp [b]⟩)
    | .app .mul fs =>
      match imaginaryTurn? A (.app .mul fs) with
      | some r => expTurn? A r
      | none =>
        match (Expr.app .mul fs).coeffMul with
        | (.const .infinity, rest) => expOfInfinite A false rest
        | (.const .negInfinity, rest) => expOfInfinite A true rest
        | _ => expOfLog? A fs
    | .app .add ts => expOfSum A ts
    | _ => none

/-- How often a number above one divides a whole number. -/
def multiplicity (b : Nat) (n : Int) : Nat :=
  if b < 2 ∨ n = 0 then 0 else (divideOut b (Nat.log2 n.natAbs + 1) n.natAbs 0).2

/-- How often one whole number divides another; `none` where that has no meaning. -/
def multiplicity? (b n : Int) : Option Int :=
  if b < 2 ∨ n = 0 then none else some (multiplicity b.toNat n)

/-- The largest exponent of a rational base that can be taken out of a rational number. -/
def rationalMultiplicity? (b n : Rat) : Option Int :=
  if b.den = 1 ∧ n.den = 1 then multiplicity? b.num n.num
  else if b.den = 1 then
    if n.num = 1 then (multiplicity? b.num n.den).map (- ·)
    else do return (← multiplicity? b.num n.num) - (← multiplicity? b.num n.den)
  else if b.num = 1 then multiplicity? b.den n.den
  else do
    let like := min (← multiplicity? b.num n.num) (← multiplicity? b.den n.den)
    let cross := min (← multiplicity? b.den n.num) (← multiplicity? b.num n.den)
    return like - cross

/-- The logarithm to a base: whole powers of a rational base are taken out. -/
def logBase (A : Arith) (x b : Expr) : Expr :=
  let plain := fun (x : Expr) => A.div (A.apply .log [x]) (A.apply .log [b])
  if b == Expr.one then (if x == Expr.one then Expr.undefined else Expr.complexInfinity)
  else
    match (do rationalMultiplicity? (← b.rat?) (← x.rat?) : Option Int) with
    | some k =>
      if k = 0 then plain x
      else A.add (Expr.int k) (plain (A.div x (A.power b (Expr.int k))))
    | none => if b == Expr.euler then A.apply .log [x] else plain x

/-- Tangents of simple fractions of a half turn, all in the first quarter. -/
def tangentTable (A : Arith) : List (Expr × Rat) :=
  let root := fun (n : Int) => A.sqrt (Expr.int n)
  let linear := fun (a b : Rat) (n : Int) => A.add (.rat a) (A.mul (.rat b) (root n))
  let ratio := fun (a b : Expr) => A.div a b
  [(root 3, 1 / 3),
   (Expr.one, 1 / 4),
   (A.sqrt (linear 5 (-2) 5), 1 / 5),
   (ratio (A.mul (root 2) (A.sqrt (linear 5 (-1) 5))) (linear 1 1 5), 1 / 5),
   (A.sqrt (linear 5 2 5), 2 / 5),
   (ratio (A.mul (root 2) (A.sqrt (linear 5 1 5))) (linear (-1) 1 5), 2 / 5),
   (A.mul (.rat (1 / 3)) (root 3), 1 / 6),
   (linear (-1) 1 2, 1 / 8),
   (ratio (A.sqrt (linear 2 (-1) 2)) (A.sqrt (linear 2 1 2)), 1 / 8),
   (linear 1 1 2, 3 / 8),
   (ratio (A.sqrt (linear 2 1 2)) (A.sqrt (linear 2 (-1) 2)), 3 / 8),
   (A.sqrt (linear 1 (-2 / 5) 5), 1 / 10),
   (A.sqrt (linear 1 (2 / 5) 5), 3 / 10),
   (linear 2 (-1) 3, 1 / 12),
   (ratio (linear (-1) 1 3) (linear 1 1 3), 1 / 12),
   (linear 2 1 3, 5 / 12),
   (ratio (linear 1 1 3) (linear (-1) 1 3), 5 / 12)]

/-- The logarithm of a number given by its absolute value and its angle in half turns. -/
def polarLog (A : Arith) (size : Expr) (r : Rat) : Expr :=
  A.add (A.apply .log [size]) (A.mul Expr.imaginary (turn A r))

/-- The logarithm of an algebraic number whose angle is a simple fraction of a turn. -/
def logOfAlgebraic (A : Arith) (e : Expr) : Option Expr :=
  let outer := e.factors.filter fun f => !f.has Expr.imaginary
  let inner := e.factors.filter fun f => f.has Expr.imaginary
  let (size, core) := if e.isAdd then (Expr.one, e) else (A.product outer, A.product inner)
  let (size, core) := if size.isNegative then (A.neg size, A.neg core) else (size, core)
  match cartesian? A (multipliedOut A core) with
  | none => none
  | some z =>
    if z.im == Expr.zero then none
    else if z.re == Expr.zero then
      if z.im.isPositive then some (polarLog A (A.mul size z.im) (1 / 2))
      else some (polarLog A (A.mul size (A.neg z.im)) (-1 / 2))
    else
      let table := tangentTable A
      let slope := A.div z.im z.re
      let angle := match lookUp table slope with
        | some r => some r
        | none => (lookUp table (A.neg slope)).map (- ·)
      angle.map fun r =>
        let r := if z.re.isPositive then r else if 0 < r then r - 1 else r + 1
        polarLog A (A.mul size (cartesianAbs A z)) r

/-- An angle brought into the half turns around zero. -/
def principalAngle (A : Arith) (i : Expr) : Expr :=
  let full := turn A 2
  match (Expr.rawFn .floor [A.div i full]).evaluator 60 332 with
  | .ok v =>
    let n := match v.values.1 with
      | .number x => x.floor
      | _ => 0
    let rest := A.sub i (A.mul (Expr.int n) full)
    if (A.sub rest Expr.pi).isPositive then A.sub rest full else rest
  | .error _ => i

/-- The logarithm of an exponential. -/
def logOfExp (A : Arith) (x : Expr) : Option Expr :=
  if x.facts.real == some true then some x
  else if x.isConstant then
    (cartesian? A x).bind fun z =>
      if z.im == Expr.zero then none
      else some (A.sum (z.re :: (principalAngle A z.im).terms.map (A.mul Expr.imaginary)))
  else none

/-- The logarithm of an exact number or a number of an exact kind. -/
def logOfUnit (A : Arith) (e : Expr) : Option Expr :=
  match e with
  | .rat q => if q.num = 1 ∧ q.den ≠ 1 then some (A.neg (A.apply .log [Expr.int q.den])) else none
  | .app (.fn .exp) [x] => logOfExp A x
  | _ => none

/-- The logarithm of a rational multiple of the imaginary unit. -/
def logOfImaginary (A : Arith) (e : Expr) : Option Expr :=
  if e.isAdd then none
  else
    match coeffOfUnit? A e with
    | some (.rat q) =>
      let quarter := A.mul (turn A (1 / 2)) Expr.imaginary
      some (if q < 0 then A.add (A.neg quarter) (A.apply .log [.rat (-q)])
        else A.add quarter (A.apply .log [.rat q]))
    | some c => if c.isInfinite then some Expr.infinity else none
    | none => none

/-- The logarithms of the numbers of an interval. -/
def logBounds (A : Arith) (s : Ends) : Expr :=
  if s.lower.isPositive then Ends.interval ⟨A.apply .log [s.lower], A.apply .log [s.upper]⟩
  else if s.lower.isZero then Ends.interval ⟨.const .negInfinity, A.apply .log [s.upper]⟩
  else Expr.undefined

/-- Logarithm. -/
def log (A : Arith) (e : Expr) : Option Expr :=
  if e.isZero then some Expr.complexInfinity
  else if e == Expr.one then some Expr.zero
  else if e == Expr.infinity || e == .const .negInfinity then some Expr.infinity
  else if e == Expr.undefined || e == Expr.complexInfinity then some e
  else if e == Expr.euler then some Expr.one
  else if let some s := Ends.of? e then some (logBounds A s)
  else
    match logOfUnit A e with
    | some v => some v
    | none =>
      if e.isConstant && e.isNegative then
        some (A.add (A.mul Expr.pi Expr.imaginary) (A.apply .log [A.neg e]))
      else
        match logOfImaginary A e with
        | some v => some v
        | none =>
          if e.isConstant && e.has Expr.imaginary && isAlgebraic e then logOfAlgebraic A e else none

end ErrorBars.Canonical
