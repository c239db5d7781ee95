import ErrorBars.Expr.Canonical.Bounds
import ErrorBars.Expr.Canonical.Complex
import ErrorBars.Expr.Canonical.Remainder

/-!
# Circular functions

The circular functions have exact values at simple fractions of a turn, take whole quarter turns and
a leading minus out of their argument, and undo their inverses.  The inverse functions know the
arguments that are such exact values.
-/

set_option autoImplicit false

namespace ErrorBars.Canonical

/-! ## Circular functions -/

/-- One plus or minus the square of an expression. -/
def oneWithSquare (A : Arith) (minus : Bool) (x : Expr) : Expr :=
  let square := A.power x (Expr.int 2)
  A.add Expr.one (if minus then A.neg square else square)

/-- One plus or minus the reciprocal of the square of an expression. -/
def oneWithInverseSquare (A : Arith) (minus : Bool) (x : Expr) : Expr :=
  let square := A.power x (Expr.int (-2))
  A.add Expr.one (if minus then A.neg square else square)

/-- The sine of an inverse function. -/
def sinOfInverse (A : Arith) (e : Expr) : Option Expr :=
  match e with
  | .app (.fn .acot) [x] => some (A.inv (A.mul (A.sqrt (oneWithInverseSquare A false x)) x))
  | .app (.fn .acsc) [x] => some (A.inv x)
  | .app (.fn .asec) [x] => some (A.sqrt (oneWithInverseSquare A true x))
  | .app (.fn .asin) [x] => some x
  | .app (.fn .acos) [x] => some (A.sqrt (oneWithSquare A true x))
  | .app (.fn .atan) [x] => some (A.div x (A.sqrt (oneWithSquare A false x)))
  | .app (.fn .atan2) [y, x] =>
    some (A.div y (A.sqrt (A.add (A.power x (Expr.int 2)) (A.power y (Expr.int 2)))))
  | _ => none

/-- The cosine of an inverse function. -/
def cosOfInverse (A : Arith) (e : Expr) : Option Expr :=
  match e with
  | .app (.fn .acot) [x] => some (A.inv (A.sqrt (oneWithInverseSquare A false x)))
  | .app (.fn .acsc) [x] => some (A.sqrt (oneWithInverseSquare A true x))
  | .app (.fn .asec) [x] => some (A.inv x)
  | .app (.fn .acos) [x] => some x
  | .app (.fn .asin) [x] => some (A.sqrt (oneWithSquare A true x))
  | .app (.fn .atan) [x] => some (A.inv (A.sqrt (oneWithSquare A false x)))
  | .app (.fn .atan2) [y, x] =>
    some (A.div x (A.sqrt (A.add (A.power x (Expr.int 2)) (A.power y (Expr.int 2)))))
  | _ => none

/-- The tangent of an inverse function. -/
def tanOfInverse (A : Arith) (e : Expr) : Option Expr :=
  match e with
  | .app (.fn .acot) [x] => some (A.inv x)
  | .app (.fn .acsc) [x] => some (A.inv (A.mul (A.sqrt (oneWithInverseSquare A true x)) x))
  | .app (.fn .asec) [x] => some (A.mul (A.sqrt (oneWithInverseSquare A true x)) x)
  | .app (.fn .atan) [x] => some x
  | .app (.fn .atan2) [y, x] => some (A.div y x)
  | .app (.fn .asin) [x] => some (A.div x (A.sqrt (oneWithSquare A true x)))
  | .app (.fn .acos) [x] => some (A.div (A.sqrt (oneWithSquare A true x)) x)
  | _ => none

/-- Whether an argument is one of the ends of the real line, where circular functions have no
limit. -/
def isEndless (e : Expr) : Bool := e == Expr.infinity || e == .const .negInfinity

/-- The whole real line as an interval. -/
def everything : Expr := Expr.bounds (.const .negInfinity) Expr.infinity

/-- An interval moved by whole periods so that it begins within the first one. -/
def withinPeriod (A : Arith) (period : Expr) (s : Ends) : Ends :=
  let count := A.apply .floor [A.div s.lower period]
  let back := A.neg (A.mul count period)
  ⟨if s.isOpenBelow then s.lower else A.add s.lower back,
    if s.isOpenAbove then s.upper else A.add s.upper back⟩

/-- The values of the sine over an interval. -/
def sinBounds (A : Arith) (s : Ends) : Expr :=
  let s := withinPeriod A (turn A 2) s
  let holds := fun (r : Rat) => s.holds A (turn A r)
  let ends := Ends.around A [A.apply .sin [s.lower], A.apply .sin [s.upper]]
  let lower := if holds (3 / 2) || holds (7 / 2) then Expr.minusOne else ends.lower
  let upper := if holds (1 / 2) || holds (5 / 2) then Expr.one else ends.upper
  Ends.interval ⟨lower, upper⟩

/-- The values of the tangent over an interval. -/
def tanBounds (A : Arith) (s : Ends) : Expr :=
  let s := withinPeriod A Expr.pi s
  if s.holds A (turn A (1 / 2)) || s.holds A (turn A (3 / 2)) then everything
  else Ends.interval ⟨A.apply .tan [s.lower], A.apply .tan [s.upper]⟩

/-- An interval moved by a quarter turn. -/
def quarterTurned (A : Arith) (s : Ends) : Ends :=
  ⟨A.add s.lower (turn A (1 / 2)), A.add s.upper (turn A (1 / 2))⟩

/-- Sine. -/
def sin (A : Arith) (e : Expr) : Option Expr :=
  if e.isZero then some Expr.zero
  else if isEndless e then some (Expr.bounds Expr.minusOne Expr.one)
  else if e == Expr.complexInfinity || e == Expr.undefined then some Expr.undefined
  else if e.leadsWithMinus then some (A.neg (A.apply .sin [A.neg e]))
  else if let some s := Ends.of? e then some (sinBounds A s)
  else
    match coeffOfUnit? A e with
    | some c => some (A.mul Expr.imaginary (A.apply .sinh [c]))
    | none =>
      match piCoeff? A e with
      | some (.rat r) => some (sinTurn A r)
      | some c =>
        let again := A.mul c Expr.pi
        if again == e then none else some (A.apply .sin [again])
      | none =>
        match peelPi A e with
        | some (x, m) => some (A.add (A.mul (sinTurn A m) (A.apply .cos [x]))
            (A.mul (cosTurn A m) (A.apply .sin [x])))
        | none => sinOfInverse A e

/-- Cosine. -/
def cos (A : Arith) (e : Expr) : Option Expr :=
  if e.isZero then some Expr.one
  else if isEndless e then some (Expr.bounds Expr.minusOne Expr.one)
  else if e == Expr.complexInfinity || e == Expr.undefined then some Expr.undefined
  else if e.leadsWithMinus then some (A.apply .cos [A.neg e])
  else if let some s := Ends.of? e then some (sinBounds A (quarterTurned A s))
  else
    match coeffOfUnit? A e with
    | some c => some (A.apply .cosh [c])
    | none =>
      match piCoeff? A e with
      | some (.rat r) => some (cosTurn A r)
      | some c =>
        let again := A.mul c Expr.pi
        if again == e then none else some (A.apply .cos [again])
      | none =>
        match peelPi A e with
        | some (x, m) => some (A.sub (A.mul (cosTurn A m) (A.apply .cos [x]))
            (A.mul (sinTurn A m) (A.apply .sin [x])))
        | none => cosOfInverse A e

/-- The tangent of a tenth or a fifth of a half turn. -/
def tanTenth (A : Arith) (n : Int) : Expr :=
  let root := A.sqrt (Expr.int 5)
  if n = 1 then A.sqrt (A.sub Expr.one (A.mul (.rat (2 / 5)) root))
  else if n = 2 then A.sqrt (A.sub (Expr.int 5) (A.mul (Expr.int 2) root))
  else if n = 3 then A.sqrt (A.add Expr.one (A.mul (.rat (2 / 5)) root))
  else A.sqrt (A.add (Expr.int 5) (A.mul (Expr.int 2) root))

/-- The tangent of a number of tenths of a half turn, not a quarter turn. -/
def tanTenths (A : Arith) (n : Int) : Expr :=
  let n := n % 10
  if 5 < n then A.neg (tanTenth A (10 - n)) else tanTenth A n

/-- The tangent of a number of sixths of a half turn, not a quarter turn. -/
def tanSixths (A : Arith) (n : Int) : Expr :=
  let root := A.sqrt (Expr.int 3)
  let third := A.mul (.rat (1 / 3)) root
  match (n % 6).toNat with
  | 1 => third
  | 2 => root
  | 4 => A.neg root
  | 5 => A.neg third
  | _ => Expr.zero

/-- The tangent of `r` half turns. -/
def tanTurn (A : Arith) (r : Rat) : Expr :=
  let p := ratMod r 1
  if p = 0 then Expr.zero
  else if p = 1 / 2 then Expr.complexInfinity
  else if p.den = 5 ∨ p.den = 10 then tanTenths A (10 * p).num
  else if p.den = 15 then
    let a := tanSixths A p.num
    let b := tanTenths A p.num
    A.div (A.sub a b) (A.add Expr.one (A.mul a b))
  else
    let double := if p.den % 2 = 0 then
        match cosTurn? A 12 (2 * r), cosTurn? A 12 (2 * r - 1 / 2) with
        | some c, some s => some (A.sub (A.inv s) (A.div c s))
        | _, _ => none
      else none
    match double with
    | some v => v
    | none =>
      let q := ratMod (r + 1 / 2) 1 - 1 / 2
      match cosTurn? A 12 q, cosTurn? A 12 (q - 1 / 2) with
      | some c, some s => if c.isZero then Expr.complexInfinity else A.div s c
      | _, _ =>
        if q < 0 then A.neg (Expr.rawFn .tan [A.mul (.rat (-q)) Expr.pi])
        else Expr.rawFn .tan [A.mul (.rat q) Expr.pi]

/-- Tangent. -/
def tan (A : Arith) (e : Expr) : Option Expr :=
  if e.isZero then some Expr.zero
  else if isEndless e then some everything
  else if e == Expr.complexInfinity || e == Expr.undefined then some Expr.undefined
  else if e.leadsWithMinus then some (A.neg (A.apply .tan [A.neg e]))
  else if let some s := Ends.of? e then some (tanBounds A s)
  else
    match coeffOfUnit? A e with
    | some c => some (A.mul Expr.imaginary (A.apply .tanh [c]))
    | none =>
      match piCoeff? A e with
      | some (.rat r) => some (tanTurn A r)
      | some c =>
        let again := A.mul c Expr.pi
        if again == e then none else some (A.apply .tan [again])
      | none =>
        match peelPi A e with
        | some (x, m) =>
          some (if m.den = 1 then A.apply .tan [x] else A.neg (A.apply .cot [x]))
        | none => tanOfInverse A e

/-- The cotangent of `r` half turns. -/
def cotTurn (A : Arith) (r : Rat) : Expr :=
  let p := ratMod r 1
  if p = 0 then Expr.complexInfinity
  else if p.den = 5 ∨ p.den = 10 then tanTurn A (1 / 2 - r)
  else if p.den = 15 then
    let a := tanSixths A (3 - p.num)
    let b := tanTenths A (5 - p.num)
    A.div (A.add Expr.one (A.mul a b)) (A.sub b a)
  else
    let double := if 2 < p.den ∧ p.den % 2 = 0 then
        match cosTurn? A 12 (2 * r), cosTurn? A 12 (2 * r - 1 / 2) with
        | some c, some s => some (A.add (A.inv s) (A.div c s))
        | _, _ => none
      else none
    match double with
    | some v => v
    | none =>
      let q := ratMod (r + 1 / 2) 1 - 1 / 2
      match cosTurn? A 12 q, cosTurn? A 12 (q - 1 / 2) with
      | some c, some s => if s.isZero then Expr.complexInfinity else A.div c s
      | _, _ =>
        if q < 0 then A.neg (Expr.rawFn .cot [A.mul (.rat (-q)) Expr.pi])
        else Expr.rawFn .cot [A.mul (.rat q) Expr.pi]

/-- Cotangent. -/
def cot (A : Arith) (e : Expr) : Option Expr :=
  if e.isZero then some Expr.complexInfinity
  else if isEndless e then some everything
  else if e == Expr.complexInfinity || e == Expr.undefined then some Expr.undefined
  else if e.leadsWithMinus then some (A.neg (A.apply .cot [A.neg e]))
  else if let some s := Ends.of? e then some (A.neg (tanBounds A (quarterTurned A s)))
  else
    match coeffOfUnit? A e with
    | some c => some (A.neg (A.mul Expr.imaginary (A.apply .coth [c])))
    | none =>
      match piCoeff? A e with
      | some (.rat r) => some (cotTurn A r)
      | some c =>
        let again := A.mul c Expr.pi
        if again == e then none else some (A.apply .cot [again])
      | none =>
        match peelPi A e with
        | some (x, m) =>
          some (if m.den = 1 then A.apply .cot [x] else A.neg (A.apply .tan [x]))
        | none => (tanOfInverse A e).map A.inv

/-- The secant or cosecant that is the reciprocal of a cosine or sine. -/
def reciprocalOf? (e : Expr) : Option Expr :=
  match e with
  | .app (.fn .cos) as => some (Expr.rawFn .sec as)
  | .app (.fn .sin) as => some (Expr.rawFn .csc as)
  | _ => none

/-- An angle brought into the first quarter turn, for a secant or a cosecant: the angle, and whether
the sign changes.  `none` if it lies there. -/
def firstQuarter? (A : Arith) (odd : Bool) (e : Expr) : Option (Expr × Bool) :=
  match piCoeff? A e with
  | some (.rat r) =>
    if (2 * r).den = 1 then none
    else
      let p := ratMod r 2
      if 1 < p then some (turn A (r - 1), true)
      else if 1 / 2 < p then some (turn A (1 - r), !odd)
      else none
  | _ => none

/-- Secant or cosecant, through the function whose reciprocal it is. -/
def reciprocal (A : Arith) (f : Func) (odd : Bool) (e : Expr) : Option Expr :=
  if isEndless e then some everything
  else if e.leadsWithMinus then
    let v := A.apply f [A.neg e]
    some (if odd then A.neg v else v)
  else
    match firstQuarter? A odd e with
    | some (x, minus) =>
      let v := A.apply f [x]
      some (if minus then A.neg v else v)
    | none =>
      match if odd then sin A e else cos A e with
      | none => none
      | some v =>
        match reciprocalOf? v with
        | some r => some r
        | none =>
          match reciprocalOf? (A.neg v) with
          | some r => some (A.neg r)
          | none => some (A.inv v)

/-- Sine over argument: zero at whole half turns, and a reciprocal half way between them. -/
def sinc (A : Arith) (e : Expr) : Option Expr :=
  if e.isZero then some Expr.one
  else if isEndless e then some Expr.zero
  else if e == Expr.undefined || e == Expr.complexInfinity then some Expr.undefined
  else if e.leadsWithMinus then some (A.apply .sinc [A.neg e])
  else
    match piCoeff? A e with
    | some (.rat r) =>
      if r.den = 1 then some Expr.zero
      else if r.den = 2 then
        some (A.div (if (r.num - 1) / 2 % 2 = 0 then Expr.one else Expr.minusOne) e)
      else none
    | _ => none

/-! ## Inverse circular functions -/

/-- Exact arc sines of positive numbers, as fractions of a half turn. -/
def arcSineTable (A : Arith) : List (Expr × Rat) :=
  let root := fun (n : Int) => A.sqrt (Expr.int n)
  let linear := fun (a b : Rat) (n : Int) => A.add (.rat a) (A.mul (.rat b) (root n))
  let quarter := fun (e : Expr) => A.product [.rat (1 / 4), root 2, e]
  let both := fun (a b : Rat) => A.add (A.mul (.rat a) (root 6)) (A.mul (.rat b) (root 2))
  [(A.mul Expr.half (root 3), 1 / 3),
   (A.mul Expr.half (root 2), 1 / 4),
   (Expr.half, 1 / 6),
   (A.sqrt (linear (5 / 8) (-1 / 8) 5), 1 / 5),
   (quarter (A.sqrt (linear 5 (-1) 5)), 1 / 5),
   (A.sqrt (linear (5 / 8) (1 / 8) 5), 2 / 5),
   (quarter (A.sqrt (linear 5 1 5)), 2 / 5),
   (A.mul Expr.half (A.sqrt (linear 2 (-1) 2)), 1 / 8),
   (A.sqrt (linear (1 / 2) (-1 / 4) 2), 1 / 8),
   (A.mul Expr.half (A.sqrt (linear 2 1 2)), 3 / 8),
   (A.sqrt (linear (1 / 2) (1 / 4) 2), 3 / 8),
   (linear (-1 / 4) (1 / 4) 5, 1 / 10),
   (linear (1 / 4) (-1 / 4) 5, -1 / 10),
   (linear (1 / 4) (1 / 4) 5, 3 / 10),
   (both (1 / 4) (-1 / 4), 1 / 12),
   (both (-1 / 4) (1 / 4), -1 / 12),
   (A.div (linear (-1) 1 3) (root 8), 1 / 12),
   (A.div (linear 1 (-1) 3) (root 8), -1 / 12),
   (both (1 / 4) (1 / 4), 5 / 12),
   (A.div (linear 1 1 3) (root 8), 5 / 12)]

/-- Exact arc tangents of positive numbers, as fractions of a half turn. -/
def arcTangentTable (A : Arith) : List (Expr × Rat) :=
  let root := fun (n : Int) => A.sqrt (Expr.int n)
  let linear := fun (a b : Rat) (n : Int) => A.add (.rat a) (A.mul (.rat b) (root n))
  [(A.mul (.rat (1 / 3)) (root 3), 1 / 6),
   (root 3, 1 / 3),
   (linear (-1) 1 2, 1 / 8),
   (linear 1 (-1) 2, -1 / 8),
   (linear 1 1 2, 3 / 8),
   (A.sqrt (linear 5 (-2) 5), 1 / 5),
   (A.sqrt (linear 5 2 5), 2 / 5),
   (A.sqrt (linear 1 (-2 / 5) 5), 1 / 10),
   (A.sqrt (linear 1 (2 / 5) 5), 3 / 10),
   (linear 2 (-1) 3, 1 / 12),
   (linear (-2) 1 3, -1 / 12),
   (linear 2 1 3, 5 / 12)]

/-- The angle of a circular function of a closed real angle. -/
def angleOf? (f : Func) (e : Expr) : Option Expr :=
  match e with
  | .app (.fn g) [x] =>
    let k := x.facts
    if f = g && x.isConstant && k.real == some true && k.finite == some true then some x else none
  | _ => none

/-- An angle without whole periods. -/
def reduced (A : Arith) (e period : Expr) : Expr := (modNumbers A e period).getD e

/-- Whether one closed number exceeds another. -/
def isAbove (A : Arith) (a b : Expr) : Bool := (A.sub a b).isPositive

/-- The angle between minus and plus a quarter turn that has the sine of a given angle. -/
def sineAngle (A : Arith) (x : Expr) : Expr :=
  let quarter := turn A (1 / 2)
  let x := reduced A x (turn A 2)
  let x := if isAbove A x Expr.pi then A.sub Expr.pi x else x
  let x := if isAbove A x quarter then A.sub Expr.pi x else x
  if isAbove A (A.neg quarter) x then A.sub (A.neg Expr.pi) x else x

/-- The angle between zero and a half turn that has the cosine of a given angle. -/
def cosineAngle (A : Arith) (x : Expr) : Expr :=
  let x := reduced A x (turn A 2)
  if isAbove A x Expr.pi then A.sub (turn A 2) x else x

/-- An angle, or the one a half turn below if it exceeds a quarter turn. -/
def belowQuarter (A : Arith) (x : Expr) : Expr :=
  if isAbove A x (turn A (1 / 2)) then A.sub x Expr.pi else x

/-- The angle between minus and plus a quarter turn that has the tangent of a given angle. -/
def tangentAngle (A : Arith) (x : Expr) : Expr := belowQuarter A (reduced A x Expr.pi)

/-- Arc sine. -/
def asin (A : Arith) (e : Expr) : Option Expr :=
  if e.isZero then some Expr.zero
  else if e == Expr.one then some (turn A (1 / 2))
  else if e == Expr.undefined || e == Expr.complexInfinity then some e
  else if e == Expr.infinity then some (Expr.rawMul [.const .negInfinity, Expr.imaginary])
  else if e.leadsWithMinus then some (A.neg (A.apply .asin [A.neg e]))
  else
    match if e.isConstant then lookUp (arcSineTable A) e else none with
    | some r => some (turn A r)
    | none =>
      match coeffOfUnit? A e with
      | some c => some (A.mul Expr.imaginary (A.apply .asinh [c]))
      | none =>
        match angleOf? .sin e, angleOf? .cos e with
        | some x, _ => some (sineAngle A x)
        | _, some _ => some (A.sub (turn A (1 / 2)) (A.apply .acos [e]))
        | _, _ => none

/-- The arc cosine of a circular function of a closed angle, or of its opposite. -/
def arcCosineOfCircular (A : Arith) (e : Expr) : Option Expr :=
  let (minus, inner) := match e with
    | .app .mul [.rat q, f] => if q = -1 then (true, f) else (false, e)
    | e => (false, e)
  match angleOf? .cos inner, angleOf? .sin inner with
  | some x, _ => some (cosineAngle A (if minus then A.sub Expr.pi x else x))
  | _, some _ =>
    let angle := A.apply .asin [inner]
    some (if minus then A.add (turn A (1 / 2)) angle else A.sub (turn A (1 / 2)) angle)
  | _, _ => none

/-- Arc cosine. -/
def acos (A : Arith) (e : Expr) : Option Expr :=
  if e.isZero then some (turn A (1 / 2))
  else if e == Expr.one then some Expr.zero
  else if e == Expr.minusOne then some Expr.pi
  else if e == Expr.undefined || e == Expr.complexInfinity then some e
  else if isEndless e then some (Expr.rawMul [e, Expr.imaginary])
  else
    let known := if e.isConstant then
        match lookUp (arcSineTable A) e with
        | some r => some (1 / 2 - r)
        | none => (lookUp (arcSineTable A) (A.neg e)).map (1 / 2 + ·)
      else none
    match known with
    | some r => some (turn A r)
    | none =>
      if (coeffOfUnit? A e).isSome then some (A.sub (turn A (1 / 2)) (A.apply .asin [e]))
      else arcCosineOfCircular A e

/-- Arc tangent. -/
def atan (A : Arith) (e : Expr) : Option Expr :=
  if e.isZero then some Expr.zero
  else if e == Expr.one then some (turn A (1 / 4))
  else if e == Expr.infinity then some (turn A (1 / 2))
  else if e == Expr.undefined then some e
  else if e == Expr.complexInfinity then some (Expr.bounds (turn A (-1 / 2)) (turn A (1 / 2)))
  else if e.leadsWithMinus then some (A.neg (A.apply .atan [A.neg e]))
  else
    match if e.isConstant then lookUp (arcTangentTable A) e else none with
    | some r => some (turn A r)
    | none =>
      match coeffOfUnit? A e with
      | some c => some (A.mul Expr.imaginary (A.apply .atanh [c]))
      | none =>
        match angleOf? .tan e, angleOf? .cot e with
        | some x, _ => some (tangentAngle A x)
        | _, some x => some (belowQuarter A (A.sub (turn A (1 / 2)) (tangentAngle A x)))
        | _, _ => none

/-- The angle of a point whose first coordinate is a real multiple of a unit and whose second is one
too. -/
def realAngle (A : Arith) (y x : Expr) : Option Expr :=
  let fy := y.facts
  let fx := x.facts
  let isFinite := fun (f : Facts) => !(f.finite == some false)
  let slope := fun (_ : Unit) => A.apply .atan [A.div y x]
  if !(fx.real == some true && fy.real == some true) then none
  else if fx.isPositive && isFinite fx then some (slope ())
  else if fx.isNegative && isFinite fx && isFinite fy then
    if fy.isNegative then some (A.sub (slope ()) Expr.pi)
    else if fy.isNonnegative then some (A.add (slope ()) Expr.pi)
    else none
  else if fx.zero == some true && isFinite fy then
    if fy.isPositive then some (turn A (1 / 2))
    else if fy.isNegative then some (turn A (-1 / 2))
    else if fy.zero == some true then some Expr.undefined
    else none
  else none

/-- The angle of a point on the axis, whose second coordinate is zero. -/
def axisAngle (A : Arith) (x : Expr) : Option Expr :=
  let f := x.facts
  if f.real == some true && f.zero == some false then
    some (A.mul Expr.pi (A.sub Expr.one (A.apply .heaviside [x])))
  else if x.isConstant then
    if (A.apply .re [x]).isNegative then some Expr.pi
    else if f.zero == some true then some Expr.undefined
    else some Expr.zero
  else none

/-- The angle of a point. -/
def atan2 (A : Arith) (y x : Expr) : Option Expr :=
  let fy := y.facts
  let isTurning := fun (e : Expr) => e.isConstant && e.facts.imaginary == some true
  if x == .const .negInfinity then
    if fy.zero == some true then some Expr.pi
    else
      let step := A.apply .heaviside [A.apply .re [y]]
      some (A.sub (A.product [Expr.int 2, Expr.pi, step]) Expr.pi)
  else if x == Expr.infinity then some Expr.zero
  else
    let (y, x) := if isTurning x && isTurning y then (A.apply .im [y], A.apply .im [x]) else (y, x)
    match realAngle A y x with
    | some v => some v
    | none =>
      match if y.facts.zero == some true then axisAngle A x else none with
      | some v => some v
      | none =>
        if x.isConstant && y.isConstant then
          let two := Expr.int 2
          let size := A.sqrt (A.add (A.power x two) (A.power y two))
          let point := A.add x (A.mul Expr.imaginary y)
          some (A.product [Expr.minusOne, Expr.imaginary, A.apply .log [A.div point size]])
        else none

end ErrorBars.Canonical
