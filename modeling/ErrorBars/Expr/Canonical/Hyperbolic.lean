import ErrorBars.Expr.Canonical.Circular

/-!
# Hyperbolic functions

The hyperbolic functions and their inverses.  Of a multiple of the imaginary unit they are circular
functions, so they take whole imaginary quarter turns out of their argument, and an inverse finds
the argument of its function again up to such turns.
-/

set_option autoImplicit false

namespace ErrorBars.Canonical

/-! ## Hyperbolic functions -/

/-- The number of imaginary half turns that a term is. -/
def imaginaryTurns? (t : Expr) : Option Rat :=
  match t with
  | .app .mul [.const .i, .const .pi] => some 1
  | .app .mul [.const .pi, .const .i] => some 1
  | .app .mul [.rat q, .const .i, .const .pi] => some q
  | .app .mul [.rat q, .const .pi, .const .i] => some q
  | _ => none

/-- An imaginary number of half turns. -/
def imaginaryTurn (A : Arith) (r : Rat) : Expr := A.product [.rat r, Expr.imaginary, Expr.pi]

/-- A sum without its whole imaginary quarter turns, and the half turns that were taken off. -/
def peelImaginaryTurn (A : Arith) (e : Expr) : Option (Expr × Rat) :=
  match e with
  | .app .add ts =>
    (ts.findSome? imaginaryTurns?).bind fun k =>
      let m := k - ratMod k (1 / 2)
      if m = 0 then none else some (A.sub e (imaginaryTurn A m), m)
  | _ => none

/-- Hyperbolic sine. -/
def sinh (A : Arith) (e : Expr) : Option Expr :=
  if e.isZero then some Expr.zero
  else if e == Expr.infinity || e == Expr.undefined then some e
  else if e == Expr.complexInfinity then some Expr.undefined
  else
    match coeffOfUnit? A e with
    | some c => some (A.mul Expr.imaginary (A.apply .sin [c]))
    | none =>
      if e.leadsWithMinus then some (A.neg (A.apply .sinh [A.neg e]))
      else
        match peelImaginaryTurn A e with
        | some (x, m) =>
          let turn := imaginaryTurn A m
          some (A.add (A.mul (A.apply .sinh [turn]) (A.apply .cosh [x]))
            (A.mul (A.apply .cosh [turn]) (A.apply .sinh [x])))
        | none =>
          match e with
          | .app (.fn .asinh) [x] => some x
          | .app (.fn .acosh) [x] =>
            some (A.mul (A.sqrt (A.add x Expr.minusOne)) (A.sqrt (A.add x Expr.one)))
          | .app (.fn .atanh) [x] => some (A.div x (A.sqrt (oneWithSquare A true x)))
          | .app (.fn .acoth) [x] =>
            some (A.inv (A.mul (A.sqrt (A.add x Expr.minusOne)) (A.sqrt (A.add x Expr.one))))
          | _ => none

/-- Hyperbolic cosine. -/
def cosh (A : Arith) (e : Expr) : Option Expr :=
  if e.isZero then some Expr.one
  else if e == Expr.undefined then some e
  else if isEndless e then some Expr.infinity
  else if e == Expr.complexInfinity then some Expr.undefined
  else
    match coeffOfUnit? A e with
    | some c => some (A.apply .cos [c])
    | none =>
      if e.leadsWithMinus then some (A.apply .cosh [A.neg e])
      else
        match peelImaginaryTurn A e with
        | some (x, m) =>
          let turn := imaginaryTurn A m
          some (A.add (A.mul (A.apply .cosh [turn]) (A.apply .cosh [x]))
            (A.mul (A.apply .sinh [turn]) (A.apply .sinh [x])))
        | none =>
          match e with
          | .app (.fn .acosh) [x] => some x
          | .app (.fn .asinh) [x] => some (A.sqrt (oneWithSquare A false x))
          | .app (.fn .atanh) [x] => some (A.inv (A.sqrt (oneWithSquare A true x)))
          | .app (.fn .acoth) [x] =>
            some (A.div x (A.mul (A.sqrt (A.add x Expr.minusOne)) (A.sqrt (A.add x Expr.one))))
          | _ => none

/-- The hyperbolic tangent of an inverse function. -/
def tanhOfInverse (A : Arith) (e : Expr) : Option Expr :=
  match e with
  | .app (.fn .atanh) [x] => some x
  | .app (.fn .acoth) [x] => some (A.inv x)
  | .app (.fn .asinh) [x] => some (A.div x (A.sqrt (oneWithSquare A false x)))
  | .app (.fn .acosh) [x] =>
    some (A.div (A.mul (A.sqrt (A.add x Expr.minusOne)) (A.sqrt (A.add x Expr.one))) x)
  | _ => none

/-- Hyperbolic tangent. -/
def tanh (A : Arith) (e : Expr) : Option Expr :=
  if e.isZero then some Expr.zero
  else if e == Expr.undefined then some e
  else if e == Expr.infinity then some Expr.one
  else if e == Expr.complexInfinity then some Expr.undefined
  else
    match coeffOfUnit? A e with
    | some c =>
      some (if c.leadsWithMinus then
          A.neg (A.mul Expr.imaginary (A.apply .tan [A.neg c]))
        else A.mul Expr.imaginary (A.apply .tan [c]))
    | none =>
      if e.leadsWithMinus then some (A.neg (A.apply .tanh [A.neg e]))
      else
        match peelImaginaryTurn A e with
        | some (x, m) => some (A.apply (if m.den = 1 then .tanh else .coth) [x])
        | none => tanhOfInverse A e

/-- Hyperbolic cotangent. -/
def coth (A : Arith) (e : Expr) : Option Expr :=
  if e.isZero then some Expr.complexInfinity
  else if e == Expr.undefined then some e
  else if e == Expr.infinity then some Expr.one
  else if e == Expr.complexInfinity then some Expr.undefined
  else
    match coeffOfUnit? A e with
    | some c => some (A.neg (A.mul Expr.imaginary (A.apply .cot [c])))
    | none =>
      if e.leadsWithMinus then some (A.neg (A.apply .coth [A.neg e]))
      else
        match peelImaginaryTurn A e with
        | some (x, m) => some (A.apply (if m.den = 1 then .coth else .tanh) [x])
        | none => (tanhOfInverse A e).map A.inv

/-- Hyperbolic secant. -/
def sech (A : Arith) (e : Expr) : Option Expr :=
  if e.leadsWithMinus then some (A.apply .sech [A.neg e])
  else
    match e with
    | .app (.fn .asech) [x] => some x
    | e => (cosh A e).map A.inv

/-- Hyperbolic cosecant. -/
def csch (A : Arith) (e : Expr) : Option Expr :=
  if e.leadsWithMinus then some (A.neg (A.apply .csch [A.neg e]))
  else
    match e with
    | .app (.fn .acsch) [x] => some x
    | e => (sinh A e).map A.inv

/-! ## Inverse hyperbolic functions -/

/-- The argument of a hyperbolic function of a closed number. -/
def hyperbolicArgument? (f : Func) (e : Expr) : Option Expr :=
  match e with
  | .app (.fn g) [x] => if f = g && x.isConstant then some x else none
  | _ => none

/-- A closed number by its parts, unless it is real. -/
def nonreal? (A : Arith) (x : Expr) : Option Cartesian :=
  (cartesian? A x).filter fun z => !z.im.isZero

/-- How many whole times a period goes into a closed real number. -/
def periods? (A : Arith) (e period : Expr) : Option Int := (A.apply .floor [A.div e period]).int?

/-- A closed number without so many imaginary half turns. -/
def withoutTurns (A : Arith) (x : Expr) (r : Rat) : Expr := A.sub x (imaginaryTurn A r)

/-- The argument of a hyperbolic sine. -/
def sinhArgument (A : Arith) (x : Expr) : Option Expr :=
  if x.facts.real == some true then some x
  else do
    let z ← nonreal? A x
    let n ← periods? A (A.add z.im (turn A (1 / 2))) Expr.pi
    let m := withoutTurns A x n
    return if n % 2 = 0 then m else A.neg m

/-- The argument of a hyperbolic cosine. -/
def coshArgument (A : Arith) (x : Expr) : Option Expr :=
  if x.facts.real == some true then some (A.apply .abs [x])
  else do
    let z ← nonreal? A x
    let n ← periods? A z.im Expr.pi
    if n % 2 = 0 then
      let m := withoutTurns A x n
      return if z.re.isNegative then A.neg m else m
    else
      let m := withoutTurns A x (n + 1)
      return if z.re.isPositive then m else A.neg m

/-- The argument of a hyperbolic tangent. -/
def tanhArgument (A : Arith) (x : Expr) : Option Expr :=
  if x.facts.real == some true then some x
  else do
    let z ← nonreal? A x
    let n ← periods? A z.im (turn A (1 / 2))
    return withoutTurns A x (mkRat (if n % 2 = 0 then n else n + 1) 2)

/-- Inverse hyperbolic sine. -/
def asinh (A : Arith) (e : Expr) : Option Expr :=
  if e.isZero then some Expr.zero
  else if e == Expr.one then
    some (A.apply .log [A.add (A.sqrt (Expr.int 2)) Expr.one])
  else if e == Expr.minusOne then
    some (A.apply .log [A.add (A.sqrt (Expr.int 2)) Expr.minusOne])
  else if isEndless e || e == Expr.undefined || e == Expr.complexInfinity then some e
  else
    match coeffOfUnit? A e with
    | some c => some (A.mul Expr.imaginary (A.apply .asin [c]))
    | none =>
      if e.leadsWithMinus then some (A.neg (A.apply .asinh [A.neg e]))
      else (hyperbolicArgument? .sinh e).bind (sinhArgument A)

/-- Exact angles of positive cosines, as fractions of a half turn. -/
def arcosineTable (A : Arith) : List (Expr × Rat) :=
  let root := fun (n : Int) => A.sqrt (Expr.int n)
  let linear := fun (a b : Rat) (n : Int) => A.add (.rat a) (A.mul (.rat b) (root n))
  [(Expr.half, 1 / 3),
   (A.mul Expr.half (root 2), 1 / 4),
   (A.mul Expr.half (root 3), 1 / 6),
   (A.div (linear (-1) 1 3) (root 8), 5 / 12),
   (A.mul Expr.half (A.sqrt (linear 2 1 2)), 1 / 8),
   (A.mul Expr.half (A.sqrt (linear 2 (-1) 2)), 3 / 8),
   (A.div (linear 1 1 3) (A.mul (Expr.int 2) (root 2)), 1 / 12),
   (linear (1 / 4) (1 / 4) 5, 1 / 5)]

/-- The inverse hyperbolic cosine of an infinite multiple of the imaginary unit. -/
def acoshOfInfinite? (A : Arith) (e : Expr) : Option Expr :=
  let quarter := imaginaryTurn A (1 / 2)
  match coeffOfUnit? A e with
  | some (.const .infinity) => some (A.add Expr.infinity quarter)
  | some (.const .negInfinity) => some (A.sub Expr.infinity quarter)
  | _ => none

/-- Inverse hyperbolic cosine. -/
def acosh (A : Arith) (e : Expr) : Option Expr :=
  let onUnit := fun (i : Expr) =>
    A.apply .log [A.mul i (A.add Expr.one (A.sqrt (Expr.int 2)))]
  if e.isZero then some (A.mul (turn A (1 / 2)) Expr.imaginary)
  else if e == Expr.one then some Expr.zero
  else if e == Expr.minusOne then some (A.mul Expr.pi Expr.imaginary)
  else if isEndless e then some Expr.infinity
  else if e == Expr.undefined || e == Expr.complexInfinity then some e
  else if e == Expr.imaginary || A.neg e == Expr.imaginary then some (onUnit e)
  else if !e.isConstant then none
  else
    match acoshOfInfinite? A e with
    | some v => some v
    | none =>
      match lookUp (arcosineTable A) e with
      | some r => some (A.mul (turn A r) Expr.imaginary)
      | none =>
        match lookUp (arcosineTable A) (A.neg e) with
        | some r => some (A.mul (turn A (1 - r)) Expr.imaginary)
        | none => (hyperbolicArgument? .cosh e).bind (coshArgument A)

/-- Inverse hyperbolic tangent. -/
def atanh (A : Arith) (e : Expr) : Option Expr :=
  if e.isZero then some Expr.zero
  else if e == Expr.one then some Expr.infinity
  else if e == Expr.minusOne then some (.const .negInfinity)
  else if e == Expr.undefined then some e
  else if e == Expr.infinity then
    some (A.neg (A.mul Expr.imaginary (A.apply .atan [e])))
  else if e == Expr.complexInfinity then some (A.mul Expr.imaginary (A.apply .atan [e]))
  else
    match coeffOfUnit? A e with
    | some c => some (A.mul Expr.imaginary (A.apply .atan [c]))
    | none =>
      if e.leadsWithMinus then some (A.neg (A.apply .atanh [A.neg e]))
      else (hyperbolicArgument? .tanh e).bind (tanhArgument A)

end ErrorBars.Canonical
