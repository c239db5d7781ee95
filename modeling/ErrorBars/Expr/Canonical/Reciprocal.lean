import ErrorBars.Expr.Canonical.Hyperbolic

/-!
# Inverses of cotangents, secants and cosecants

The angles, circular and hyperbolic, whose cotangent, secant or cosecant is given.  They know the
arguments at which they are simple fractions of a turn, and find the angle of a closed function
again.
-/

set_option autoImplicit false

namespace ErrorBars.Canonical

/-! ## Circular angles -/

/-- Inverse cotangent. -/
def acot (A : Arith) (e : Expr) : Option Expr :=
  let quarter := turn A (1 / 2)
  if e.isZero then some quarter
  else if e == Expr.one then some (turn A (1 / 4))
  else if e == Expr.undefined then some e
  else if isEndless e || e == Expr.complexInfinity then some Expr.zero
  else if e.leadsWithMinus then some (A.neg (A.apply .acot [A.neg e]))
  else
    match if e.isConstant then lookUp (arcTangentTable A) e else none with
    | some r => some (turn A (if r < 0 then -1 / 2 - r else 1 / 2 - r))
    | none =>
      match coeffOfUnit? A e with
      | some c => some (A.neg (A.mul Expr.imaginary (A.apply .acoth [c])))
      | none =>
        match angleOf? .cot e, angleOf? .tan e with
        | some x, _ => some (tangentAngle A x)
        | _, some _ => some (belowQuarter A (A.sub quarter (A.apply .atan [e])))
        | _, _ => none

/-- Exact angles of positive cosecants, as fractions of a half turn. -/
def arcCosecantTable (A : Arith) : List (Expr × Rat) :=
  let root := fun (n : Int) => A.sqrt (Expr.int n)
  let linear := fun (a b : Rat) (n : Int) => A.add (.rat a) (A.mul (.rat b) (root n))
  let twoOver := fun (e : Expr) => A.div (Expr.int 2) e
  [(A.mul (.rat (2 / 3)) (root 3), 1 / 3),
   (root 2, 1 / 4),
   (A.sqrt (linear 2 (2 / 5) 5), 1 / 5),
   (A.inv (A.sqrt (linear (5 / 8) (-1 / 8) 5)), 1 / 5),
   (A.sqrt (linear 2 (-2 / 5) 5), 2 / 5),
   (A.inv (A.sqrt (linear (5 / 8) (1 / 8) 5)), 2 / 5),
   (Expr.int 2, 1 / 6),
   (A.sqrt (linear 4 2 2), 1 / 8),
   (twoOver (A.sqrt (linear 2 (-1) 2)), 1 / 8),
   (A.sqrt (linear 4 (-2) 2), 3 / 8),
   (twoOver (A.sqrt (linear 2 1 2)), 3 / 8),
   (linear 1 1 5, 1 / 10),
   (linear (-1) 1 5, 3 / 10),
   (linear 1 (-1) 5, -3 / 10),
   (A.add (root 6) (root 2), 1 / 12),
   (A.sub (root 6) (root 2), 5 / 12),
   (A.sub (root 2) (root 6), -5 / 12)]

/-- The inverse secant of a secant or cosecant of a closed angle, or of its opposite. -/
def arcSecantOfReciprocal (A : Arith) (e : Expr) : Option Expr :=
  let (minus, inner) := match e with
    | .app .mul [.rat q, f] => if q = -1 then (true, f) else (false, e)
    | e => (false, e)
  match angleOf? .sec inner, angleOf? .csc inner with
  | some x, _ => some (cosineAngle A (if minus then A.sub Expr.pi x else x))
  | _, some _ => some (A.sub (turn A (1 / 2)) (A.apply .acsc [inner]))
  | _, _ => none

/-- Inverse secant. -/
def asec (A : Arith) (e : Expr) : Option Expr :=
  let quarter := turn A (1 / 2)
  if e.isZero then some Expr.complexInfinity
  else if e == Expr.undefined then some e
  else if e == Expr.one then some Expr.zero
  else if e == Expr.minusOne then some Expr.pi
  else if isEndless e || e == Expr.complexInfinity then some quarter
  else
    let known := if e.isConstant then
        match lookUp (arcCosecantTable A) e with
        | some r => some (1 / 2 - r)
        | none => (lookUp (arcCosecantTable A) (A.neg e)).map (1 / 2 + ·)
      else none
    match known with
    | some r => some (turn A r)
    | none => arcSecantOfReciprocal A e

/-- Inverse cosecant. -/
def acsc (A : Arith) (e : Expr) : Option Expr :=
  let quarter := turn A (1 / 2)
  if e.isZero then some Expr.complexInfinity
  else if e == Expr.undefined then some e
  else if e == Expr.one then some quarter
  else if isEndless e || e == Expr.complexInfinity then some Expr.zero
  else if e.leadsWithMinus then some (A.neg (A.apply .acsc [A.neg e]))
  else
    match if e.isConstant then lookUp (arcCosecantTable A) e else none with
    | some r => some (turn A r)
    | none =>
      match angleOf? .csc e, angleOf? .sec e with
      | some x, _ => some (sineAngle A x)
      | _, some _ => some (A.sub quarter (A.apply .asec [e]))
      | _, _ => none

/-! ## Hyperbolic angles -/

/-- Inverse hyperbolic cotangent. -/
def acoth (A : Arith) (e : Expr) : Option Expr :=
  if e.isZero then some (imaginaryTurn A (1 / 2))
  else if e == Expr.undefined then some e
  else if e == Expr.one then some Expr.infinity
  else if isEndless e || e == Expr.complexInfinity then some Expr.zero
  else
    match coeffOfUnit? A e with
    | some c => some (A.neg (A.mul Expr.imaginary (A.apply .acot [c])))
    | none =>
      if e.leadsWithMinus then some (A.neg (A.apply .acoth [A.neg e])) else none

/-- Exact imaginary angles of positive hyperbolic secants, as fractions of a half turn. -/
def arsechTable (A : Arith) : List (Expr × Rat) :=
  let root := fun (n : Int) => A.sqrt (Expr.int n)
  let overFive := fun (sign : Rat) => A.add (Expr.int 2) (A.mul (.rat (sign * 2 / 5)) (root 5))
  let eighth := A.add (Expr.int 2) (root 2)
  [(A.sub (root 6) (root 2), 1 / 12),
   (A.sqrt (overFive (-1)), 1 / 10),
   (A.div (Expr.int 2) (A.sqrt eighth), 1 / 8),
   (A.div (Expr.int 2) (root 3), 1 / 6),
   (A.add (root 5) Expr.minusOne, 1 / 5),
   (root 2, 1 / 4),
   (A.sqrt (overFive 1), 3 / 10),
   (Expr.int 2, 1 / 3),
   (A.sqrt (A.mul (Expr.int 2) eighth), 3 / 8),
   (A.add Expr.one (root 5), 2 / 5),
   (A.add (root 6) (root 2), 5 / 12)]

/-- Inverse hyperbolic secant. -/
def asech (A : Arith) (e : Expr) : Option Expr :=
  let size := A.apply .log [A.add Expr.one (A.sqrt (Expr.int 2))]
  if e.isZero then some Expr.infinity
  else if e == Expr.undefined then some e
  else if e == Expr.one then some Expr.zero
  else if e == Expr.minusOne then some (imaginaryTurn A 1)
  else if isEndless e then some (imaginaryTurn A (1 / 2))
  else if e == Expr.complexInfinity then
    some (A.mul Expr.imaginary (Expr.bounds (turn A (-1 / 2)) (turn A (1 / 2))))
  else if e == Expr.imaginary then some (A.add (imaginaryTurn A (-1 / 2)) size)
  else if A.neg e == Expr.imaginary then some (A.add (imaginaryTurn A (1 / 2)) size)
  else if !e.isConstant then none
  else
    match lookUp (arsechTable A) e with
    | some r => some (imaginaryTurn A r)
    | none => (lookUp (arsechTable A) (A.neg e)).map fun r => imaginaryTurn A (1 - r)

/-- Exact angles of positive multiples of the imaginary unit that are hyperbolic cosecants, as
fractions of a half turn. -/
def arcschTable (A : Arith) : List (Expr × Rat) :=
  let root := fun (n : Int) => A.sqrt (Expr.int n)
  let overFive := fun (sign : Rat) => A.add (Expr.int 2) (A.mul (.rat (sign * 2 / 5)) (root 5))
  let eighth := fun (sign : Rat) => A.add (Expr.int 2) (A.mul (.rat sign) (root 2))
  let turned := fun (r : Rat) (e : Expr) => (A.mul Expr.imaginary e, r)
  [(Expr.imaginary, -1 / 2),
   turned (-1 / 12) (A.add (root 2) (root 6)),
   turned (-1 / 10) (A.add Expr.one (root 5)),
   turned (-1 / 8) (A.div (Expr.int 2) (A.sqrt (eighth (-1)))),
   turned (-1 / 6) (Expr.int 2),
   turned (-1 / 5) (A.sqrt (overFive 1)),
   turned (-1 / 4) (root 2),
   turned (-3 / 10) (A.add (root 5) Expr.minusOne),
   turned (-1 / 3) (A.div (Expr.int 2) (root 3)),
   turned (-3 / 8) (A.div (Expr.int 2) (A.sqrt (eighth 1))),
   turned (-2 / 5) (A.sqrt (overFive (-1))),
   turned (-5 / 12) (A.sub (root 6) (root 2))]

/-- Inverse hyperbolic cosecant. -/
def acsch (A : Arith) (e : Expr) : Option Expr :=
  if e.isZero then some Expr.complexInfinity
  else if e == Expr.undefined then some e
  else if e == Expr.one then some (A.apply .log [A.add Expr.one (A.sqrt (Expr.int 2))])
  else if isEndless e || e == Expr.complexInfinity then some Expr.zero
  else
    match if e.isConstant then lookUp (arcschTable A) e else none with
    | some r => some (imaginaryTurn A r)
    | none =>
      if e == Expr.int 2 then
        some (A.apply .log [A.div (A.add Expr.one (A.sqrt (Expr.int 5))) (Expr.int 2)])
      else if e.leadsWithMinus then some (A.neg (A.apply .acsch [A.neg e]))
      else none

end ErrorBars.Canonical
