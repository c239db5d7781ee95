import ErrorBars.Expr.Canonical.Turn

/-!
# Closed complex numbers

A closed sum whose terms are real or real multiples of the imaginary unit is split into its two
parts.
-/

set_option autoImplicit false

namespace ErrorBars.Canonical

/-- A number by its real and its imaginary part. -/
structure Cartesian where
  /-- the real part -/
  re : Expr
  /-- the imaginary part -/
  im : Expr

/-- Whether an expression is known to be a real number. -/
def isRealNumber (e : Expr) : Bool := e.isConstant && e.facts.real == some true

/-- A sum split into the terms that are free of the imaginary unit and the factor of it in the
others, both real. -/
def cartesian? (A : Arith) (e : Expr) : Option Cartesian :=
  let ts := e.terms
  let re := A.sum (ts.filter fun t => !t.has Expr.imaginary)
  let rest := ts.filter fun t => t.has Expr.imaginary
  match rest.mapM (coeffOfUnit? A) with
  | none => none
  | some cs =>
    let im := A.sum cs
    if isRealNumber re && isRealNumber im then some ⟨re, im⟩ else none

/-- Products of the terms of two sums, added up. -/
def distribute (A : Arith) (a b : Expr) : Expr :=
  A.sum (a.terms.flatMap fun s => b.terms.map fun t => A.mul s t)

/-- A product with a single sum among its factors, multiplied out. -/
def multipliedOut (A : Arith) (e : Expr) : Expr :=
  match e with
  | .app .mul fs =>
    fs.foldl (distribute A) Expr.one
  | e => e

/-- Whether a closed expression is made of rational numbers and the imaginary unit by sums, products
and rational powers. -/
def isAlgebraic (e : Expr) : Bool :=
  !e.any fun
    | .rat _ => false
    | .const .i => false
    | .app .add _ => false
    | .app .mul _ => false
    | .app .pow [_, x] => !x.isRational
    | _ => true

/-- The absolute value of a number with the given parts. -/
def cartesianAbs (A : Arith) (z : Cartesian) : Expr :=
  A.sqrt (A.add (distribute A z.re z.re) (distribute A z.im z.im))

end ErrorBars.Canonical
