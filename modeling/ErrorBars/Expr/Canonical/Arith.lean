import ErrorBars.Expr.SortKey

/-!
# Canonical constructors

Sums, products, powers and function applications are built by constructors that bring them into
canonical form.  The constructors need each other: a product adds exponents, a power of a product is
a product of powers.  `Arith` is a set of such constructors, and each constructor is written over a
given set; the standard set is reached by repeating this a fixed number of times, starting from
constructors that compute with numbers only (`Arith.plain`).
-/

set_option autoImplicit false

namespace ErrorBars

/-- Constructors of expressions. -/
structure Arith where
  /-- the sum of several terms -/
  sum : List Expr → Expr
  /-- the product of several factors -/
  product : List Expr → Expr
  /-- the power of a base with an exponent -/
  power : Expr → Expr → Expr
  /-- a function of arguments -/
  apply : Func → List Expr → Expr

namespace Arith

/-! ## Numbers alone -/

/-- The sum of rational numbers; other terms stand as they are. -/
def plainSum (es : List Expr) : Expr :=
  match es.mapM Expr.rat? with
  | some qs => .rat (qs.foldr (· + ·) 0)
  | none => Expr.sumOf es

/-- The product of rational numbers; other factors stand as they are, side by side. -/
def plainProduct (es : List Expr) : Expr :=
  match es.mapM Expr.rat? with
  | some qs => .rat (qs.foldl (· * ·) 1)
  | none => Expr.productOf (es.flatMap Expr.factors)

/-- A power as it stands, unless the exponent is zero or one. -/
def plainRawPower (b : Expr) (r : Rat) : Expr :=
  if r = 0 then Expr.one else if r = 1 then b else Expr.rawPow b (.rat r)

/-- A whole power of what is not a product: that of a number is computed, and that of a power with a
rational exponent has the product of the exponents. -/
def plainWholePower (n : Int) : Expr → Expr
  | .rat q => if q = 0 ∧ n < 0 then Expr.rawPow (.rat q) (Expr.int n) else .rat (q ^ n)
  | .app .pow [b, .rat r] => plainRawPower b (r * n)
  | b => plainRawPower b n

/-- A power with a whole exponent, of a product factor by factor; other powers stand as they are. -/
def plainPower (b e : Expr) : Expr :=
  match e.int?, b with
  | some n, .app .mul fs => plainProduct (fs.map (plainWholePower n))
  | some n, b => plainWholePower n b
  | none, b => Expr.rawPow b e

/-- The constructors that compute with rational numbers and leave everything else as it is. -/
def plain : Arith where
  sum := plainSum
  product := plainProduct
  power := plainPower
  apply := Expr.rawFn

/-! ## Written over given constructors -/

variable (A : Arith)

/-- The product of two factors. -/
def mul (a b : Expr) : Expr := A.product [a, b]

/-- The sum of two terms. -/
def add (a b : Expr) : Expr := A.sum [a, b]

/-- Change of sign. -/
def neg (a : Expr) : Expr := A.product [Expr.minusOne, a]

/-- The difference of two terms. -/
def sub (a b : Expr) : Expr := A.sum [a, A.neg b]

/-- Reciprocal. -/
def inv (a : Expr) : Expr := A.power a Expr.minusOne

/-- The quotient of two factors. -/
def div (a b : Expr) : Expr := A.product [a, A.inv b]

/-- The square root. -/
def sqrt (a : Expr) : Expr := A.power a Expr.half

/-- A number times an expression.  If that would leave a number of something else, the number stays
in front of its factors. -/
def timesNumber (c e : Expr) : Expr :=
  let m := A.mul c e
  if m.isNumber && !e.isNumber then Expr.rawMul (c :: e.factors) else m

/-- A number times an expression, which is left unexpanded: a number in front of a sum stays in
front of it, and a number in front of a product is multiplied. -/
def keepCoeff (c : Expr) (e : Expr) : Expr :=
  if e == Expr.one then c
  else if c == Expr.one then e
  else if c == Expr.minusOne then A.timesNumber c e
  else
    match e with
    | .app .add ts => Expr.rawMul [c, .app .add ts]
    | .app .mul (d :: rest) =>
      if d.isNumber then
        let n := Expr.mulNumbers d c
        if n == Expr.one then Expr.productOf rest else Expr.rawMul (n :: rest)
      else Expr.rawMul (c :: d :: rest)
    | e => A.timesNumber c e

end Arith

end ErrorBars
