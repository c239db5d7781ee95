import ErrorBars.Expr.Simplify.Cancel

/-!
# Remainders of expressions

`remainder p q` is the remainder of the division of `p` by `q`, rounded down.  Common divisors of
`p` and `q` are put in front of it, terms of `p` are reduced by themselves where that makes them
simpler, and a common minus is taken out.
-/

set_option autoImplicit false

namespace ErrorBars.Expr

/-- The greatest common divisor of two polynomials in whatever occurs in them.  Numbers count only
if all of them are whole; with approximate numbers the result is approximate. -/
def commonDivisor (p q : Expr) : Expr :=
  let ps := (expand Expansion.all p).terms.map generatorTerm
  let qs := (expand Expansion.all q).terms.map generatorTerm
  let gens := generators (ps ++ qs)
  let bits := termPrecision (ps ++ qs)
  let limit := denominatorLimit bits
  match exactCoeffs? limit ps, exactCoeffs? limit qs with
  | some (cs, l), some (ds, m) =>
    let whole := fun (k : Nat) (c : Rat) => (c * k).num
    let f := polyOf gens.length gens (ps.zip (cs.map (whole l)))
    let g := polyOf gens.length gens (qs.zip (ds.map (whole m)))
    let h := Poly.gcd f g
    if bits ≠ 0 then approximate bits (ofPoly gens h h.leadingInt.natAbs)
    else if l = 1 ∧ m = 1 then ofPoly gens h 1
    else ofPoly gens h h.leadingInt.natAbs
  | _, _ => one

/-- The number of remainders in an expression. -/
def countRemainders (e : Expr) : Nat := (e.partsWith (isFnOf .modulo)).length

/-- A factor without the common factors of its terms inside. -/
def factored (e : Expr) : Expr :=
  let inner := fun (f : Expr) => if f.isAdd then gcdTerms false false false f.terms else f
  match e.coeffMul with
  | (c, rest) => if rest.isMul then keepCoeff c (product (rest.factors.map inner)) else inner e

/-- Numbers that are not rational are taken out of a remainder: what stands in front, and the new
operands. -/
def withoutNumbers (front p q : Expr) : Expr × Expr × Expr :=
  let (cp, p') := p.coeffMul
  let (cq, q') := q.coeffMul
  let inexact := cp.precision ≠ 0 || cq.precision ≠ 0
  match if inexact then Canonical.modFinite cp cq else none with
  | some r =>
    if r.isZero then
      match Canonical.truncated? (divNumbers cp cq) with
      | some n => (front * cq, p' * int n, q')
      | none => (front, p, q)
    else (front, cp * p', cq * q')
  | none => (front, p, q)

/-- Whether a number is an approximate one. -/
def isApproximateOne : Expr → Bool
  | .float x _ => x == Binary.one
  | _ => false

/-- The remainder of a division that rounds down, to a depth. -/
def remainderTo : Nat → Expr → Expr → Expr
  | 0, p, q => rawFn .modulo [p, q]
  | fuel + 1, p, q =>
    match Canonical.modulo Arith.standard p q with
    | some v => v
    | none =>
      let front := commonDivisor p q
      let trivial := front == one || isApproximateOne front
      let (p, q) := if trivial then (p, q) else (factored (p / front), factored (q / front))
      let was := (p, q)
      let (front, p, q) := if p.isAdd then
          let reduced := p.terms.map fun t =>
            let r := remainderTo fuel t q
            if t.countRemainders < r.countRemainders then t else r
          (front, if reduced == p.terms then p else sum reduced, q)
        else withoutNumbers front p q
      let (front, p, q) := if p.leadsWithMinus && q.leadsWithMinus then (-front, -p, -q)
        else (front, p, q)
      match Canonical.modNumbers Arith.standard p q with
      | some v => v * front
      | none =>
        if isApproximateOne front then rawFn .modulo [p * front, q]
        else
          front * (if (p, q) == was then rawFn .modulo [p, q] else remainderTo fuel p q)

/-- The remainder of a division that rounds down. -/
def remainder (p q : Expr) : Expr := remainderTo 6 p q

end ErrorBars.Expr
