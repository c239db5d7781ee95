import ErrorBars.Expr.Canonical.Turn

/-!
# Remainders of numbers

The remainder of a division that rounds down has the sign of the divisor.  It is worked out for
numbers and for closed real expressions.
-/

set_option autoImplicit false

namespace ErrorBars.Canonical

/-- The remainder of two approximate numbers.  It is zero if their quotient, at their precision, is
whole. -/
def modApprox (x y : Binary) (bits : Nat) : Expr :=
  let quotient := Binary.div bits x y
  if quotient.isInteger then .float Binary.zero bits
  else
    let size := (max x.magnitude y.magnitude).natAbs
    if 20000 < size then Expr.zero
    else
      let n := (Binary.div (bits + 20 + size) x y).floor
      Expr.approx (x.sub (y.mul (Binary.ofInt n))) bits

/-- The remainder of two finite numbers, the second not zero. -/
def modFinite (p q : Expr) : Option Expr :=
  match p, q with
  | .rat a, .rat b => some (.rat (ratMod a b))
  | .float x m, .float y n => some (modApprox x y (max m n))
  | p, q =>
    match p.exactNumber?, q.exactNumber? with
    | some a, some b =>
      let bits := max p.precision q.precision
      some (Expr.approx (Binary.ofRat (bits + 10) (ratMod a b)) bits)
    | _, _ => none

/-- The whole number in a closed real expression, cut towards zero. -/
def truncated? (e : Expr) : Option Int :=
  if e.isConstant && e.facts.real == some true && e.facts.finite == some true then
    match (Expr.rawFn .floor [if e.isNegative then Expr.rawMul [Expr.minusOne, e] else e]).evaluator
        60 332 with
    | .ok v =>
      match v.values.1 with
      | .number x => some (if e.isNegative then -x.floor else x.floor)
      | _ => none
    | .error _ => none
  else none

/-- The remainder where both operands are closed, or nothing remains. -/
def modNumbers (A : Arith) (p q : Expr) : Option Expr :=
  if p == Expr.undefined || q == Expr.undefined || p.facts.finite == some false
      || q.facts.finite == some false then some Expr.undefined
  else if p == Expr.zero || p == q || p == A.neg q || (p.isWhole && q == Expr.one) then
    some Expr.zero
  else if p.isNumber && q.isNumber then modFinite p q
  else
    let quotient := A.div p q
    if quotient.isWhole then some Expr.zero
    else
      (truncated? quotient).map fun n =>
        let rest := A.sub p (A.mul (Expr.int n) q)
        if (A.mul rest q).isNegative then A.add rest q else rest

/-- A remainder of a remainder, where one of the two divisions can be left out. -/
def modNested (A : Arith) (p q : Expr) : Option Expr :=
  match p, q with
  | .app (.fn .modulo) [a, .rat r], .rat m =>
    if ratMod r m = 0 then some (A.apply .modulo [a, q])
    else if 0 ≤ r * (m - r) then some p
    else none
  | .app .mul [.rat s, .app (.fn .modulo) [a, .rat r]], .rat m =>
    if s ≠ -1 then none
    else if ratMod r m = 0 then some (A.apply .modulo [A.neg a, q])
    else if r * (m + r) ≤ 0 then some p
    else none
  | _, _ => none

/-- Remainder. -/
def modulo (A : Arith) (p q : Expr) : Option Expr :=
  match modNumbers A p q with
  | some v => some v
  | none => modNested A p q

end ErrorBars.Canonical
