import ErrorBars.Expr.Canonical

/-!
# Signs in front of sums

Of `x - y` and `y - x` one is the better way of writing both (`leadsWithMinus` tells which).
`settleSigns` writes every sum inside an expression in this way, so that sums that differ only in
their sign become equal and can cancel.  The minus goes to what the sum is a part of; a sum that is
not part of anything keeps its terms.
-/

set_option autoImplicit false

namespace ErrorBars.Expr

/-- Puts a minus in front of a sum that is better written so. -/
def liftMinus (e : Expr) : Expr :=
  match e with
  | .app .add ts =>
    if (Expr.app .add ts).leadsWithMinus then
      match -(Expr.app .add ts) with
      | .app .add us => rawMul [minusOne, .app .add us]
      | _ => .app .add ts
    else .app .add ts
  | e => e

/-- Takes a minus that stands in front of a sum back into the sum. -/
def lowerMinus (e : Expr) : Expr :=
  match e with
  | .app .mul [c, .app .add ts] => if c == minusOne then -(Expr.app .add ts) else e
  | e => e

/-- The better sign for every sum inside an expression. -/
def settleSigns (e : Expr) : Expr :=
  let settle := fun (e : Expr) => (e.bottomUp liftMinus).bottomUp lowerMinus
  match settle e with
  | .app .add ts => sum (ts.map settle)
  | e => e

end ErrorBars.Expr
