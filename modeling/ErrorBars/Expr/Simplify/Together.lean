import ErrorBars.Expr.Simplify.CommonFactor

/-!
# Common denominators

`together` brings every sum in an expression over one denominator, from the leaves up, and puts
common factors in front.  Nothing is multiplied out.  `shallowTogether` leaves the arguments of
functions and exponents alone; `outerTogether` leaves the terms of the sums as they are.
-/

set_option autoImplicit false

namespace ErrorBars.Expr

/-- One sum over one denominator. -/
def togetherNode (h : Head) (as : List Expr) : Expr :=
  match h with
  | .add => gcdTerms false true true as
  | h => rebuild h as

/-- Every sum over one denominator. -/
def together (e : Expr) : Expr := e.foldUp id togetherNode

mutual

/-- The outermost sums over one denominator with their common factors in front. -/
def outerTogether : Expr → Expr
  | .app .add ts => gcdTerms false true true ts
  | .app .mul (c :: fs) =>
    if c.isNumber then scale true false c (product (outerTogetherAll fs))
    else product (outerTogether c :: outerTogetherAll fs)
  | .app h as => rebuild h (outerTogetherAll as)
  | e => e

/-- The outermost sums in several expressions over one denominator. -/
def outerTogetherAll : List Expr → List Expr
  | [] => []
  | e :: es => outerTogether e :: outerTogetherAll es

end

mutual

/-- Sums over one denominator, not inside functions and exponents. -/
def shallowTogether : Expr → Expr
  | .app .add ts => gcdTerms false true true (shallowTogetherAll ts)
  | .app .mul fs => product (shallowTogetherAll fs)
  | .app .pow [b, e] => power (shallowTogether b) e
  | e => e

/-- Each of several expressions over one denominator. -/
def shallowTogetherAll : List Expr → List Expr
  | [] => []
  | e :: es => shallowTogether e :: shallowTogetherAll es

end

end ErrorBars.Expr
