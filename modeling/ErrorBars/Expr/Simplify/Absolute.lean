import ErrorBars.Expr.Simplify.OpCount

/-!
# Joining absolute values

The product of absolute values is the absolute value of the product.  `joinAbsolutes` writes it so
in every product, and takes a reciprocal inside too: the parts of an expression may then hold an
absolute value that is not in canonical form, which the next step brings into it.
-/

set_option autoImplicit false

namespace ErrorBars.Expr

/-- What a factor that is a real power of an absolute value holds inside. -/
def insideAbsolute? : Expr → Option Expr
  | .app (.fn .abs) [x] => some x
  | .app .pow [.app (.fn .abs) [x], e] =>
    if e.facts.real == some true then some (power x e) else none
  | _ => none

/-- Whether an expression is a power with an exponent below zero. -/
def isReciprocal : Expr → Bool
  | .app .pow [_, e] => e.isNegative
  | _ => false

/-- A product with its absolute values joined, if there are several of them or one below the
line. -/
def joinFactorAbsolutes (fs : List Expr) (e : Expr) : Expr :=
  let inside := fs.filterMap insideAbsolute?
  let others := fs.filter fun f => (insideAbsolute? f).isNone
  if inside.length < 2 && !inside.any isReciprocal then e
  else
    let arg := product inside
    let size := apply .abs [arg]
    if !size.hasFn [.abs] then product (size :: others)
    else
      let size := if size.isFnOf .abs then size else rawFn .abs [arg]
      productOf (sortArgs (size :: others))

/-- Joins the absolute values in every product. -/
def joinAbsolutes (e : Expr) : Expr :=
  let inProducts := e.bottomUp fun
    | .app .mul fs => joinFactorAbsolutes fs (.app .mul fs)
    | e => e
  inProducts.bottomUp fun
    | .app .pow as => joinFactorAbsolutes [.app .pow as] (.app .pow as)
    | e => e

/-- The shorter form with absolute values joined or not. -/
def settleAbsolutes (e : Expr) : Expr :=
  if e.hasFn [.abs] then shortest e [joinAbsolutes e] else e

end ErrorBars.Expr
