import ErrorBars.Expr.Simplify.Fraction

/-!
# The length of an expression

Of two forms of an expression the one with fewer operations is preferred.  A minus, a quotient and a
difference count as one operation each, as they are written; numbers and variables count nothing.
-/

set_option autoImplicit false

namespace ErrorBars.Expr

/-- The parts that a function has beyond its arguments: the value of a step at its edge is one
half. -/
def hiddenOps : Func → Nat
  | .heaviside => 1
  | _ => 0

/-- The number of operations, to a depth. -/
def opCountTo : Nat → Expr → Nat
  | 0, _ => 0
  | fuel + 1, e =>
    let go := opCountTo fuel
    let total := fun (es : List Expr) => es.foldl (fun n x => n + go x) 0
    let quotient := fun (e : Expr) =>
      let (n, d) := fraction e
      match n.int? with
      | some k => 1 + (if k < 0 then 1 else 0) + go d
      | none =>
        if d == one then
          match e with
          | .app .mul fs => fs.length - 1 + total fs
          | e => go e
        else 1 + go n + (if d.isInteger then 0 else go d)
    match e with
    | .rat q => (if q < 0 then 1 else 0) + (if q.den = 1 then 0 else 1)
    | .const .e => 1
    | .app .add ts =>
      let minus := ts.filter hasNegativeCoeff
      let size :=
        ts.length - 1 + total (ts.map fun t => if t.hasNegativeCoeff then flipSign t else t)
      if minus.length = ts.length then size + 1 else size
    | .app .mul fs =>
      if (Expr.app .mul fs).hasNegativeCoeff then 1 + quotient (flipSign (.app .mul fs))
      else quotient (.app .mul fs)
    | .app .pow [b, x] => if x == minusOne then 1 + go b else 1 + go b + go x
    | .app (.fn .max) as => as.length - 1 + total as
    | .app (.fn .min) as => as.length - 1 + total as
    | .app (.fn f) as => 1 + hiddenOps f + total as
    | .app .derivative as => 1 + total as
    | .app .piecewise as => 1 + total as
    | .app _ as => total as
    | _ => 0

/-- The number of operations. -/
def opCount (e : Expr) : Nat := opCountTo (3 * e.size + 3) e

/-- The first of the shortest forms. -/
def shortest (first : Expr) (others : List Expr) : Expr :=
  (others.foldl (fun (best : Expr × Nat) e =>
    let n := e.opCount
    if n < best.2 then (e, n) else best) (first, first.opCount)).1

end ErrorBars.Expr
