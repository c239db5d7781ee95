import ErrorBars.Expr.Simplify.Trig

/-!
# Exponentials and hyperbolic functions

Exponentials are halves of hyperbolic functions: `exp x` is `cosh x + sinh x`.  Wherever one of the
two ways of writing needs fewer operations it is taken (`chooseExponentials`).  Powers of `1 + exp
x` next to the right power of `exp x` are powers of a hyperbolic cosine (`gatherExponentials`).
-/

set_option autoImplicit false

namespace ErrorBars.Expr

/-- Exponentials as sums of hyperbolic functions. -/
def exponentialsToHyperbolic (e : Expr) : Expr :=
  e.bottomUp fun
    | .app (.fn .exp) [x] => apply .cosh [x] + apply .sinh [x]
    | e => e

/-- Hyperbolic functions as sums of exponentials. -/
def hyperbolicToExponentials (e : Expr) : Expr :=
  e.bottomUp fun
    | .app (.fn f) [x] =>
      let plus := apply .exp [x]
      let minus := apply .exp [-x]
      match f with
      | .sinh => (plus - minus) / int 2
      | .cosh => (plus + minus) / int 2
      | .tanh => (plus - minus) / (plus + minus)
      | .coth => (plus + minus) / (plus - minus)
      | .sech => int 2 / (plus + minus)
      | .csch => int 2 / (plus - minus)
      | _ => .app (.fn f) [x]
    | e => e

/-- The shortest form of a node. -/
def chooseExponentials (e : Expr) : Expr :=
  let asExponentials := if e.hasHyperbolic && !e.hasCircular then
    [hyperbolicToExponentials e] else []
  let asHyperbolic := if e.hasFn [.exp] && !e.hasCircular then [exponentialsToHyperbolic e] else []
  shortest e (asExponentials ++ asHyperbolic)

/-- Powers of a product, each base once. -/
abbrev PowerTable := List (Expr × Expr)

/-- The exponent of a base. -/
def PowerTable.exponent (t : PowerTable) (b : Expr) : Expr :=
  match t.find? fun p => p.1 == b with
  | some p => p.2
  | none => zero

/-- Multiplies by a power. -/
def PowerTable.mul (t : PowerTable) (b e : Expr) : PowerTable :=
  if t.any fun p => p.1 == b then t.map fun p => if p.1 == b then (p.1, p.2 + e) else p
  else t ++ [(b, e)]

/-- The sign and the exponent of an expression that is an exponential up to its sign. -/
def signedExponent? (e : Expr) : Option (Bool × Expr) :=
  let exponent? := fun (e : Expr) => match e with
    | .const .e => some one
    | .app (.fn .exp) [x] => some x
    | _ => none
  match exponent? e with
  | some x => some (false, x)
  | none => (exponent? (-e)).map fun x => (true, x)

/-- Takes one base of a product: a sum `c * (1 + exp x)` or `c * (1 - exp x)` becomes a hyperbolic
function if the other powers allow it. -/
def gatherBase (table : PowerTable) (base exponent : Expr) : PowerTable :=
  match base with
  | .app .add [c, d] =>
    match signedExponent? (d / c) with
    | none => table
    | some (negative, x) =>
      let grown := table.exponent euler
      let opposite := one + (if negative then apply .exp [x] else -(apply .exp [x]))
      let table : PowerTable := table.filter fun p => !(p.1 == base)
      let half := x / int 2
      if grown == -x * exponent / int 2 then
        let table : PowerTable := table.filter fun p => !(p.1 == euler)
        let new := if negative then int (-2) * c * apply .sinh [half]
          else int 2 * c * apply .cosh [half]
        table.mul new exponent
      else if table.exponent opposite == -exponent then
        let table : PowerTable := table.filter fun p => !(p.1 == opposite)
        let new := if negative then -c * apply .tanh [half] else -c / apply .tanh [half]
        table.mul new exponent
      else
        let unit := one + (if negative then -(apply .exp [x]) else apply .exp [x])
        (table.mul unit exponent).mul c exponent
  | _ => table

/-- Powers of `1 + exp x` in a product as hyperbolic functions. -/
def gatherExponentials (e : Expr) : Expr :=
  match e with
  | .app .mul fs =>
    let powers : PowerTable := fs.foldl (fun t f =>
      let (b, x) := f.baseExp
      t.mul b x) []
    let gathered := powers.foldl (fun t p =>
      if t.any fun q => q.1 == p.1 then gatherBase t p.1 p.2 else t) powers
    product (gathered.map fun p => power p.1 p.2)
  | e => e

/-- A shorter form of an expression with exponentials, circular and hyperbolic functions, which
brings in no imaginary unit. -/
def simplifyExponentials (e : Expr) : Expr :=
  let s := (e.bottomUp chooseExponentials).bottomUp gatherExponentials
  let s := if s.hasHyperbolic then onHyperbolic quotientsToTangents s else s
  let s := if s.hasCircular then quotientsToTangents s else s
  if s.has imaginary && !e.has imaginary then e else s

end ErrorBars.Expr
