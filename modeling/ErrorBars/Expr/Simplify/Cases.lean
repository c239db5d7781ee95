import ErrorBars.Expr.Derivative
import ErrorBars.Expr.Point
import ErrorBars.Expr.Simplify.Absolute
import ErrorBars.Expr.Simplify.Cancel

/-!
# Cases

A sign function is zero where its argument is, and elsewhere the argument over its absolute value.
`casesOf` splits an expression by this into cases, each of which holds under some equations; the
last one holds wherever no other does.

* `Equation.simplify` — an equation solved for a variable, as far as it is linear.
* `simplifyCases` — cases simplified on their own.  A case is left out if its value is the one that
  the next case has under the same equations.
-/

set_option autoImplicit false

namespace ErrorBars.Expr

/-! ## Equations -/

/-- The equation of two expressions. -/
structure Equation where
  /-- one side -/
  left : Expr
  /-- the other side -/
  right : Expr

namespace Equation

/-- The condition that an equation holds. -/
def condition (q : Equation) : Expr := .app .equal [q.left, q.right]

/-- Adds a number to the one in front of a variable. -/
def addCoeff (name : String) (c : Expr) : List (String × Expr) → List (String × Expr)
  | [] => [(name, c)]
  | (s, d) :: rest => if s = name then (s, d + c) :: rest else (s, d) :: addCoeff name c rest

/-- The numbers in front of the variables and the constant term; `none` if a term is not linear. -/
def linear? (e : Expr) : Option (List (String × Expr) × Expr) :=
  e.terms.foldl (fun acc t => do
    let (cs, d) ← acc
    if t.isConstant then return (cs, d + t)
    else
      match t.factors.filter (fun f => !f.isConstant) with
      | [.symbol s] => return (addCoeff s (product (t.factors.filter isConstant)) cs, d)
      | _ => none) (some ([], zero))

/-- The rational numbers in front of the powers of a variable and the constant term; `none` if the
expression is no polynomial in it. -/
def polynomial? (name : String) (e : Expr) : Option (List (Rat × Expr) × Rat) :=
  e.terms.foldl (fun acc t => do
    let (cs, d) ← acc
    match t.coeffMul with
    | (.rat c, m) =>
      if m == one then return (cs, d + c)
      else
        match m.baseExp with
        | (.symbol s, x) => if s = name && x.isInteger then return (cs ++ [(c, m)], d) else none
        | _ => none
    | _ => none) (some ([], 0))

/-- The equation with its better side in front and the better sign. -/
def oriented (q : Equation) : Equation :=
  let q := if q.right.isConstant then q
    else if q.left.isConstant then ⟨q.right, q.left⟩
    else if (SortKey.order q.left.sortKey q.right.sortKey).isLE then q
    else ⟨q.right, q.left⟩
  if q.left.leadsWithMinus then ⟨-q.left, -q.right⟩ else q

/-- The simpler form of the equation that an expression is zero. -/
def solve (e : Expr) : Equation :=
  let names := e.freeSymbols.mergeSort fun a b => decide (a ≤ b)
  match names, linear? e with
  | [s], some ([(_, m)], b) => ⟨.symbol s, -b / m⟩
  | _ :: _ :: _, some (cs, d) =>
    let coeffs := names.map fun s => (s, (cs.lookup s).getD zero)
    let scale := match coeffs.mapM fun c => c.2.rat? with
      | some qs => .rat (ratContent qs)
      | none => one
    let terms := (coeffs.filter fun c => !c.2.isZero).map fun c => c.2 / scale * .symbol c.1
    match terms with
    | [] => ⟨e, zero⟩
    | t :: rest =>
      if d.isZero then oriented ⟨t, -(sum rest)⟩ else oriented ⟨sum terms, -d / scale⟩
  | [s], _ =>
    match polynomial? s e with
    | some (cs, d) =>
      let scale := ratContent (cs.map (·.1))
      if scale = 0 then ⟨e, zero⟩
      else oriented ⟨sum (cs.map fun c => .rat (c.1 / scale) * c.2), .rat (-d / scale)⟩
    | none => ⟨e, zero⟩
  | _, _ => ⟨e, zero⟩

/-- A simpler form of an equation. -/
def simplify (simple : Expr → Expr) (q : Equation) : Equation :=
  solve (expand Expansion.algebraic (simple q.left - simple q.right))

/-- Whether an equation gives a variable the value of a number or of another variable. -/
def isAssignment (q : Equation) : Bool :=
  match q.left, q.right with
  | .symbol _, .symbol _ => true
  | .symbol _, .rat _ => true
  | .symbol _, .const c => c.isReal
  | _, _ => false

/-- An expression under an equation: one side in the place of the other. -/
def applyTo (q : Equation) (e : Expr) : Expr :=
  match q.left with
  | .symbol s =>
    match substitute s q.right e with
    | .ok v => v
    | .error _ => e
  | part => e.bottomUp fun x => if x == part then q.right else x

/-- Whether two equations contradict each other. -/
def contradicts (p q : Equation) : Bool :=
  p.left == q.left && p.right.isNumber && q.right.isNumber && !(p.right == q.right)

end Equation

/-! ## Cases -/

/-- A value and the equations under which it holds. -/
structure Case where
  /-- the value -/
  value : Expr
  /-- the equations -/
  equations : List Equation

/-- Carries out the derivatives that an expression holds. -/
def carryOut (e : Expr) : Expr :=
  e.bottomUp fun
    | .app .derivative [f, .symbol s] => derivative s f
    | e => e

/-- An expression with a value in the place of a part. -/
def putFor (part value e : Expr) : Expr :=
  e.bottomUp fun x =>
    if x == part then value
    else
      match x with
      | .app .derivative [f, .symbol s] => if f.hasSymbol s then x else zero
      | x => x

/-- The arguments of the sign functions of an expression. -/
def signArguments (e : Expr) : List Expr :=
  (e.partsWith (isFnOf .sign)).foldl (fun acc s =>
    match s with
    | .app _ [x] => if acc.any (· == x) then acc else acc ++ [x]
    | _ => acc) []

/-- An expression split by the sign functions in it. -/
def casesOf (e : Expr) : List Case :=
  e.signArguments.foldl (fun cases x =>
    cases.flatMap fun c =>
      let at' := fun (v : Expr) => putFor (rawFn .sign [x]) v c.value
      [⟨at' zero, c.equations ++ [⟨x, zero⟩]⟩, ⟨at' (x / apply .abs [x]), c.equations⟩]) [⟨e, []⟩]

/-- Cases whose equations contradict each other left out. -/
def possible (cases : List Case) : List Case :=
  cases.filter fun c =>
    !c.equations.any fun p => c.equations.any fun q => Equation.contradicts p q

/-- A value where the equations of a case hold. -/
def underEquations (all : Bool) (equations : List Equation) (e : Expr) : Expr :=
  equations.foldl (fun acc q => if all || q.isAssignment then q.applyTo acc else acc) e

/-- Cases from the last to the first, without those that have the value of the next one.  `next` is
the value that the cases before are compared with, and `all` tells whether equations of every form
are used. -/
def mergeCases (all : Bool) (next : Expr) : List Case → List Case
  | [] => []
  | c :: rest =>
    let under := underEquations all c.equations
    if under next == under c.value then mergeCases all next rest
    else c :: mergeCases all c.value rest

/-- Cases as one expression. -/
def ofCases (cases : List Case) : Expr :=
  match cases with
  | [⟨v, []⟩] => v
  | cases =>
    .app .piecewise (cases.flatMap fun c =>
      [c.value, match c.equations with
        | [] => .app .always []
        | q :: _ => q.condition])

/-- The cases of an expression, each simplified. -/
def simplifyCases (simple : Expr → Expr) (e : Expr) : Expr :=
  let carried := (casesOf e).map fun c => { c with value := carryOut c.value }
  let joined := carried.map fun c => { c with value := joinAbsolutes c.value }
  let count := fun (cs : List Case) => cs.foldl (fun n c => n + c.value.opCount) 0
  let cases := if count joined < count carried then joined else carried
  let cases := cases.map fun c =>
    { c with value := simple c.value, equations := c.equations.map (Equation.simplify simple) }
  let cases := (possible cases).map fun c =>
    { c with value := underEquations false c.equations c.value }
  match cases.reverse with
  | [] => e
  | last :: before =>
    let cases := (last :: mergeCases (cases.length ≤ 2) last.value before).reverse
    let factored := cases.map fun c => { c with value := factorTerms false c.value }
    ofCases (if 1 < cases.length && count factored < count cases then factored else cases)

end ErrorBars.Expr
