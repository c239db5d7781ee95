import ErrorBars.Expr.Facts
import ErrorBars.Expr.NumberText
import ErrorBars.Expr.Order

/-!
# The order in which expressions are written

Written sums list their terms by descending degree and written products their factors by kind and
name.  The order is that of `SortKey`: the class of the expression, its parts, its exponent and the
number in front of it, compared in this order.

Terms of a sum are compared as monomials in all powers that occur in it (`orderedTerms`).
-/

set_option autoImplicit false

namespace ErrorBars

/-- What the place of an expression in a written sum or product depends on. -/
inductive SortKey where
  /-- the class, the text of an atom, the keys of the parts, the key of the exponent, which a number
  does not have, and the number in front -/
  | node (cls : Nat × Nat × String) (text : String) (parts : List SortKey)
      (exponent : Option SortKey) (coeff : Expr)

namespace SortKey

/-- Order of classes. -/
def compareClass (a b : Nat × Nat × String) : Ordering :=
  Expr.thenBy (compare a.1 b.1) (Expr.thenBy (compare a.2.1 b.2.1) (compare a.2.2 b.2.2))

/-- Order of numbers by value. -/
def compareNumbers (a b : Expr) : Ordering :=
  if a.lessNumber b then .lt else if b.lessNumber a then .gt else .eq

mutual

/-- Order of keys. -/
def order : SortKey → SortKey → Ordering
  | .node c s ps e n, .node d t qs f m =>
    Expr.thenBy (compareClass c d)
      (Expr.thenBy (compare ps.length qs.length)
        (Expr.thenBy (compare s t)
          (Expr.thenBy (orderAll ps qs)
            (Expr.thenBy (orderExponent e f) (compareNumbers n m)))))

/-- Order of lists of keys of one length. -/
def orderAll : List SortKey → List SortKey → Ordering
  | a :: as, b :: bs => Expr.thenBy (order a b) (orderAll as bs)
  | _, _ => .eq

/-- Order of the keys of exponents; what has none comes first. -/
def orderExponent : Option SortKey → Option SortKey → Ordering
  | none, none => .eq
  | none, some _ => .lt
  | some _, none => .gt
  | some a, some b => order a b

end

/-- The key of a number. -/
def ofNumber (n : Expr) : SortKey := .node (1, 0, "Number") "" [] none n

/-- The key of the exponent one. -/
def unit : SortKey := ofNumber Expr.one

/-- The key of an atom. -/
def ofAtom (kind text : String) : SortKey := .node (2, 0, kind) text [] (some unit) Expr.one

end SortKey

/-- The class of a function among functions: the elementary ones come first. -/
def Func.sortClass : Func → Nat
  | .exp => 10 | .log => 11
  | .sin => 20 | .cos => 21 | .tan => 22 | .cot => 23
  | .sinh => 30 | .cosh => 31 | .tanh => 32 | .coth => 33
  | .re => 41 | .im => 42 | .arg => 43
  | .max => 0 | .min => 0
  | _ => 10000

/-- The class of a head. -/
def Head.sortClass : Head → Nat × Nat × String
  | .mul => (3, 0, "Mul")
  | .add => (3, 1, "Add")
  | .pow => (3, 2, "Pow")
  | .fn .max => (5, 0, "Max")
  | .fn .min => (5, 0, "Min")
  | .fn .bounds => (5, 0, "AccumulationBounds")
  | .fn f => (4, f.sortClass, f.name)
  | .piecewise => (4, 10000, "Piecewise")
  | h => (5, 0, h.name)

namespace Expr

/-- A power from its base and exponent: a power of Euler's number is the exponential. -/
def naturalPow (b e : Expr) : Expr :=
  if e == one then b else if b == euler then rawFn .exp [e] else rawPow b e

/-- A factor as a power with an integer exponent: rational exponents leave a root in the base, and
other exponents everything but their integer coefficient. -/
def decomposePower (e : Expr) : Expr × Int :=
  let (b, x) := e.baseExp
  match x with
  | .rat q => if q.den = 1 then (b, q.num) else (naturalPow b (.rat (mkRat 1 q.den)), q.num)
  | .float .. => (e, 1)
  | x =>
    let (c, tail) := x.ratCoeffMul
    if c = 1 then (e, 1)
    else
      let tail := if c.den = 1 then tail
        else match tail with
          | .app .mul fs => rawMul (.rat (mkRat 1 c.den) :: fs)
          | t => rawMul [.rat (mkRat 1 c.den), t]
      (naturalPow b tail, c.num)

/-- A closed expression as a complex number, if it can be evaluated. -/
def complexValue? (e : Expr) : Option (Extended × Extended) :=
  match e.evaluator 57 332 with
  | .ok .complexInfinity => none
  | .ok v => some v.values
  | .error _ => none

/-- A term of a sum as a complex coefficient and powers. -/
structure Monomial where
  /-- the term -/
  term : Expr
  /-- the product of its numbers -/
  coeff : Extended × Extended
  /-- its powers -/
  powers : List (Expr × Int)

/-- Takes one factor into a monomial. -/
def Monomial.take (m : Monomial) (factor : Expr) : Monomial :=
  let asPower : Monomial :=
    let (b, n) := factor.decomposePower
    { m with powers := (m.powers.filter fun p => !(p.1 == b)) ++ [(b, n)] }
  if factor.isConstant then
    match factor.complexValue? with
    | some v => { m with coeff := Evaluation.mulPair 60 m.coeff v }
    | none => asPower
  else asPower

/-- A term as a monomial. -/
def monomial (term : Expr) : Monomial :=
  let (c, rest) := term.coeffMul
  let start : Monomial := ⟨term, (c.toExtended 60, .zero), []⟩
  if rest == one then start else rest.factors.foldl Monomial.take start

/-- Order of real values. -/
def compareValues (a b : Extended) : Ordering :=
  SortKey.compareNumbers (ofExtended 60 a) (ofExtended 60 b)

/-- Order of monomials as lists of exponents, the larger first, then by coefficient: real ones come
before others. -/
def compareMonomials (a b : List Int × (Extended × Extended)) : Ordering :=
  let rec exponents : List Int → List Int → Ordering
    | x :: xs, y :: ys => thenBy (compare y x) (exponents xs ys)
    | _, _ => .eq
  thenBy (exponents a.1 b.1)
    (thenBy (compare (if a.2.2.isZero then 0 else 1) (if b.2.2.isZero then 0 else 1))
      (thenBy (compareValues a.2.2 b.2.2) (compareValues a.2.1 b.2.1)))

/-- Whether a number is a number or a constant that is one. -/
def isNumberOrSymbol : Expr → Bool
  | .const c => c.isReal || (Expr.const c).isNumber
  | e => e.isNumber

/-- A sum of a positive number and a product with a negative number in front keeps the number in
front, as in `1 - x`. -/
def numberFirst? (ts : List Expr) : Option (List Expr) :=
  let numbersFirst := fun (es : List Expr) =>
    es.filter isNumberOrSymbol ++ es.filter fun e => !e.isNumberOrSymbol
  match numbersFirst ts with
  | [n, .app .mul fs] =>
    match numbersFirst fs with
    | [c, _] =>
      if n.isNumberOrSymbol && c.isNumber && c.isNegativeNumber && !c.isInfinite &&
          n.facts.isPositive && !n.isInfinite then
        some [n, .app .mul fs]
      else none
    | _ => none
  | _ => none

/-- Expressions in the order of their keys. -/
def sortByKey (key : Expr → SortKey) (es : List Expr) : List Expr :=
  (es.map fun e => (e, key e)).mergeSort (fun a b => (SortKey.order a.2 b.2).isLE) |>.map (·.1)

/-- Terms by descending degree, given the keys of their powers. -/
def orderTermsBy (key : Expr → SortKey) (ts : List Expr) : List Expr :=
  let ms := ts.map monomial
  let bases := (ms.flatMap fun m => m.powers.map (·.1)).foldl
    (fun acc b => if acc.any (· == b) then acc else acc ++ [b]) []
  let gens := sortByKey key bases
  let exponents := fun (m : Monomial) => gens.map fun g =>
    ((m.powers.find? fun p => p.1 == g).map (·.2)).getD 0
  let rows := ms.map fun m => (m.term, (exponents m, m.coeff))
  (rows.mergeSort fun a b => (compareMonomials a.2 b.2).isLE).map (·.1)

/-- The terms of a sum in the order in which they are written, given the keys of their powers. -/
def orderedTermsBy (key : Expr → SortKey) (e : Expr) : List Expr :=
  match e with
  | .app .add ts => (numberFirst? ts).getD (orderTermsBy key ts)
  | e => [e]

/-- The key of an expression, to a depth. -/
def sortKeyTo : Nat → Expr → SortKey
  | 0, e => SortKey.ofAtom "" e.kindName
  | fuel + 1, e =>
    if e.isNumber then SortKey.ofNumber e
    else
      let (coeff, body) := e.coeffMul
      let (body, exponent) := match body with
        | .app .pow [b, x] => (b, x)
        | b => (b, one)
      let exponentKey := if exponent == one then SortKey.unit else sortKeyTo fuel exponent
      match body with
      | .symbol s => .node (2, 0, "Symbol") s [] (some exponentKey) coeff
      | .dummy s => .node (2, 0, "Dummy") s [] (some exponentKey) coeff
      | .const .e => .node (2, 0, "Exp1") "E" [] (some exponentKey) coeff
      | .const .pi => .node (2, 0, "Pi") "pi" [] (some exponentKey) coeff
      | .const .i => .node (2, 0, "ImaginaryUnit") "I" [] (some exponentKey) coeff
      | .const .complexInfinity =>
        .node (2, 0, "ComplexInfinity") "zoo" [] (some exponentKey) coeff
      | .const .goldenRatio | .const .eulerGamma | .const .catalan | .const .tribonacci =>
        .node (2, 0, body.kindName) body.kindName [] (some exponentKey) coeff
      | .app .add ts =>
        let parts := orderedTermsBy (sortKeyTo fuel) (.app .add ts)
        .node Head.add.sortClass "" (parts.map (sortKeyTo fuel)) (some exponentKey) coeff
      | .app .mul fs =>
        let parts := sortByKey (sortKeyTo fuel) fs
        .node Head.mul.sortClass "" (parts.map (sortKeyTo fuel)) (some exponentKey) coeff
      | .app h as =>
        .node h.sortClass "" (as.map (sortKeyTo fuel)) (some exponentKey) coeff
      | b => .node (1, 0, "Number") (b.numberText true) [] (some exponentKey) coeff

/-- The key of an expression. -/
def sortKey (e : Expr) : SortKey := sortKeyTo (2 * e.size + 2) e

/-- The terms of a sum in the order in which they are written. -/
def orderedTerms (e : Expr) : List Expr := orderedTermsBy sortKey e

/-- The factors of a product in the order in which they are written. -/
def orderedFactors (e : Expr) : List Expr := sortByKey sortKey e.factors

mutual

/-- Twice the size of an expression, where an approximate number counts as half a node. -/
def weight : Expr → Nat
  | .float .. => 1
  | .app _ as => weights as + 2
  | _ => 2

/-- The weights of several expressions, added up. -/
def weights : List Expr → Nat
  | [] => 0
  | a :: as => weight a + weights as

end

/-- Sorts expressions by size, those of one size in the order in which they are written. -/
def sortBySize (es : List Expr) : List Expr :=
  let keyed := es.map fun e => (e, e.weight, e.sortKey)
  (keyed.mergeSort fun a b =>
    (thenBy (compare a.2.1 b.2.1) (SortKey.order a.2.2 b.2.2)).isLE).map (·.1)

/-! ## Leading signs -/

/-- A term with its sign changed, without any other change. -/
def flipSign (e : Expr) : Expr :=
  match e with
  | .app .mul (c :: rest) =>
    if c.isNumber then
      if c == minusOne then productOf rest else rawMul (negNumber c :: rest)
    else rawMul (minusOne :: c :: rest)
  | e => if e.isNumber then negNumber e else rawMul [minusOne, e]

mutual

/-- Whether an expression is better written as minus its opposite: a number below zero, a product
with such a number in front, or a sum with more such terms than others.  A tie goes to the opposite
that would be written first. -/
def leadsWithMinus : Expr → Bool
  | .app .add ts =>
    let minus := countMinus ts
    let plus := ts.length - minus
    if minus < plus then false
    else if plus < minus then true
    else
      (SortKey.order (sortKey (.app .add ts)) (sortKey (.app .add (ts.map flipSign)))) == .lt
  | .app .mul (c :: _) => c.isNumber && c.isNegativeNumber
  | e => e.isNumber && e.isNegativeNumber

/-- How many of several expressions are better written as minus their opposites. -/
def countMinus : List Expr → Nat
  | [] => 0
  | t :: ts => (if leadsWithMinus t then 1 else 0) + countMinus ts

end

end Expr

end ErrorBars
