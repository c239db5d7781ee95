import ErrorBars.Expr.Basic

/-!
# The canonical order of expressions

Arguments of sums and products are kept in one fixed order, so that equal sums and products are
equal as trees.  Kinds of expressions are ranked first: numbers, constants, symbols, powers,
products, sums, and then functions, most of them by name.  Within a kind the number of parts
decides, and then the parts from left to right.
-/

set_option autoImplicit false

namespace ErrorBars

/-- The name of the kind of a head. -/
def Head.name : Head → String
  | .add => "Add"
  | .mul => "Mul"
  | .pow => "Pow"
  | .fn f => f.name
  | .derivative => "Derivative"
  | .subs => "Subs"
  | .piecewise => "Piecewise"
  | .equal => "Equality"
  | .always => "BooleanTrue"

/-- The rank shared by all kinds that are told apart by name. -/
def namedRank : Nat := 100

/-- The rank of the kind of a head. -/
def Head.rank : Head → Nat
  | .pow => 15
  | .mul => 16
  | .add => 17
  | .derivative => 18
  | .fn .abs => 20
  | .fn .factorial => 48
  | .fn .binomial => 49
  | _ => namedRank

/-- The rank of a rational number: some small numbers come before all others. -/
def rationalRank (q : Rat) : Nat :=
  if q = 0 then 0
  else if q = 1 then 1
  else if q = 1 / 2 then 2
  else if q = -1 then 5
  else if q.den = 1 then 7
  else 8

/-- The rank of a constant. -/
def Const.rank : Const → Nat
  | .infinity => 3
  | .undefined => 4
  | .negInfinity => 6
  | .e => 10
  | .pi => 11
  | .i => 12
  | .complexInfinity | .goldenRatio | .eulerGamma | .catalan | .tribonacci => namedRank

namespace Expr

/-- The rank of the kind of an expression. -/
def rank : Expr → Nat
  | .rat q => rationalRank q
  | .float .. => 9
  | .const c => c.rank
  | .symbol _ => 13
  | .dummy _ => namedRank
  | .app h _ => h.rank

/-- The name of the kind of an expression, which decides among kinds of the last rank. -/
def kindName : Expr → String
  | .const .complexInfinity => "ComplexInfinity"
  | .const c => c.name
  | .dummy _ => "Dummy"
  | .app h _ => h.name
  | _ => ""

/-- Lexicographic comparison: the second criterion decides where the first does not. -/
def thenBy (first second : Ordering) : Ordering :=
  match first with
  | .eq => second
  | o => o

/-- Comparison by kind alone. -/
def compareKind (a b : Expr) : Ordering :=
  thenBy (compare a.rank b.rank)
    (if a.rank = namedRank then compare a.kindName b.kindName else .eq)

/-- Comparison of approximate numbers: by sign, mantissa and exponent, then by precision.  This is
not the order of the numbers. -/
def compareFloats (x : Binary) (b : Nat) (y : Binary) (c : Nat) : Ordering :=
  thenBy (compare (if x.isNegative then 1 else 0) (if y.isNegative then 1 else 0))
    (thenBy (compare x.mantissa.natAbs y.mantissa.natAbs)
      (thenBy (compare x.exponent y.exponent) (compare b c)))

mutual

/-- The canonical order. -/
def order : Expr → Expr → Ordering
  | .rat p, .rat q =>
    thenBy (compare (rationalRank p) (rationalRank q))
      (thenBy (compare p.num q.num) (compare p.den q.den))
  | .float x b, .float y c => compareFloats x b y c
  | .symbol s, .symbol t => compare s t
  | .dummy s, .dummy t => compare s t
  | .app h as, .app g bs =>
    thenBy (compareKind (.app h as) (.app g bs))
      (thenBy (compare as.length bs.length) (orderAll as bs))
  | a, b => compareKind a b

/-- The canonical order of argument lists of one length, from left to right. -/
def orderAll : List Expr → List Expr → Ordering
  | a :: as, b :: bs => thenBy (order a b) (orderAll as bs)
  | _, _ => .eq

end

/-- Puts arguments into canonical order. -/
def sortArgs (es : List Expr) : List Expr := es.mergeSort fun a b => (order a b).isLE

end Expr

end ErrorBars
