import ErrorBars.Expr.Simplify
import ErrorBars.Expr.Point

/-!
# Parts of an expression by name

In a formula a point behind an expression leads to one of its parts: the base or the exponent of a
power, a property, such as whether it is a whole number, or a method, which is applied to arguments.
Only a few methods give an expression again; all others give something that is no expression.

* `Expr.partKind?` — whether there is such a part.
* `Expr.applyPart` — what a method gives.
-/

set_option autoImplicit false

namespace ErrorBars

/-- What a name behind the point leads to. -/
inductive PartKind where
  /-- something that can be applied -/
  | method
  /-- an expression -/
  | value (e : Expr)
  /-- a property, and whether it counts as true -/
  | property (truth : Bool)

/-- What a method gives. -/
inductive PartResult where
  /-- an expression -/
  | value (e : Expr)
  /-- something else -/
  | other
  /-- nothing, because the arguments do not suit it -/
  | refused
  /-- nothing, because of a remainder of a division by zero -/
  | divisionByZero

/-- The properties that every expression has, apart from those about its kind of value. -/
def propertyNames : List String :=
  ["args", "func", "free_symbols", "assumptions0", "kind", "canonical_variables",
   "default_assumptions", "expr_free_symbols", "bound_symbols"]

/-- The properties about the kind of value that are not decided for a variable. -/
def valueProperties : List String :=
  ["algebraic", "antihermitian", "complex", "composite", "even", "extended_negative",
   "extended_nonnegative", "extended_nonpositive", "extended_nonzero", "extended_positive",
   "extended_real", "finite", "hermitian", "imaginary", "infinite", "integer", "irrational",
   "negative", "noninteger", "nonnegative", "nonpositive", "nonzero", "odd", "polar", "positive",
   "prime", "rational", "real", "transcendental", "zero"]

/-- The properties about the form of an expression. -/
def formProperties : List String :=
  ["commutative", "Add", "AlgebraicNumber", "Atom", "Boolean", "Derivative", "Dummy", "Equality",
   "Float", "Function", "Indexed", "Integer", "MatAdd", "MatMul", "Matrix", "Mul", "Not", "Number",
   "NumberSymbol", "Order", "Piecewise", "Point", "Poly", "Pow", "Rational", "Relational", "Symbol",
   "Vector", "Wild", "comparable", "number", "scalar", "symbol"]

/-- The methods that every expression has. -/
def methodNames : List String :=
  ["adjoint", "apart", "args_cnc", "as_base_exp", "as_coeff_Add", "as_coeff_Mul", "as_coeff_add",
   "as_coeff_exponent", "as_coeff_mul", "as_coefficient", "as_coefficients_dict",
   "as_content_primitive", "as_dummy", "as_expr", "as_independent", "as_leading_term",
   "as_numer_denom", "as_ordered_factors", "as_ordered_terms", "as_poly", "as_powers_dict",
   "as_real_imag", "as_terms", "aseries", "atoms", "cancel", "class_key", "coeff", "collect",
   "combsimp", "compare", "compute_leading_term", "conjugate", "copy", "could_extract_minus_sign",
   "count", "count_ops", "diff", "doit", "dummy_eq", "equals", "evalf", "expand",
   "extract_additively", "extract_branch_factor", "extract_multiplicatively", "factor", "find",
   "fourier_series", "fps", "fromiter", "gammasimp", "getO", "getn", "has", "has_free", "has_xfree",
   "integrate", "invert", "is_algebraic_expr", "is_constant", "is_hypergeometric", "is_meromorphic",
   "is_polynomial", "is_rational_function", "is_same", "leadterm", "limit", "lseries", "match",
   "matches", "n", "normal", "nseries", "nsimplify", "powsimp", "primitive", "radsimp", "ratsimp",
   "rcall", "refine", "removeO", "replace", "rewrite", "round", "separate", "series", "simplify",
   "sort_key", "subs", "taylor_term", "together", "transpose", "trigsimp", "xreplace"]

namespace Expr

/-- Whether a property about the kind of value is known to hold. -/
def valueProperty (e : Expr) (name : String) : Bool :=
  let f := e.facts
  match name with
  | "real" | "extended_real" | "hermitian" => f.real == some true
  | "complex" | "finite" => f.finite == some true
  | "integer" => f.integer == some true
  | "rational" => e.isRational
  | "even" => f.even == some true
  | "odd" => f.integer == some true && f.even == some false
  | "zero" => f.zero == some true
  | "nonzero" | "extended_nonzero" => f.zero == some false
  | "positive" | "extended_positive" => f.isPositive
  | "negative" | "extended_negative" => f.isNegative
  | "nonnegative" | "extended_nonnegative" => f.isNonnegative
  | "imaginary" => f.imaginary == some true
  | "infinite" => f.finite == some false
  | _ => false

/-- Whether a property about the form holds. -/
def formProperty (e : Expr) (name : String) : Bool :=
  match name with
  | "commutative" | "scalar" => true
  | "Add" => e.isAdd
  | "Mul" => e.isMul
  | "Pow" => e.isPow
  | "Symbol" | "symbol" | "Boolean" => match e with
    | .symbol _ => true
    | _ => false
  | "Atom" => e.isAtom
  | "Number" => e.isNumber
  | "Integer" => e.isInteger
  | "Rational" => e.isRational
  | "Float" => e.precision ≠ 0
  | "number" | "comparable" => e.isConstant
  | "Function" => e.isFn
  | _ => false

/-- What a name behind the point leads to, if anything. -/
def partKind? (e : Expr) (name : String) : Option PartKind :=
  let about := (name.drop 3).toString
  if methodNames.contains name then some .method
  else if propertyNames.contains name then some (.property true)
  else if name.startsWith "is_" && valueProperties.contains about then
    some (.property (e.valueProperty about))
  else if name.startsWith "is_" && formProperties.contains about then
    some (.property (e.formProperty about))
  else
    match e with
    | .symbol _ => if name == "name" then some (.property true) else none
    | .rat _ => if name == "p" || name == "q" then some (.property true) else none
    | .app .pow [b, x] =>
      if name == "base" then some (.value b) else if name == "exp" then some (.value x) else none
    | _ => none

/-- The derivative by variables one after the other; a whole number behind a variable repeats it. -/
def derivativeBy : List Expr → Expr → Option Expr
  | [], e => some e
  | .symbol s :: .rat q :: rest, e =>
    if q.den = 1 ∧ 0 ≤ q then
      derivativeBy rest ((List.range q.num.toNat).foldl (fun acc _ => derivative s acc) e)
    else none
  | .symbol s :: rest, e => derivativeBy rest (derivative s e)
  | _, _ => none

/-- A closed expression as an approximate number. -/
def approximated (e : Expr) : Expr :=
  match e.reach [] with
  | .ok v => v.expr
  | .error _ => e

/-- What a method of an expression gives. -/
def applyPart (e : Expr) (name : String) (args : List Expr) : PartResult :=
  match name, args with
  | "diff", [] =>
    match e.freeSymbols with
    | [s] => .value (derivative s e)
    | _ => .refused
  | "diff", args => ((derivativeBy args e).map .value).getD .refused
  | "subs", [.symbol s, v] =>
    match substitute s v e with
    | .ok r => .value r
    | .error .divisionByZero => .divisionByZero
    | .error _ => .refused
  | "expand", [] => .value (expand Expansion.all e)
  | "simplify", [] => .value e.simplify
  | "cancel", [] => .value (cancel e)
  | "together", [] => .value (together e)
  | "factor", [] => .value (factor e)
  | "doit", [] => .value e
  | "copy", [] => .value e
  | "as_expr", [] => .value e
  | "evalf", [] => .value e.approximated
  | "n", [] => .value e.approximated
  | "evalf", _ => .refused
  | "n", _ => .refused
  | _, _ => .other

end Expr

end ErrorBars
