import ErrorBars.Formula.Part
import ErrorBars.Formula.Value

/-!
# Applications

What a value gives when it is applied to arguments.  The functions of mathematics take expressions,
and texts that describe one; they can be told to stay as they are, by the argument `evaluate`.
Roots and powers take expressions only, and their arguments have names.

* `Value.call` — a value applied to arguments.
* `Value.part` — a part of a value by name.
-/

set_option autoImplicit false

namespace ErrorBars.Formula

/-- What something is applied to. -/
structure Arguments where
  /-- the arguments by position -/
  values : List Value
  /-- the arguments by name -/
  named : List (String × Value)

/-- Reads a text as a value. -/
abbrev TextReader := String → Calculated Value

namespace Value

/-! ## Functions of mathematics -/

/-- The functions of one argument. -/
def unaryFunctions : List (String × Func) :=
  [("exp", .exp), ("ln", .log), ("log", .log), ("sin", .sin), ("cos", .cos), ("tan", .tan),
   ("cot", .cot), ("sec", .sec), ("csc", .csc), ("sinc", .sinc), ("asin", .asin), ("acos", .acos),
   ("atan", .atan), ("acot", .acot), ("asec", .asec), ("acsc", .acsc), ("sinh", .sinh),
   ("cosh", .cosh), ("tanh", .tanh), ("coth", .coth), ("sech", .sech), ("csch", .csch),
   ("asinh", .asinh), ("acosh", .acosh), ("atanh", .atanh), ("acoth", .acoth), ("asech", .asech),
   ("acsch", .acsch), ("Abs", .abs), ("abs", .abs), ("sign", .sign), ("re", .re), ("im", .im),
   ("arg", .arg), ("floor", .floor), ("ceiling", .ceiling), ("factorial", .factorial),
   ("factorial2", .factorial2), ("gamma", .gamma), ("erf", .erf), ("erfc", .erfc),
   ("Heaviside", .heaviside), ("DiracDelta", .dirac)]

/-- A function of expressions, which it may refuse. -/
def applied (f : Func) (args : List Expr) : Calculated Expr :=
  match Expr.applyChecked f args with
  | .ok e => .ok e
  | .error .divisionByZero => .error .divisionByZero
  | .error _ => .error .unreadable

/-- The largest or the smallest of several arguments. -/
def extreme (f : Func) (args : List Expr) : Calculated Expr :=
  match args with
  | [] => .ok (if f = .max then .const .negInfinity else Expr.infinity)
  | args => applied f args

/-- The remainder of a natural power of a number. -/
def remainderOfPower (m : Int) : Nat → Int → Nat → Int
  | 0, _, _ => Int.fmod 1 m
  | fuel + 1, a, n =>
    if n = 0 then Int.fmod 1 m
    else
      let rest := remainderOfPower m fuel (Int.fmod (a * a) m) (n / 2)
      if n % 2 = 1 then Int.fmod (a * rest) m else rest

/-- A number whose product with another one has the remainder one: the first argument bounds the
steps of the division algorithm, whose two last remainders and coefficients follow. -/
def inverseModulo? (m : Int) : Nat → Int → Int → Int → Int → Option Int
  | 0, _, _, _, _ => none
  | fuel + 1, r, s, x, y =>
    if s = 0 then (if r = 1 then some (Int.fmod x m) else none)
    else inverseModulo? m fuel s (Int.emod r s) y (x - r / s * y)

/-- The remainder of a power; a negative power of a whole number is that of its inverse, if it has
one. -/
def powerModulo (a b m : Expr) : Calculated Expr :=
  match a.int?, b.int?, m.int? with
  | some p, some n, some q =>
    let value := if q = 0 then none
      else
        let whole := remainderOfPower q (n.natAbs.log2 + 2) (Int.fmod p q) n.natAbs
        if 0 ≤ n then some whole
        else inverseModulo? q (2 * q.natAbs.log2 + 4) (Int.emod whole q) q.natAbs 1 0
    match value with
    | some v => .ok (Expr.int v)
    | none => modulo (Expr.power a b) m
  | _, _, _ => modulo (Expr.power a b) m

/-- A function, known by its name, of expressions. -/
def applyNamed (name : String) (args : List Expr) : Calculated Expr :=
  match unaryFunctions.lookup name, args with
  | some f, [x] => applied f [x]
  | some .log, [x, b] => .ok (Expr.apply .log [x, b])
  | some .heaviside, [x, y] => applied .heaviside [x, y]
  | some .dirac, [x, k] =>
    if k.int?.any (0 ≤ ·) then applied .dirac [x, k] else .error .unreadable
  | some _, _ => .error .unreadable
  | none, args =>
    match name, args with
    | "atan2", [y, x] => .ok (Expr.apply .atan2 [y, x])
    | "binomial", [n, k] => .ok (Expr.apply .binomial [n, k])
    | "polygamma", [n, x] => .ok (Expr.apply .polygamma [n, x])
    | "digamma", [x] => .ok (Expr.apply .polygamma [Expr.zero, x])
    | "trigamma", [x] => .ok (Expr.apply .polygamma [Expr.one, x])
    | "Mod", [a, b] => modulo a b
    | "Max", args | "max", args => extreme .max args
    | "Min", args | "min", args => extreme .min args
    | "Add", args => .ok (Expr.sum args)
    | "Mul", args => .ok (Expr.product args)
    | "Integer", [x] => if x.isInteger then .ok x else .error .unreadable
    | _, _ => .error .unreadable

/-- The expressions that all of several values are. -/
def exprs? : List Value → Option (List Expr)
  | [] => some []
  | v :: vs => do
    let e ← v.expr?
    let es ← exprs? vs
    return e :: es

/-- The sum of several values. -/
def total : List Value → Value → Calculated Value
  | [], acc => .ok acc
  | v :: vs, acc => do total vs (← binary .add acc v)

/-- A function, known by its name, of expressions, as it stands. -/
def standNamed (name : String) (args : List Expr) : Calculated Expr :=
  match unaryFunctions.lookup name, args with
  | some f, [x] => .ok (Expr.rawFn f [x])
  | some .log, [x, b] => .ok (Expr.rawFn .log [x, b])
  | some .heaviside, [x, y] =>
    .ok (Expr.rawFn .heaviside (if y == Expr.half then [x] else [x, y]))
  | some .dirac, [x, k] => .ok (Expr.rawFn .dirac [x, k])
  | some _, _ => .error .unreadable
  | none, args =>
    match name, args with
    | "atan2", [y, x] => .ok (Expr.rawFn .atan2 [y, x])
    | "binomial", [n, k] => .ok (Expr.rawFn .binomial [n, k])
    | "polygamma", [n, x] => .ok (Expr.rawFn .polygamma [n, x])
    | "Mod", [a, b] => .ok (Expr.rawFn .modulo [a, b])
    | "Max", args => .ok (Canonical.plainExtreme true args)
    | "Min", args => .ok (Canonical.plainExtreme false args)
    | _, _ => .error .unreadable

/-- Whether a name is that of a function of mathematics. -/
def isMathematical (name : String) : Bool :=
  name != "abs" && ((unaryFunctions.lookup name).isSome ||
    ["atan2", "binomial", "polygamma", "digamma", "trigamma", "Mod", "Max", "Min"].contains name)

/-- The expression that a value is, stands for, or describes. -/
def described (read : TextReader) (v : Value) : Calculated Expr := do
  let v ← match v with
    | .text ⟨.bytes, _⟩ => .error .unreadable
    | .text q => read (String.ofList (q.content.filter (· ≠ '\n')))
    | v => .ok v
  match v.expr? with
  | some e => .ok e
  | none => .error .unreadable

/-- A function of mathematics applied to arguments. -/
def applyMathematical (read : TextReader) (name : String) (a : Arguments) : Calculated Value := do
  let es ← a.values.mapM (described read)
  let worked ← match a.named with
    | [] => .ok true
    | [("evaluate", v)] => v.truth
    | _ => .error .unreadable
  return .scalar (← if worked then applyNamed name es else standNamed name es)

/-! ## Roots and powers -/

/-- The names of the arguments of roots and powers. -/
def parameters : List (String × List String) :=
  [("sqrt", ["arg", "evaluate"]), ("cbrt", ["arg", "evaluate"]),
   ("root", ["arg", "n", "k", "evaluate"]), ("Pow", ["b", "e", "evaluate"]),
   ("pow", ["base", "exp", "mod"]), ("Rational", ["p", "q"])]

/-- The arguments in the order of their names; `none` if a name is not known or has two values. -/
def inOrder? (names : List String) (a : Arguments) : Option (List (Option Value)) :=
  let given := a.values.length
  if names.length < given || a.named.any fun x => !(names.drop given).contains x.1 then none
  else some (a.values.map some ++ (names.drop given).map fun n => a.named.lookup n)

/-- A power, or the power as it stands. -/
def powerOf (worked : Bool) (b e : Expr) : Expr :=
  if worked then Expr.power b e else Expr.rawPow b e

/-- A root with a natural number, times a root of unity with another. -/
def rootOf (worked : Bool) (x n k : Expr) : Expr :=
  let root := powerOf worked x (Expr.inv n)
  if k.isZero then root
  else
    let unity := Expr.power Expr.minusOne (Expr.int 2 * k / n)
    if worked then Expr.product [root, unity] else Expr.rawMul [root, unity]

/-- An argument that tells whether something is worked out; it is, unless told otherwise. -/
def workedOut : Option Value → Calculated Bool
  | none => .ok true
  | some (.other false) => .ok true
  | some v => v.truth

/-- A root or a power of arguments in the order of their names. -/
def applyPower (read : TextReader) (name : String) (args : List (Option Value)) :
    Calculated Expr := do
  let plain := fun (v : Value) =>
    match v.expr? with
    | some e => Except.ok e
    | none => .error ParseFault.unreadable
  match name, args with
  | "sqrt", [some x, w] => return powerOf (← workedOut w) (← plain x) Expr.half
  | "cbrt", [some x, w] => return powerOf (← workedOut w) (← plain x) (.rat (1 / 3))
  | "root", [some x, some n, k, w] =>
    let k ← match k with
      | some k => plain k
      | none => .ok Expr.zero
    return rootOf (← workedOut w) (← plain x) (← described read n) k
  | "Pow", [some b, some e, w] => return powerOf (← workedOut w) (← plain b) (← plain e)
  | "pow", [some b, some e, none] => return Expr.power (← plain b) (← plain e)
  | "pow", [some b, some e, some m] => powerModulo (← plain b) (← plain e) (← plain m)
  | "Rational", [some p, some q] => return (← plain p) / (← plain q)
  | "Rational", [some p, none] => plain p
  | _, _ => .error .unreadable

/-! ## All applications -/

/-- A method of an expression applied to arguments. -/
def applyMethod (read : TextReader) (e : Expr) (name : String) (args : List Value) :
    Calculated Value := do
  match e.applyPart name (← args.mapM (described read)) with
  | .value v => return .scalar v
  | .other => return .other true
  | .refused => throw .unreadable
  | .divisionByZero => throw .divisionByZero

/-- The functions that do to their first argument what its method of the same name does. -/
def transformations : List String :=
  ["diff", "expand", "simplify", "cancel", "together", "factor", "N"]

/-- The method that a transformation stands for. -/
def methodOf (name : String) : String := if name == "N" then "n" else name

/-- Applies a value to arguments. -/
def call (read : TextReader) (f : Value) (a : Arguments) : Calculated Value :=
  match f, a.values, a.named with
  | .callable "sum", [.items _ xs], [] => total xs (.whole 0)
  | .callable "len", [.items _ xs], [] => .ok (.whole xs.length)
  | .callable "len", [.mapping entries], [] => .ok (.whole entries.length)
  | .callable "len", [.text q], [] => .ok (.whole q.content.length)
  | .callable "Symbol", [.text q], [] =>
    if q.isBytes then .error .unreadable else .ok (.scalar (.symbol (String.ofList q.content)))
  | .callable "S", [v], [] | .callable "sympify", [v], [] => (described read v).map .scalar
  | .callable name, values, named =>
    if isMathematical name then applyMathematical read name a
    else
      match parameters.lookup name with
      | some names =>
        match inOrder? names a with
        | some args => (applyPower read name args).map .scalar
        | none => .error .unreadable
      | none =>
        if transformations.contains name && named.isEmpty then
          match values with
          | v :: rest => do applyMethod read (← described read v) (methodOf name) rest
          | [] => .error .unreadable
        else
          match exprs? values, named with
          | some es, [] => (applyNamed name es).map .scalar
          | _, _ => .error .unreadable
  | .method e name, values, [] => applyMethod read e name values
  | _, _, _ => .error .unreadable

/-- A part of a value by name. -/
def part (a : Value) (name : String) : Calculated Value :=
  match a with
  | .scalar e =>
    match e.partKind? name with
    | some .method => .ok (.method e name)
    | some (.value v) => .ok (.scalar v)
    | some (.property truth) => .ok (.other truth)
    | none => .error .unreadable
  | _ => .error .unreadable

end Value

end ErrorBars.Formula
