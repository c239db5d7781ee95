import ErrorBars.Expr.Canonical

/-!
# Partial derivatives

The derivative of an expression by a variable, by the rules for sums, products and powers and the
chain rule for functions.  A function without a known derivative keeps a `Derivative` that is not
carried out; if its argument is not a variable, of the function of a placeholder at that argument.
-/

set_option autoImplicit false

namespace ErrorBars.Expr

/-- The square of an expression. -/
def square (e : Expr) : Expr := power e (int 2)

/-- The derivative of a function by its argument of the given index, counted from one, left as it
is.  `others` are the arguments that stay. -/
def openDerivative (f : Func) (before : List Expr) (x : Expr) (after : List Expr) : Expr :=
  let direct := match x with
    | .symbol s => !(before ++ after).any (hasSymbol s)
    | _ => false
  if direct then .app .derivative [rawFn f (before ++ x :: after), x]
  else
    let placeholder := Expr.dummy ("xi_" ++ toString (before.length + 1))
    .app .subs [.app .derivative [rawFn f (before ++ placeholder :: after), placeholder],
      placeholder, x]

/-- The derivative of a function of one argument. -/
def unaryDerivative (f : Func) (x : Expr) : Option Expr :=
  match f with
  | .exp => some (apply .exp [x])
  | .log => some (inv x)
  | .sin => some (apply .cos [x])
  | .cos => some (-(apply .sin [x]))
  | .tan => some (one + square (apply .tan [x]))
  | .cot => some (minusOne - square (apply .cot [x]))
  | .sec => some (apply .tan [x] * apply .sec [x])
  | .csc => some (-(apply .cot [x]) * apply .csc [x])
  | .sinc => some (apply .cos [x] / x - apply .sin [x] / square x)
  | .asin => some (inv (sqrt (one - square x)))
  | .acos => some (-(inv (sqrt (one - square x))))
  | .atan => some (inv (one + square x))
  | .acot => some (-(inv (one + square x)))
  | .asec => some (inv (square x * sqrt (one - inv (square x))))
  | .acsc => some (-(inv (square x * sqrt (one - inv (square x)))))
  | .sinh => some (apply .cosh [x])
  | .cosh => some (apply .sinh [x])
  | .tanh => some (one - square (apply .tanh [x]))
  | .coth => some (-(power (apply .sinh [x]) (int (-2))))
  | .sech => some (-(apply .tanh [x]) * apply .sech [x])
  | .csch => some (-(apply .coth [x]) * apply .csch [x])
  | .asinh => some (inv (sqrt (square x + one)))
  | .acosh => some (inv (sqrt (x - one) * sqrt (x + one)))
  | .atanh | .acoth => some (inv (one - square x))
  | .asech => some (-(inv (x * sqrt (one - square x))))
  | .acsch => some (-(inv (square x * sqrt (one + inv (square x)))))
  | .factorial =>
    some (apply .gamma [x + one] * apply .polygamma [zero, x + one])
  | .gamma => some (apply .gamma [x] * apply .polygamma [zero, x])
  | .erf => some (int 2 * apply .exp [-(square x)] / sqrt pi)
  | .erfc => some (-(int 2 * apply .exp [-(square x)] / sqrt pi))
  | .heaviside => some (apply .dirac [x])
  | .dirac => some (apply .dirac [x, one])
  | _ => none

/-- The derivative of a function of two arguments by the first of them, or by the second. -/
def binaryDerivative (f : Func) (first : Bool) (a b : Expr) : Option Expr :=
  match f with
  | .atan2 =>
    let norm := square b + square a
    some (if first then b / norm else -a / norm)
  | .binomial =>
    let psi := fun e => apply .polygamma [zero, e]
    let c := apply .binomial [a, b]
    let rest := psi (a - b + one)
    some (if first then c * (psi (a + one) - rest) else c * (rest - psi (b + one)))
  | .polygamma => if first then none else some (apply .polygamma [a + one, b])
  | .heaviside => if first then some (apply .dirac [a]) else none
  | .dirac => if first then some (apply .dirac [a, b + one]) else none
  | _ => none

/-- The derivative of an extreme by one of its arguments: one where that argument is chosen. -/
def extremeDerivative (largest : Bool) (x : Expr) (others : List Expr) : Expr :=
  let other := match others with
    | [y] => y
    | ys => apply (if largest then .max else .min) ys
  apply .heaviside [if largest then x - other else other - x]

/-- The derivative of a function by one of its arguments. -/
def argDerivative (f : Func) (before : List Expr) (x : Expr) (after : List Expr) : Expr :=
  let known := match f, before, after with
    | .max, _, _ => some (extremeDerivative true x (before ++ after))
    | .min, _, _ => some (extremeDerivative false x (before ++ after))
    | f, [], [] => unaryDerivative f x
    | f, [], [b] => binaryDerivative f true x b
    | f, [a], [] => binaryDerivative f false a x
    | _, _, _ => none
  known.getD (openDerivative f before x after)

/-- The chain rule: the derivatives by each argument times those of the arguments. -/
def chainTerms (f : Func) : List Expr → List Expr → List Expr → List Expr
  | before, x :: after, d :: ds =>
    let rest := chainTerms f (before ++ [x]) after ds
    if d.isZero then rest else argDerivative f before x after * d :: rest
  | _, _, _ => []

/-- The product rule: for each factor the product with that factor replaced by its derivative. -/
def productTerms : List Expr → List Expr → List Expr → List Expr
  | before, x :: after, d :: ds =>
    let rest := productTerms (before ++ [x]) after ds
    if d.isZero then rest else (before ++ d :: after).foldl (· * ·) one :: rest
  | _, _, _ => []

/-- A real or imaginary part differentiated by a variable: it stays as it is. -/
def partDerivative (v : String) (e : Expr) : Expr :=
  if e.hasSymbol v then
    sum (e.terms.map fun t =>
      let (c, u) := t.coeffMul
      if u.hasSymbol v then c * .app .derivative [u, .symbol v] else zero)
  else zero

/-- The derivative of an absolute value, through the real and imaginary parts of its argument, whose
derivatives `inner` finds. -/
def absDerivative (inner : Expr → Expr) (x dx : Expr) : Expr :=
  let f := x.facts
  if f.real == some true then dx * apply .sign [x]
  else
    let r := apply .re [x]
    let i := apply .im [x]
    (r * inner r + i * inner i) * apply .sign [x] / x

/-- The derivative of an angle, through the real and imaginary parts of its argument. -/
def angleDerivative (inner : Expr → Expr) (x : Expr) : Expr :=
  let r := apply .re [x]
  let i := apply .im [x]
  (r * inner i - i * inner r) / (square r + square i)

/-- The derivative of an application, from its arguments and their derivatives, where `inner`
differentiates real and imaginary parts. -/
def headDerivative (inner : Expr → Expr) (v : String) (h : Head) (args ds : List Expr) : Expr :=
  match h, args, ds with
  | .add, _, ds => sum ds
  | .mul, args, ds => sum (productTerms [] args ds)
  | .pow, [b, e], [db, de] => power b e * (de * apply .log [b] + db * e / b)
  | .fn .abs, [x], [dx] => absDerivative inner x dx
  | .fn .sign, [x], [dx] =>
    if x.facts.real == some true then product [int 2, dx, apply .dirac [x]]
    else .app .derivative [apply .sign [x], .symbol v]
  | .fn .arg, [x], _ => angleDerivative inner x
  | .fn .re, args, _ => partDerivative v (rawFn .re args)
  | .fn .im, args, _ => partDerivative v (rawFn .im args)
  | .fn f, args, ds => sum (chainTerms f [] args ds)
  | h, args, _ => .app .derivative [.app h args, .symbol v]

mutual

/-- The partial derivative by a variable, where `inner` differentiates real and imaginary parts. -/
def derivativeWithin (inner : Expr → Expr) (v : String) : Expr → Expr
  | .symbol s => if s = v then one else zero
  | .app h as =>
    if anyOf (· == .symbol v) as then headDerivative inner v h as (derivativesWithin inner v as)
    else zero
  | _ => zero

/-- The partial derivatives of several expressions by a variable. -/
def derivativesWithin (inner : Expr → Expr) (v : String) : List Expr → List Expr
  | [] => []
  | a :: as => derivativeWithin inner v a :: derivativesWithin inner v as

end

/-- The partial derivative by a variable, for absolute values nested to a depth. -/
def derivativeTo : Nat → String → Expr → Expr
  | 0, v => derivativeWithin (partDerivative v) v
  | depth + 1, v => derivativeWithin (derivativeTo depth v) v

/-- The partial derivative by a variable. -/
def derivative (v : String) (e : Expr) : Expr := derivativeTo 4 v e

end ErrorBars.Expr
