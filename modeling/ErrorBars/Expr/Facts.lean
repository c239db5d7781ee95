import ErrorBars.Expr.Number

/-!
# What is known of a value

Some changes of form are right only for positive, real or whole numbers.  `facts` says what is known
of an expression: of a closed one by evaluating it, of one with variables, which may stand for any
complex number, only in the few cases where the outermost function decides.  `none` means that
nothing is known.
-/

set_option autoImplicit false

namespace ErrorBars

/-- What is known of the value of an expression. -/
structure Facts where
  /-- on the real line, or one of its two infinite ends -/
  real : Option Bool
  /-- not infinite -/
  finite : Option Bool
  /-- zero -/
  zero : Option Bool
  /-- real and above zero -/
  positive : Option Bool
  /-- real and below zero -/
  negative : Option Bool
  /-- a whole number -/
  integer : Option Bool
  /-- a whole number divisible by two -/
  even : Option Bool
  /-- a real multiple of the imaginary unit, not zero -/
  imaginary : Option Bool
  deriving Repr

namespace Facts

/-- Nothing is known. -/
def nothing : Facts := ⟨none, none, none, none, none, none, none, none⟩

/-- Real and not below zero. -/
def isNonnegative (f : Facts) : Bool :=
  f.positive == some true || f.zero == some true ||
    (f.real == some true && f.negative == some false)

/-- Real and above zero. -/
def isPositive (f : Facts) : Bool := f.positive == some true

/-- Real and below zero. -/
def isNegative (f : Facts) : Bool := f.negative == some true

/-- A rational number. -/
def ofRat (q : Rat) : Facts :=
  { real := some true, finite := some true, zero := some (q == 0), positive := some (0 < q),
    negative := some (q < 0), integer := some (q.den == 1),
    even := some (q.den == 1 && q.num % 2 == 0), imaginary := some false }

/-- A finite real number of known sign. -/
def ofReal (negative zero : Bool) (integer : Option Bool) : Facts :=
  { real := some true, finite := some true, zero := some zero,
    positive := some (!negative && !zero), negative := some negative, integer := integer,
    even := if integer = some false then some false else none, imaginary := some false }

/-- One of the ends of the real line. -/
def ofInfinity (negative : Bool) : Facts :=
  { real := some true, finite := some false, zero := some false, positive := some (!negative),
    negative := some negative, integer := some false, even := some false, imaginary := some false }

/-- A finite number that is not real. -/
def ofComplex (imaginary : Bool) : Facts :=
  { real := some false, finite := some true, zero := some false, positive := some false,
    negative := some false, integer := some false, even := some false, imaginary := some imaginary }

/-- Real and not below zero. -/
def nonnegative : Facts :=
  { nothing with real := some true, negative := some false, imaginary := some false }

/-- What the value of a closed expression tells. -/
def ofEvaluated (e : Evaluated) : Facts :=
  match e with
  | .complexInfinity => { nothing with finite := some false, zero := some false }
  | .parts none none => ofRat 0
  | .parts (some re) none =>
    match re.value with
    | .number x =>
      if re.accuracy < 2 then { nothing with real := some true, finite := some true }
      else ofReal x.isNegative x.isZero (if x.isInteger then none else some false)
    | .infinite s => ofInfinity s
    | .undefined => nothing
  | .parts none (some im) =>
    if im.accuracy < 2 then { nothing with finite := some true } else ofComplex true
  | .parts (some re) (some im) =>
    if im.accuracy < 2 then { nothing with finite := some true }
    else if re.accuracy < 2 then { ofComplex false with imaginary := none }
    else ofComplex false

end Facts

namespace Expr

/-- The bits and the limit with which closed expressions are evaluated. -/
def factBits : Nat × Nat := (40, 332)

/-- What evaluating a closed expression tells. -/
def closedFacts (e : Expr) : Facts :=
  match e.evaluator factBits.1 factBits.2 with
  | .ok v => Facts.ofEvaluated v
  | .error _ => Facts.nothing

/-- Whether all of several expressions are known not to be below zero. -/
def allNonnegative (fs : List Facts) : Bool := fs.all Facts.isNonnegative

/-- Real, and nothing else. -/
def Facts.justReal : Facts := { Facts.nothing with real := some true, imaginary := some false }

/-- Functions that are real wherever their arguments are. -/
def keepsReal (h : Head) : Bool :=
  match h with
  | .fn f =>
    [Func.sin, .cos, .tan, .cot, .sec, .csc, .sinc, .sinh, .cosh, .tanh, .coth, .asinh, .atan,
      .atan2, .acot, .erf, .erfc, .sign, .max, .min, .floor, .ceiling].contains f
  | _ => false

/-- What a head tells about its value from the facts of its arguments. -/
def headFacts (h : Head) (fs : List Facts) : Facts :=
  match h, fs with
  | .fn .abs, _ => Facts.nonnegative
  | .fn .re, _ => Facts.justReal
  | .fn .im, _ => Facts.justReal
  | .fn .arg, _ => Facts.justReal
  | .fn .exp, [x] =>
    if x.real = some true then { Facts.nonnegative with positive := some true } else Facts.nothing
  | .fn .log, [x] => if x.isPositive then Facts.justReal else Facts.nothing
  | .mul, fs =>
    if allNonnegative fs then
      { Facts.nonnegative with positive := if fs.all Facts.isPositive then some true else none }
    else if fs.all fun f => f.real == some true then Facts.justReal
    else Facts.nothing
  | .add, fs =>
    if allNonnegative fs then
      { Facts.nonnegative with positive := if fs.any Facts.isPositive then some true else none }
    else if fs.all fun f => f.real == some true then Facts.justReal
    else Facts.nothing
  | .pow, [b, e] =>
    if b.isPositive && e.real == some true then
      { Facts.nonnegative with positive := some true }
    else if b.isNonnegative && e.isPositive then Facts.nonnegative
    else if b.real == some true && e.integer == some true && e.isNonnegative then
      if e.even == some true then Facts.nonnegative else Facts.justReal
    else Facts.nothing
  | .fn .heaviside, _ => Facts.justReal
  | .fn .dirac, _ => Facts.justReal
  | h, fs =>
    if keepsReal h && fs.all fun f => f.real == some true then Facts.justReal else Facts.nothing

/-- Whether an infinity occurs in an expression. -/
def hasInfinity (e : Expr) : Bool := e.any Expr.isInfinite

/-- What a head tells about its closed value where one of the arguments is infinite. -/
def infiniteFacts (h : Head) (fs : List Facts) : Facts :=
  let isReal := fun (f : Facts) => f.real == some true
  let infinite := { Facts.nothing with finite := some false, zero := some false }
  let isInfinite := fs.any fun f => f.finite == some false
  match h with
  | .mul =>
    let turning := fs.filter fun f => f.imaginary == some true
    if isInfinite && fs.all fun f => isReal f || f.imaginary == some true then
      { infinite with real := some (turning.length % 2 = 0) }
    else Facts.nothing
  | .add =>
    if !isInfinite then Facts.nothing
    else if (fs.filter fun f => f.real == some false).length = 1 &&
        (fs.filter isReal).length + 1 = fs.length then
      { infinite with real := some false }
    else infinite
  | h => headFacts h fs

mutual

/-- What is known of the value of an expression. -/
def facts : Expr → Facts
  | .rat q => Facts.ofRat q
  | .float x _ =>
    Facts.ofReal x.isNegative x.isZero (if x.isZero then some true
      else if x.isInteger then none else some false)
  | .const c =>
    match c with
    | .e | .pi | .goldenRatio | .tribonacci => Facts.ofReal false false (some false)
    | .eulerGamma | .catalan => Facts.ofReal false false none
    | .i => Facts.ofComplex true
    | .infinity => Facts.ofInfinity false
    | .negInfinity => Facts.ofInfinity true
    | .complexInfinity => { Facts.nothing with finite := some false, zero := some false }
    | .undefined => Facts.nothing
  | .symbol _ => Facts.nothing
  | .dummy _ => Facts.nothing
  | .app h as =>
    if !(Expr.app h as).isConstant then headFacts h (factsOfAll as)
    else if (Expr.app h as).hasInfinity then infiniteFacts h (factsOfAll as)
    else closedFacts (.app h as)

/-- What is known of the values of several expressions. -/
def factsOfAll : List Expr → List Facts
  | [] => []
  | a :: as => facts a :: factsOfAll as

end

/-- Known to be above zero. -/
def isPositive (e : Expr) : Bool := e.facts.isPositive

/-- Known to be below zero. -/
def isNegative (e : Expr) : Bool := e.facts.isNegative

/-- Known not to be below zero. -/
def isNonnegative (e : Expr) : Bool := e.facts.isNonnegative

/-- Known to be a whole number. -/
def isWhole (e : Expr) : Bool := e.facts.integer == some true

end Expr

end ErrorBars
