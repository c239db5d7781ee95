import ErrorBars.Numeric.Binary

/-!
# Expressions

An expression is a number, a constant, a symbol, or a head applied to arguments.  Sums, products and
powers are heads like any function; sums and products take any number of arguments.

This file holds the type, structural equality, and the traversals that need no knowledge of what the
heads mean: free symbols, occurrence, replacement of symbols and rebuilding from the leaves up.
-/

set_option autoImplicit false

namespace ErrorBars

/-- The named constants. -/
inductive Const where
  /-- Euler's number -/
  | e
  /-- the circle constant -/
  | pi
  /-- the ratio in which a length is cut so that the larger part is to the smaller as the whole to
  it -/
  | goldenRatio
  /-- the limit of the harmonic sums less the logarithm -/
  | eulerGamma
  /-- the alternating sum of the reciprocal odd squares -/
  | catalan
  /-- the limit ratio of sums of three predecessors -/
  | tribonacci
  /-- the imaginary unit -/
  | i
  /-- positive infinity -/
  | infinity
  /-- negative infinity -/
  | negInfinity
  /-- infinity without a direction -/
  | complexInfinity
  /-- the result of an undefined operation -/
  | undefined
  deriving DecidableEq, Repr

/-- The name of a constant. -/
def Const.name : Const → String
  | .e => "E"
  | .pi => "pi"
  | .goldenRatio => "GoldenRatio"
  | .eulerGamma => "EulerGamma"
  | .catalan => "Catalan"
  | .tribonacci => "TribonacciConstant"
  | .i => "I"
  | .infinity => "oo"
  | .negInfinity => "-oo"
  | .complexInfinity => "zoo"
  | .undefined => "nan"

/-- Whether a constant is a real number. -/
def Const.isReal : Const → Bool
  | .e | .pi | .goldenRatio | .eulerGamma | .catalan | .tribonacci => true
  | _ => false

/-- The functions. -/
inductive Func where
  | exp | log
  | sin | cos | tan | cot | sec | csc | sinc
  | asin | acos | atan | atan2 | acot | asec | acsc
  | sinh | cosh | tanh | coth | sech | csch
  | asinh | acosh | atanh | acoth | asech | acsch
  | abs | sign | re | im | arg
  | floor | ceiling | modulo
  | max | min
  | factorial | factorial2 | binomial | gamma | polygamma
  | erf | erfc | heaviside | dirac
  | bounds
  deriving DecidableEq, Repr

/-- The name of a function. -/
def Func.name : Func → String
  | .exp => "exp" | .log => "log"
  | .sin => "sin" | .cos => "cos" | .tan => "tan" | .cot => "cot" | .sec => "sec" | .csc => "csc"
  | .sinc => "sinc"
  | .asin => "asin" | .acos => "acos" | .atan => "atan" | .atan2 => "atan2"
  | .acot => "acot" | .asec => "asec" | .acsc => "acsc"
  | .sinh => "sinh" | .cosh => "cosh" | .tanh => "tanh"
  | .coth => "coth" | .sech => "sech" | .csch => "csch"
  | .asinh => "asinh" | .acosh => "acosh" | .atanh => "atanh"
  | .acoth => "acoth" | .asech => "asech" | .acsch => "acsch"
  | .abs => "Abs" | .sign => "sign" | .re => "re" | .im => "im" | .arg => "arg"
  | .floor => "floor" | .ceiling => "ceiling" | .modulo => "Mod"
  | .max => "Max" | .min => "Min"
  | .factorial => "factorial" | .factorial2 => "factorial2" | .binomial => "binomial"
  | .gamma => "gamma" | .polygamma => "polygamma"
  | .erf => "erf" | .erfc => "erfc" | .heaviside => "Heaviside" | .dirac => "DiracDelta"
  | .bounds => "AccumBounds"

/-- What an expression applies to its arguments. -/
inductive Head where
  /-- the sum of the arguments -/
  | add
  /-- the product of the arguments -/
  | mul
  /-- the first argument to the power of the second -/
  | pow
  /-- a function -/
  | fn (f : Func)
  /-- the derivative of the first argument by the second, left as it is -/
  | derivative
  /-- the first argument with the second, a placeholder, replaced by the third -/
  | subs
  /-- pairs of a value and a condition; the first condition that holds decides -/
  | piecewise
  /-- the condition that the arguments are equal -/
  | equal
  /-- the condition that always holds -/
  | always
  deriving DecidableEq, Repr

/-- An expression. -/
inductive Expr where
  /-- an exact rational number -/
  | rat (q : Rat)
  /-- an approximate number that carries `bits` bits -/
  | float (x : Binary) (bits : Nat)
  /-- a named constant -/
  | const (c : Const)
  /-- a variable -/
  | symbol (name : String)
  /-- a bound placeholder -/
  | dummy (name : String)
  /-- a head with its arguments -/
  | app (head : Head) (args : List Expr)

namespace Expr

instance : Inhabited Expr := ⟨.rat 0⟩

/-! ## Equality -/

mutual

/-- Structural equality. -/
def beq : Expr → Expr → Bool
  | .rat p, .rat q => p == q
  | .float x b, .float y c => x == y && b == c
  | .const c, .const d => c == d
  | .symbol s, .symbol t => s == t
  | .dummy s, .dummy t => s == t
  | .app h as, .app g bs => h == g && beqAll as bs
  | _, _ => false

/-- Structural equality of argument lists. -/
def beqAll : List Expr → List Expr → Bool
  | [], [] => true
  | a :: as, b :: bs => beq a b && beqAll as bs
  | _, _ => false

end

instance : BEq Expr := ⟨beq⟩

/-! ## Building blocks -/

/-- A whole number. -/
def int (n : Int) : Expr := .rat n

/-- Zero. -/
def zero : Expr := .rat 0

/-- One. -/
def one : Expr := .rat 1

/-- Minus one. -/
def minusOne : Expr := .rat (-1)

/-- One half. -/
def half : Expr := .rat (1 / 2)

/-- The circle constant. -/
def pi : Expr := .const .pi

/-- Euler's number. -/
def euler : Expr := .const .e

/-- The imaginary unit. -/
def imaginary : Expr := .const .i

/-- Positive infinity. -/
def infinity : Expr := .const .infinity

/-- Infinity without a direction. -/
def complexInfinity : Expr := .const .complexInfinity

/-- The undefined value. -/
def undefined : Expr := .const .undefined

/-- A sum as it stands. -/
def rawAdd (ts : List Expr) : Expr := .app .add ts

/-- A product as it stands. -/
def rawMul (fs : List Expr) : Expr := .app .mul fs

/-- A power as it stands. -/
def rawPow (b e : Expr) : Expr := .app .pow [b, e]

/-- A function applied to arguments, as it stands. -/
def rawFn (f : Func) (args : List Expr) : Expr := .app (.fn f) args

/-- The interval in which values accumulate that have no limit. -/
def bounds (lower upper : Expr) : Expr := .app (.fn .bounds) [lower, upper]

/-- A product of factors that are in order: a single factor stands for itself, none for one. -/
def productOf : List Expr → Expr
  | [] => one
  | [x] => x
  | xs => rawMul xs

/-- A sum of terms that are in order: a single term stands for itself, none for zero. -/
def sumOf : List Expr → Expr
  | [] => zero
  | [x] => x
  | xs => rawAdd xs

/-! ## Shape -/

/-- The terms of a sum; anything else is its own only term. -/
def terms : Expr → List Expr
  | .app .add ts => ts
  | e => [e]

/-- The factors of a product; anything else is its own only factor. -/
def factors : Expr → List Expr
  | .app .mul fs => fs
  | e => [e]

/-- The arguments of an application. -/
def args : Expr → List Expr
  | .app _ as => as
  | _ => []

/-- Whether the expression is a sum. -/
def isAdd : Expr → Bool
  | .app .add _ => true
  | _ => false

/-- Whether the expression is a product. -/
def isMul : Expr → Bool
  | .app .mul _ => true
  | _ => false

/-- Whether the expression is a power. -/
def isPow : Expr → Bool
  | .app .pow _ => true
  | _ => false

/-- Whether the expression is a function applied to arguments. -/
def isFn : Expr → Bool
  | .app (.fn _) _ => true
  | .app .piecewise _ => true
  | _ => false

/-- Whether the expression is this function applied to arguments. -/
def isFnOf (f : Func) : Expr → Bool
  | .app (.fn g) _ => f == g
  | _ => false

/-- Whether the expression has no parts. -/
def isAtom : Expr → Bool
  | .app _ [] => true
  | .app _ _ => false
  | _ => true

/-- Whether the expression is a number, finite or not. -/
def isNumber : Expr → Bool
  | .rat _ => true
  | .float .. => true
  | .const .infinity => true
  | .const .negInfinity => true
  | .const .undefined => true
  | _ => false

/-- Whether the expression is an exact rational number. -/
def isRational : Expr → Bool
  | .rat _ => true
  | _ => false

/-- Whether the expression is a whole number. -/
def isInteger : Expr → Bool
  | .rat q => q.den == 1
  | _ => false

/-- The whole number that the expression is. -/
def int? : Expr → Option Int
  | .rat q => if q.den = 1 then some q.num else none
  | _ => none

/-- The rational number that the expression is. -/
def rat? : Expr → Option Rat
  | .rat q => some q
  | _ => none

/-- Whether the expression is the number zero, exact or not. -/
def isZero : Expr → Bool
  | .rat q => q == 0
  | .float x _ => x.isZero
  | _ => false

/-- Whether the expression is the exact number one. -/
def isOne (e : Expr) : Bool := e == one

/-- Whether the expression is the exact number minus one. -/
def isMinusOne (e : Expr) : Bool := e == minusOne

/-- Whether the expression is an infinity of any kind. -/
def isInfinite : Expr → Bool
  | .const .infinity => true
  | .const .negInfinity => true
  | .const .complexInfinity => true
  | _ => false

/-- The base and the exponent of a power; the exponential is a power of Euler's number, and the
reciprocal of a whole number is its power to minus the exponent. -/
def baseExp : Expr → Expr × Expr
  | .app .pow [.rat q, e] =>
    if q.num = 1 ∧ q.den ≠ 1 then (.rat q.den, match e with
      | .rat r => .rat (-r)
      | .app .mul (.rat r :: rest) =>
        if r = -1 then productOf rest else .app .mul (.rat (-r) :: rest)
      | .app .mul fs => .app .mul (minusOne :: fs)
      | e => .app .mul [minusOne, e])
    else (.rat q, e)
  | .app .pow [b, e] => (b, e)
  | .app (.fn .exp) [x] => (euler, x)
  | e => (e, one)

/-- The number in front of a product and what remains. -/
def coeffMul : Expr → Expr × Expr
  | .app .mul (c :: rest) =>
    if c.isNumber then (c, productOf rest) else (one, .app .mul (c :: rest))
  | e => if e.isNumber then (e, one) else (one, e)

/-- The rational number in front of a product and what remains.  A negative number that is not
rational leaves its sign. -/
def ratCoeffMul : Expr → Rat × Expr
  | .app .mul (.rat q :: rest) => (q, productOf rest)
  | .app .mul (.float x b :: rest) =>
    if x.isNegative then (-1, .app .mul (.float x.neg b :: rest))
    else (1, .app .mul (.float x b :: rest))
  | .app .mul (.const .negInfinity :: rest) => (-1, .app .mul (.const .infinity :: rest))
  | .rat q => (q, one)
  | .float x b => if x.isNegative then (-1, .float x.neg b) else (1, .float x b)
  | .const .negInfinity => (-1, .const .infinity)
  | e => (1, e)

/-- The number at the head of a sum and what remains. -/
def coeffAdd : Expr → Expr × Expr
  | .app .add (c :: rest) => if c.isNumber then (c, sumOf rest) else (zero, .app .add (c :: rest))
  | e => if e.isNumber then (e, zero) else (zero, e)

/-! ## Traversals -/

mutual

/-- The names of the free symbols, with repetitions, from left to right.  The variable of a
derivative counts; a placeholder does not. -/
def symbolList : Expr → List String
  | .symbol s => [s]
  | .app _ as => symbolLists as
  | _ => []

/-- The names of the free symbols of several expressions. -/
def symbolLists : List Expr → List String
  | [] => []
  | a :: as => symbolList a ++ symbolLists as

end

/-- The names of the free symbols, each once. -/
def freeSymbols (e : Expr) : List String := e.symbolList.eraseDups

mutual

/-- Whether some part of an expression, or the expression itself, satisfies the test. -/
def any (p : Expr → Bool) : Expr → Bool
  | .app h as => p (.app h as) || anyOf p as
  | e => p e

/-- Whether some part of one of several expressions satisfies the test. -/
def anyOf (p : Expr → Bool) : List Expr → Bool
  | [] => false
  | a :: as => any p a || anyOf p as

end

/-- Whether the expression holds no symbol and no placeholder. -/
def isConstant (e : Expr) : Bool :=
  !e.any fun
    | .symbol _ => true
    | .dummy _ => true
    | _ => false

/-- Whether the symbol occurs. -/
def hasSymbol (name : String) (e : Expr) : Bool := e.any fun x => x == .symbol name

/-- Whether the part occurs. -/
def has (e part : Expr) : Bool := e.any (· == part)

/-- Whether one of the functions occurs. -/
def hasFn (fs : List Func) (e : Expr) : Bool :=
  e.any fun
    | .app (.fn f) _ => fs.contains f
    | _ => false

/-- Whether an approximate number occurs. -/
def hasFloat (e : Expr) : Bool :=
  e.any fun
    | .float .. => true
    | _ => false

mutual

/-- The number of nodes. -/
def size : Expr → Nat
  | .app _ as => sizes as + 1
  | _ => 1

/-- The number of nodes of several expressions. -/
def sizes : List Expr → Nat
  | [] => 0
  | a :: as => size a + sizes as

end

mutual

/-- Rebuilds an expression from its leaves up. -/
def foldUp (leaf : Expr → Expr) (node : Head → List Expr → Expr) : Expr → Expr
  | .app h as => node h (foldUpAll leaf node as)
  | e => leaf e

/-- Rebuilds several expressions from their leaves up. -/
def foldUpAll (leaf : Expr → Expr) (node : Head → List Expr → Expr) : List Expr → List Expr
  | [] => []
  | a :: as => foldUp leaf node a :: foldUpAll leaf node as

end

mutual

/-- All parts that satisfy the test, each once in order, the whole first. -/
def partsWith (p : Expr → Bool) : Expr → List Expr
  | .app h as => (if p (.app h as) then [.app h as] else []) ++ partsOf p as
  | e => if p e then [e] else []

/-- All parts of several expressions that satisfy the test. -/
def partsOf (p : Expr → Bool) : List Expr → List Expr
  | [] => []
  | a :: as => partsWith p a ++ partsOf p as

end

end Expr

end ErrorBars
