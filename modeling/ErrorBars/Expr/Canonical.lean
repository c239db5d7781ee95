import ErrorBars.Expr.Canonical.Sum
import ErrorBars.Expr.Canonical.Product
import ErrorBars.Expr.Canonical.Power
import ErrorBars.Expr.Canonical.Function
import ErrorBars.Expr.Canonical.Refused

/-!
# Canonical forms

The standard constructors: `Arith.step` writes each constructor over the constructors of the level
below, and `Arith.standard` is the level that is high enough for every use of one constructor inside
another to come to its end.
-/

set_option autoImplicit false

namespace ErrorBars

namespace Arith

/-- The constructors written over given ones. -/
def step (A : Arith) : Arith where
  sum := Canonical.sum A
  product := Canonical.product A
  power := Canonical.power A
  apply := Canonical.apply A

/-- The constructors after so many steps. -/
def level : Nat → Arith
  | 0 => plain
  | n + 1 => step (level n)

/-- The level of the standard constructors. -/
def standardLevel : Nat := 40

/-- The standard constructors. -/
def standard : Arith := level standardLevel

end Arith

namespace Expr

/-- The sum of several terms. -/
def sum (es : List Expr) : Expr := Arith.standard.sum es

/-- The product of several factors. -/
def product (es : List Expr) : Expr := Arith.standard.product es

/-- The power of a base with an exponent. -/
def power (b e : Expr) : Expr := Arith.standard.power b e

/-- A function of arguments. -/
def apply (f : Func) (args : List Expr) : Expr := Arith.standard.apply f args

/-- A function of arguments that it may refuse. -/
def applyChecked (f : Func) (args : List Expr) : Except ArgumentFault Expr :=
  match Canonical.refused? f args with
  | some fault => .error fault
  | none => .ok (apply f args)

instance : Add Expr := ⟨Arith.standard.add⟩
instance : Mul Expr := ⟨Arith.standard.mul⟩
instance : Sub Expr := ⟨Arith.standard.sub⟩
instance : Neg Expr := ⟨Arith.standard.neg⟩
instance : Div Expr := ⟨Arith.standard.div⟩

/-- The reciprocal. -/
def inv (e : Expr) : Expr := Arith.standard.inv e

/-- The square root. -/
def sqrt (e : Expr) : Expr := Arith.standard.sqrt e

/-- A number times an expression, left unexpanded. -/
def keepCoeff (c e : Expr) : Expr := Arith.standard.keepCoeff c e

/-- An application built anew from its arguments. -/
def rebuild (h : Head) (args : List Expr) : Expr :=
  match h, args with
  | .add, args => sum args
  | .mul, args => product args
  | .pow, [b, e] => power b e
  | .fn f, args => apply f args
  | h, args => .app h args

mutual

/-- Changes an expression from its leaves up.  An application is built anew only if an argument has
changed, so that parts left unexpanded stay so; leaves stay as they are. -/
def bottomUp (f : Expr → Expr) : Expr → Expr
  | .app h as =>
    let bs := bottomUpAll f as
    f (if bs == as then .app h as else rebuild h bs)
  | e => e

/-- Changes several expressions from their leaves up. -/
def bottomUpAll (f : Expr → Expr) : List Expr → List Expr
  | [] => []
  | a :: as => bottomUp f a :: bottomUpAll f as

end

end Expr

end ErrorBars
