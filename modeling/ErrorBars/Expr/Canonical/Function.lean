import ErrorBars.Expr.Canonical.Circular
import ErrorBars.Expr.Canonical.Reciprocal
import ErrorBars.Expr.Canonical.Logarithm
import ErrorBars.Expr.Canonical.Parts
import ErrorBars.Expr.Canonical.Remainder
import ErrorBars.Expr.Canonical.Extreme
import ErrorBars.Expr.Canonical.Factorial

/-!
# Canonical function applications

A function of a number that has a simple exact value is replaced by it, and so is a function of its
own inverse.  Odd and even functions take a leading minus out of their argument.  A function of
approximate numbers is computed.
-/

set_option autoImplicit false

namespace ErrorBars.Canonical

/-! ## Approximate arguments -/

/-- A value as an approximate number with as many bits as can be trusted. -/
def ofPart (bits : Nat) (p : Part) : Expr :=
  let kept := (max 1 (min (bits : Int) p.accuracy)).toNat
  match p.value with
  | .number x => if x.isZero then Expr.zero else .float x kept
  | v => Expr.ofExtended kept v

/-- The precision of an approximate number, real or with an imaginary part; zero for anything
else. -/
def knownBits : Expr → Nat
  | .app .add [re, t] =>
    match t.coeffMul with
    | (im, .const .i) => if re.isNumber then max re.precision im.precision else 0
    | _ => 0
  | e => e.precision

/-- The value of a function of approximate numbers. -/
def approximate? (A : Arith) (f : Func) (args : List Expr) : Option Expr :=
  let bits := (args.map knownBits).foldl max 0
  if args.isEmpty || args.any fun a => knownBits a = 0 then none
  else
    match (Expr.rawFn f args).evaluator (bits + 4) 332 with
    | .ok .complexInfinity => some Expr.complexInfinity
    | .ok (.parts none none) => some Expr.zero
    | .ok (.parts (some re) none) => some (ofPart bits re)
    | .ok (.parts re (some im)) =>
      let imaginary := A.mul (ofPart bits im) Expr.imaginary
      some (match re with
        | none => imaginary
        | some re => A.add (ofPart bits re) imaginary)
    | .error _ => none

/-! ## All functions -/

/-- The simpler form of a function of exact arguments, if it has one. -/
def simpler (A : Arith) (f : Func) (args : List Expr) : Option Expr :=
  match f, args with
  | .exp, [x] => exp A x
  | .log, [x] => log A x
  | .log, [x, b] => some (logBase A x b)
  | .sin, [x] => sin A x
  | .cos, [x] => cos A x
  | .tan, [x] => tan A x
  | .cot, [x] => cot A x
  | .sec, [x] => reciprocal A .sec false x
  | .csc, [x] => reciprocal A .csc true x
  | .sinc, [x] => sinc A x
  | .asin, [x] => asin A x
  | .acos, [x] => acos A x
  | .atan, [x] => atan A x
  | .atan2, [y, x] => atan2 A y x
  | .acot, [x] => acot A x
  | .asec, [x] => asec A x
  | .acsc, [x] => acsc A x
  | .sinh, [x] => sinh A x
  | .cosh, [x] => cosh A x
  | .tanh, [x] => tanh A x
  | .coth, [x] => coth A x
  | .sech, [x] => sech A x
  | .csch, [x] => csch A x
  | .asinh, [x] => asinh A x
  | .acosh, [x] => acosh A x
  | .atanh, [x] => atanh A x
  | .acoth, [x] => acoth A x
  | .asech, [x] => asech A x
  | .acsch, [x] => acsch A x
  | .abs, [x] => abs A x
  | .sign, [x] => sign A x
  | .re, [x] => re A x
  | .im, [x] => im A x
  | .arg, [x] => angle A x
  | .floor, [x] => rounding A false x
  | .ceiling, [x] => rounding A true x
  | .modulo, [p, q] => modulo A p q
  | .max, xs => extreme A true xs
  | .min, xs => extreme A false xs
  | .factorial, [x] => factorial x
  | .factorial2, [x] => factorial2 x
  | .binomial, [n, k] => binomial A n k
  | .gamma, [x] => gamma A x
  | .erf, [x] => erf A x
  | .erfc, [x] => erfc A x
  | .heaviside, [x] => heaviside x Expr.half
  | .heaviside, [x, edge] => heavisideWith x edge
  | .dirac, [x] => dirac A x
  | .dirac, [x, order] => diracDerivative A x order
  | .polygamma, [n, z] => polygamma A n z
  | _, _ => none

/-- The canonical function application. -/
def apply (A : Arith) (f : Func) (args : List Expr) : Expr :=
  match simpler A f args with
  | some v => v
  | none => (approximate? A f args).getD (Expr.rawFn f args)

end ErrorBars.Canonical
