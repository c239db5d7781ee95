import ErrorBars.Expr.Evaluate.Arith

/-!
# Functions

The evaluators of functions, given those of their arguments.
-/

set_option autoImplicit false

namespace ErrorBars.Evaluation

open Evaluated (valueOr)

/-- A logarithm.  Close to one the argument is evaluated again as one plus what it exceeds it by. -/
def logarithm (arg : Evaluator) : Evaluator := fun bits limit => do
  let wide := bits + 10
  match ← arg wide limit with
  | .complexInfinity => return .complexInfinity
  | .parts re none =>
    let x := valueOr re
    let l := x.log bits
    let l ← match l with
      | .number y =>
        if !y.isZero && decide ((wide : Int) < bits - y.magnitude) then do
          let minusOne : Evaluator := fun b _ => .ok (.real b (.number (Binary.ofInt (-1))))
          let d ← sum [minusOne, arg] bits limit
          let e := d.values.1
          let prec := (wide - e.magnitude).toNat
          pure (((e.add prec .one).abs).log bits)
        else pure l
      | _ => pure l
    return if x.isNegative then .parts (some ⟨l, bits⟩) (some ⟨.number (Elementary.pi bits), bits⟩)
      else .real bits l
  | x =>
    let (re, im) := logPair bits x.values
    return .parts (some ⟨re, bits⟩) (some ⟨im, bits⟩)

/-- Evaluates a sine or cosine until enough bits are left near its zeros. -/
def circularFrom (f : Nat → Binary → Binary) (arg : Evaluator) (bits limit : Nat) (size : Int) :
    Nat → Nat → Binary → Except EvalFault Evaluated
  | 0, _, x => .ok (.real bits (.number (f bits x)))
  | fuel + 1, wide, x => do
    let y := f bits x
    let gap := if y.isZero then 1000000 else -y.magnitude
    let accuracy := (wide : Int) - size - gap
    if (bits : Int) ≤ accuracy then return .real bits (.number y)
    else if limit < wide then return .parts (some ⟨.number y, accuracy⟩) none
    else
      let wide := wide + gap.toNat
      match (← arg wide limit).values.1 with
      | .number x => circularFrom f arg bits limit size fuel wide x
      | _ => return .undefined bits

/-- A sine or cosine. -/
def circular (wantCosine : Bool) (arg : Evaluator) : Evaluator := fun bits limit => do
  let f := if wantCosine then Elementary.cos else Elementary.sin
  let wide := bits + 20
  match ← arg wide limit with
  | .complexInfinity => return .undefined bits
  | .parts none none => return if wantCosine then .real bits .one else .zero
  | .parts (some re) none =>
    match re.value with
    | .number x =>
      let size := re.value.magnitude
      if size < 1 then return .real bits (.number (f bits x))
      else if 10 ≤ size then
        let wide := bits + size.toNat
        match (← arg wide limit).values.1 with
        | .number x => circularFrom f arg bits limit size 20 wide x
        | _ => return .undefined bits
      else circularFrom f arg bits limit size 20 wide x
    | _ => return .undefined bits
  | x =>
    let (re, im) := circularPair wantCosine (bits + 10) x.values
    return .ofComplex bits re im

/-- The arc tangent of a real number. -/
def arcTangent (arg : Evaluator) : Evaluator := fun bits limit => do
  match ← arg (bits + 5) limit with
  | .complexInfinity => throw .unsupported
  | .parts none none => return .zero
  | .parts (some re) none => return .real bits (re.value.arctan bits)
  | _ => throw .unsupported

/-- A part of a number, evaluated until enough bits of it are left. -/
def partFrom (wanted : Evaluated → Option Part) (arg : Evaluator) (bits limit : Nat) :
    Nat → Nat → Except EvalFault Evaluated
  | 0, wide => do return .parts (wanted (← arg wide limit)) none
  | fuel + 1, wide => do
    match ← arg wide limit with
    | .complexInfinity => return .undefined bits
    | x =>
      match wanted x with
      | none => return .zero
      | some p =>
        if p.value.isZero ∨ (bits : Int) ≤ p.accuracy ∨ p.value.magnitude < -(bits : Int) then
          return .parts (some p) none
        else partFrom wanted arg bits limit fuel (wide + 30)

/-- An absolute value. -/
def absolute (arg : Evaluator) : Evaluator := fun bits limit => do
  match ← arg (bits + 2) limit with
  | .complexInfinity => return .real bits (.infinite false)
  | .parts none none => return .zero
  | .parts (some p) none => return .parts (some { p with value := p.value.abs }) none
  | .parts none (some p) => return .parts (some { p with value := p.value.abs }) none
  | .parts (some re) (some im) =>
    return .parts (some ⟨absPair bits (re.value, im.value), re.accuracy⟩) none

/-- Rounds a number down.  A number that cannot be told from an integer is that integer. -/
def floorOf (p : Part) : Option Binary :=
  match p.value with
  | .number x =>
    if 0 ≤ x.exponent ∨ 4096 < x.magnitude then some x
    else
      let near := (x.add ⟨1, -1⟩).floor
      let d := x.sub (Binary.ofInt near)
      if d.isZero then some (Binary.ofInt near)
      else if d.magnitude < errorPlace p + 4 then some (Binary.ofInt near)
      else some (Binary.ofInt x.floor)
  | _ => none

/-- Rounds a number down or up. -/
def roundedPart (up : Bool) (p : Part) : Option Binary :=
  if up then (floorOf { p with value := p.value.neg }).map Binary.neg else floorOf p

/-- Whether a value is an odd whole number. -/
def isOdd : Extended → Bool
  | .number x => x.exponent == 0 && !x.isZero
  | _ => false

/-- The integer part of a real or imaginary part.  Only an odd whole number is settled at once: for
anything else the variables are looked at, and the values of all of them have to be whole. -/
def settledPart (up fractional : Bool) (bits : Nat) : Option Part → Except EvalFault (Option Part)
  | none => .ok none
  | some p =>
    if fractional && !isOdd p.value && !p.value.isZero then .error .unsettledInteger
    else
      match roundedPart up p with
      | some n => .ok (if n.isZero then none else some ⟨.number n, bits⟩)
      | none => .ok (some ⟨.undefined, bits⟩)

/-- The largest integer below, or the smallest above, of both parts of a number. -/
def integerPart (up fractional : Bool) (arg : Evaluator) : Evaluator := fun bits limit => do
  match ← arg (bits + 30) limit with
  | .complexInfinity => throw .infiniteInteger
  | .parts none none => return .zero
  | x =>
    let size := max x.values.1.magnitude x.values.2.magnitude
    match ← if 20 < size then arg (bits + 30 + size.toNat) limit else pure x with
    | .complexInfinity => throw .infiniteInteger
    | .parts re im =>
      let re ← settledPart up fractional bits re
      let im ← settledPart up fractional bits im
      return .parts re im

/-- The result of a function that is evaluated from plain numbers: zero is exact. -/
def plainResult (bits : Nat) (x : Extended) : Evaluated := if x.isZero then .zero else .real bits x

/-- One minus a square. -/
def oneMinusSquare (x : Binary) : Binary := (Binary.one.sub x).mul (Binary.one.add x)

/-- Whether a number is an integer that is not positive. -/
def isPole (x : Binary) : Bool := x.isInteger && (x.isZero || x.isNegative)

/-- The gamma function of a number that is no pole. -/
def gammaValue (bits : Nat) (x : Binary) : Except EvalFault Evaluated :=
  .ok (if x.magnitude ≤ Special.gammaLimit then plainResult bits (.number (Special.gamma bits x))
    else if x.isNegative then .zero
    else .real bits (.infinite false))

/-- The function that a function of a number is of its reciprocal. -/
def ofReciprocal? : Func → Option Func
  | .acot => some .atan
  | .asec => some .acos
  | .acsc => some .asin
  | .acoth => some .atanh
  | .asech => some .acosh
  | .acsch => some .asinh
  | _ => none

/-- A function of one real number that is not known through another one. -/
def basicValue (f : Func) (bits : Nat) (x : Binary) : Except EvalFault Evaluated :=
  let plain : Binary → Except EvalFault Evaluated := fun y => .ok (plainResult bits (.number y))
  let quotient : Binary → Binary → Except EvalFault Evaluated := fun a b =>
    if b.isZero then .ok .complexInfinity else plain (Binary.div bits a b)
  let wp := bits + 10
  let half := (Elementary.pi wp).scale (-1)
  match f with
  | .tan => quotient (Elementary.sin wp x) (Elementary.cos wp x)
  | .cot => quotient (Elementary.cos wp x) (Elementary.sin wp x)
  | .sec => quotient Binary.one (Elementary.cos wp x)
  | .csc => quotient Binary.one (Elementary.sin wp x)
  | .sinc => if x.isZero then .ok (.real bits .one) else quotient (Elementary.sin wp x) x
  | .sinh => plain (Elementary.sinh bits x)
  | .cosh => plain (Elementary.cosh bits x)
  | .tanh => plain (Elementary.tanh bits x)
  | .coth => quotient Binary.one (Elementary.tanh wp x)
  | .sech => quotient Binary.one (Elementary.cosh wp x)
  | .csch => quotient Binary.one (Elementary.sinh wp x)
  | .asinh => plain (Elementary.arsinh bits x)
  | .acosh =>
    if Binary.one.lt x || x == Binary.one then plain (Elementary.arcosh bits x)
    else if (oneMinusSquare x).isNegative then
      .ok (.ofComplex bits (.number (Elementary.arcosh bits x.neg)) (.number (Elementary.pi bits)))
    else .ok (.imaginary bits (.number (Elementary.arccos bits x)))
  | .asin =>
    if (oneMinusSquare x).isNegative then
      let im := Elementary.arcosh bits x.abs
      .ok (.ofComplex bits (.number (if x.isNegative then half.neg else half))
        (.number (if x.isNegative then im.neg else im)))
    else plain (Elementary.arcsin bits x)
  | .acos =>
    if (oneMinusSquare x).isNegative then
      let im := Elementary.arcosh bits x.abs
      if x.isNegative then
        .ok (.ofComplex bits (.number (Elementary.pi bits)) (.number im.neg))
      else .ok (.imaginary bits (.number im))
    else plain (Elementary.arccos bits x)
  | .atanh =>
    let rest := oneMinusSquare x
    if rest.isZero then .ok (.real bits (.infinite x.isNegative))
    else if rest.isNegative then
      let re := Elementary.artanh bits (Binary.div (bits + 20) Binary.one x)
      .ok (.ofComplex bits (.number re) (.number (if x.isNegative then half.neg else half)))
    else plain (Elementary.artanh bits x)
  | .sign =>
    .ok (if x.isZero then .zero
      else .real bits (.number (if x.isNegative then Binary.ofInt (-1) else Binary.one)))
  | .sin => plain (Elementary.sin bits x)
  | .atan => plain (Elementary.arctan bits x)
  | .arg => .ok (if x.isNegative then .real bits (.number (Elementary.pi bits)) else .zero)
  | .gamma => if isPole x then .error .unsupported else gammaValue bits x
  | .factorial =>
    let x := x.add Binary.one
    if isPole x then .error .unsupported else gammaValue bits x
  | .erf => plain (Special.erf bits x)
  | .erfc => plain (Special.erfc bits x)
  | .heaviside =>
    .ok (if x.isZero then .real bits (.number ⟨1, -1⟩)
      else if x.isNegative then .zero else .real bits .one)
  | .dirac => if x.isZero then .error .unsupported else .ok .zero
  | _ => .error .unsupported

/-- A function of one real number. -/
def unaryValue (f : Func) (bits : Nat) (x : Binary) : Except EvalFault Evaluated :=
  match ofReciprocal? f with
  | some g =>
    if x.isZero then .error .unsupported
    else basicValue g bits (Binary.div (bits + 40 + x.magnitude.natAbs) Binary.one x)
  | none => basicValue f bits x

/-- The remainder of a division that rounds down. -/
def modulo (bits : Nat) (x y : Binary) : Evaluated :=
  if y.isZero then .undefined bits
  else
    let q := (Binary.div (bits + 20 + (x.magnitude - y.magnitude).toNat) x y).floor
    let r := x.sub (y.mul (Binary.ofInt q))
    plainResult bits (.number (r.round bits))

/-- A function of two real numbers. -/
def binaryValue (f : Func) (bits : Nat) (x y : Binary) : Except EvalFault Evaluated :=
  match f with
  | .atan2 =>
    if x.isZero && y.isZero then .ok (.undefined bits)
    else .ok (plainResult bits (.number (Elementary.arctan2 bits x y)))
  | .modulo => .ok (modulo bits x y)
  | .polygamma =>
    if !x.isInteger || x.isNegative || Special.gammaLimit < y.magnitude then .error .unsupported
    else if isPole y then .ok .complexInfinity
    else .ok (plainResult bits (.number (Special.polygamma bits x.floor.toNat y)))
  | .binomial =>
    let wp := bits + 20
    let top := x.add Binary.one
    let left := y.add Binary.one
    let right := (x.sub y).add Binary.one
    if isPole left || isPole right then .ok .zero
    else if isPole top || Special.gammaLimit < top.magnitude || Special.gammaLimit < left.magnitude
    then .error .unsupported
    else
      let below := (Special.gamma wp left).mul (Special.gamma wp right)
      .ok (plainResult bits (.number (Binary.div bits (Special.gamma wp top) below)))
  | _ => .error .unsupported

/-- The largest of several numbers, or the smallest. -/
def extreme (largest : Bool) : List Binary → Option Binary
  | [] => none
  | x :: xs =>
    some (xs.foldl (fun m y => if largest then (if m.lt y then y else m)
      else (if y.lt m then y else m)) x)

/-- A number times the imaginary unit. -/
def turned : Evaluated → Evaluated
  | .complexInfinity => .complexInfinity
  | .parts re im => .parts (im.map fun p => { p with value := p.value.neg }) re

/-- A number with its sign changed. -/
def negated (x : Evaluated) : Evaluated := turned (turned x)

/-- A function of a multiple `y` of the imaginary unit, through a function of the real number
`y`. -/
def imaginaryValue? (f : Func) (bits : Nat) (y : Binary) : Option (Except EvalFault Evaluated) :=
  let along := fun (g : Func) => some ((unaryValue g bits y).map turned)
  let against := fun (g : Func) => some ((unaryValue g bits y).map fun v => negated (turned v))
  match f with
  | .tan => along .tanh
  | .cot => against .coth
  | .sec => some (unaryValue .sech bits y)
  | .csc => against .csch
  | .sinh => along .sin
  | .cosh => some (.ok (.real bits (.number (Elementary.cos bits y))))
  | .tanh => along .tan
  | .coth => against .cot
  | .sech => some (unaryValue .sec bits y)
  | .csch => against .csc
  | .asin => along .asinh
  | .asinh => along .asin
  | .atan => along .atanh
  | .atanh => along .atan
  | .sign => along .sign
  | .erf => some (.ok (.imaginary bits (.number (Special.erfi bits y))))
  | _ => none

/-- A function of a complex number that is not known through another one. -/
def basicComplexValue (f : Func) (bits : Nat) (x : Pair) : Except EvalFault Evaluated := do
  let wp := bits + 20
  let ofPair := fun (p : Pair) => Evaluated.ofComplex bits (p.1.round bits) (p.2.round bits)
  let quotient := fun (p q : Pair) => (guarded (divPair wp p q)).map ofPair
  let sin := circularPair false wp x
  let cos := circularPair true wp x
  let sinh := hyperbolicPair false wp x
  let cosh := hyperbolicPair true wp x
  match f with
  | .tan => quotient sin cos
  | .cot => quotient cos sin
  | .sec => quotient onePair cos
  | .csc => quotient onePair sin
  | .sinc => quotient sin x
  | .sinh => return ofPair sinh
  | .cosh => return ofPair cosh
  | .tanh => quotient sinh cosh
  | .coth => quotient cosh sinh
  | .sech => quotient onePair cosh
  | .csch => quotient onePair sinh
  | .asin => return ofPair (arcsinPair wp x)
  | .acos =>
    let half : Extended := .number ((Elementary.pi wp).scale (-1))
    return ofPair (addPair wp (half, .zero) (negPair (arcsinPair wp x)))
  | .atan => return ofPair (arctanPair wp x)
  | .asinh => return ofPair (negPair (timesI (arcsinPair wp (timesI x))))
  | .acosh => return ofPair (arcoshPair wp x)
  | .atanh => return ofPair (negPair (timesI (arctanPair wp (timesI x))))
  | .sign =>
    let size := absPair wp x
    quotient x (size, .zero)
  | .arg => return .real bits (Extended.arctan2 bits x.2 x.1)
  | _ => throw .unsupported

/-- A function of a complex number. -/
def complexValue (f : Func) (bits : Nat) (x : Pair) : Except EvalFault Evaluated := do
  match ofReciprocal? f with
  | some g => basicComplexValue g bits (← guarded (inversePair (bits + 40) x))
  | none => basicComplexValue f bits x

/-- The numbers that results stand for: a result without accurate bits, which is what is left of a
sum that cancelled, counts as zero. -/
def plainNumber? : Evaluated → Option (Binary × Option Binary)
  | .complexInfinity => none
  | .parts none none => some (Binary.zero, none)
  | .parts (some re) none =>
    match re.value with
    | .number x => some (if re.accuracy < 1 then Binary.zero else x, none)
    | _ => none
  | .parts none (some im) =>
    match im.value with
    | .number y => some (Binary.zero, if im.accuracy < 1 then none else some y)
    | _ => none
  | .parts (some re) (some im) =>
    match re.value, im.value with
    | .number x, .number y =>
      some (if re.accuracy < 1 then Binary.zero else x, if im.accuracy < 1 then none else some y)
    | _, _ => none

/-- A function that is evaluated from plain numbers. -/
def plainFunction (f : Func) (args : List Evaluator) : Evaluator := fun bits limit => do
  let values ← runAll (bits + 5) limit args
  match values.mapM plainNumber? with
  | none => throw .unsupported
  | some [(x, some y)] =>
    match if x.isZero then imaginaryValue? f bits y else none with
    | some v => v
    | none => complexValue f bits (.number x, .number y)
  | some xs =>
    if xs.any fun p => p.2.isSome then throw .unsupported
    else
      match f, xs.map (·.1) with
      | .max, xs => return ((extreme true xs).map fun m => plainResult bits (.number m)).getD .zero
      | .min, xs => return ((extreme false xs).map fun m => plainResult bits (.number m)).getD .zero
      | f, [x] => unaryValue f bits x
      | f, [x, y] => binaryValue f bits x y
      | _, _ => throw .unsupported

/-- The evaluator of a function that is followed into its argument, and so keeps track of accuracy;
the other functions are computed from plain numbers.  `fractional` tells whether a variable has a
value that is not whole. -/
def followed? (fractional : Bool) (f : Func) (args : List Evaluator) : Option Evaluator :=
  match f, args with
  | .exp, [x] => some (exponential x)
  | .log, [x] => some (logarithm x)
  | .sin, [x] => some (circular false x)
  | .cos, [x] => some (circular true x)
  | .atan, [x] => some (arcTangent x)
  | .abs, [x] => some (absolute x)
  | .re, [x] => some fun bits limit => partFrom (·.re?) x bits limit 8 bits
  | .im, [x] => some fun bits limit => partFrom (·.im?) x bits limit 8 bits
  | .floor, [x] => some (integerPart false fractional x)
  | .ceiling, [x] => some (integerPart true fractional x)
  | _, _ => none

/-- The evaluator of a function of closed arguments. -/
def function (f : Func) (args : List Evaluator) : Evaluator :=
  let plain := plainFunction f args
  match followed? false f args with
  | none => plain
  | some ev => fun bits limit =>
    match f, ev bits limit with
    | .atan, .error .unsupported => plain bits limit
    | _, v => v

end ErrorBars.Evaluation
