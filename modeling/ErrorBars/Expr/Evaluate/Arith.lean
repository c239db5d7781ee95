import ErrorBars.Expr.Evaluate.Complex

/-!
# Sums, products and powers

Where a sum cancels its terms are evaluated again with more bits until enough of the result is left,
or until the precision limit is reached.  A sum that cancels down to nothing even then keeps a
residue of the size of its last uncertain bit.
-/

set_option autoImplicit false

namespace ErrorBars.Evaluation

open Evaluated (valueOr)

/-! ## Sums -/

/-- Adds a term to a running sum `mantissa · 2 ^ exponent`.  Of two numbers of very different size
only the larger is kept. -/
def addTerm (wp : Nat) (sum : Int × Int) (x : Binary) : Int × Int :=
  let (m, e) := sum
  if e ≤ x.exponent then
    let d := (x.exponent - e).toNat
    if wp < d ∧ (m = 0 ∨ wp + bitLength m.natAbs < d) then (x.mantissa, x.exponent)
    else (m + x.mantissa * 2 ^ d, e)
  else
    let d := (e - x.exponent).toNat
    if wp + x.bits < d then (if m = 0 then (x.mantissa, x.exponent) else sum)
    else (m * 2 ^ d + x.mantissa, x.exponent)

/-- The place of the last bit of a part that can be trusted. -/
def errorPlace (p : Part) : Int := p.value.magnitude - p.accuracy

/-- The largest of the places of the last trusted bits. -/
def worstPlace : List Part → Int
  | [] => 0
  | [p] => errorPlace p
  | p :: ps => max (errorPlace p) (worstPlace ps)

/-- The sum of the values that are no numbers. -/
def specialSum (ps : List Part) : Extended :=
  match ps with
  | [] => .zero
  | p :: rest => rest.foldl (fun acc q => acc.add 1 q.value) p.value

/-- The number in a value that is one. -/
def number? : Extended → Option Binary
  | .number x => some x
  | _ => none

/-- Adds the parts of several terms.  If they cancel completely the sum is a residue without a
single accurate bit. -/
def addParts (ps : List Part) (bits target : Nat) : Option Part :=
  match ps.filter fun p => !p.value.isZero with
  | [] => none
  | [p] => some p
  | ps =>
    let special := ps.filter fun p => !p.value.isNumber
    if !special.isEmpty then some ⟨specialSum special, bits + 4⟩
    else
      let xs := ps.filterMap fun p => number? p.value
      let (m, e) := xs.foldl (addTerm (2 * bits)) (0, 0)
      let worst := worstPlace ps
      if m = 0 then some ⟨.number ⟨1, worst⟩, -1⟩
      else
        let x := Binary.normal m e
        some ⟨.number (x.round target), x.magnitude - worst⟩

/-- Runs evaluators in order, up to the first that fails. -/
def runAll (bits limit : Nat) : List Evaluator → Except EvalFault (List Evaluated)
  | [] => .ok []
  | ev :: evs => do
    let x ← ev bits limit
    let xs ← runAll bits limit evs
    return x :: xs

/-- The number of terms that are infinite without direction. -/
def countInfinite (xs : List Evaluated) : Nat :=
  xs.countP fun
    | .complexInfinity => true
    | _ => false

/-- One attempt at a sum. -/
def sumOnce (xs : List Evaluated) (bits target : Nat) : Evaluated :=
  let n := countInfinite xs
  if 2 ≤ n then .undefined bits
  else
    let re := addParts (xs.filterMap (·.re?)) bits target
    let im := addParts (xs.filterMap (·.im?)) bits target
    if n = 1 then
      if (re.any fun p => !p.value.isNumber) || (im.any fun p => !p.value.isNumber) then
        .undefined bits
      else .complexInfinity
    else .parts re im

/-- The sum of terms, tried with more and more bits until `target` of them are accurate. -/
def sumFrom (evs : List Evaluator) (target limit : Nat) :
    Nat → Nat → Nat → Except EvalFault Evaluated
  | 0, bits, _ => do
    let xs ← runAll (bits + 10) (min limit (2 * bits)) evs
    return sumOnce xs bits target
  | fuel + 1, bits, round => do
    let inner := min limit (2 * bits)
    let xs ← runAll (bits + 10) inner evs
    let sum := sumOnce xs bits target
    if countInfinite xs ≠ 0 then return sum
    else
      let accuracy := sum.accuracy
      if (target : Int) ≤ accuracy ∨ inner < bits - target then return sum
      else
        let more := max (10 + 2 ^ round : Int) (target - accuracy)
        sumFrom evs target limit fuel (bits + more.toNat) (round + 1)

/-- The evaluator of a sum. -/
def sum (evs : List Evaluator) : Evaluator := fun bits limit =>
  sumFrom evs bits limit 12 bits 0

/-! ## Products -/

/-- What is known of a product while its factors are multiplied: the product of the real and of the
purely imaginary factors, how many of the latter there were, the accuracy, and the factors that have
both parts. -/
structure ProductState where
  /-- the product of the factors with one part -/
  value : Extended
  /-- the number of imaginary factors -/
  turns : Nat
  /-- the accurate bits -/
  accuracy : Int
  /-- the factors with two parts -/
  complexFactors : List Evaluated

/-- Takes one factor into a product; `none` if the factor is exactly zero. -/
def takeFactor (wp : Nat) (s : ProductState) (x : Evaluated) : Option ProductState :=
  match x with
  | .complexInfinity => none
  | .parts none none => none
  | .parts (some re) none =>
    some { s with value := s.value.mul wp re.value, accuracy := min s.accuracy re.accuracy }
  | .parts none (some im) =>
    some { s with
      value := s.value.mul wp im.value, turns := s.turns + 1,
        accuracy := min s.accuracy im.accuracy }
  | x => some { s with complexFactors := x :: s.complexFactors }

/-- Takes factors in order; `none` if one of them is exactly zero. -/
def takeFactors (wp : Nat) : ProductState → List Evaluated → Option ProductState
  | s, [] => some s
  | s, x :: xs => (takeFactor wp s x).bind fun s => takeFactors wp s xs

/-- Multiplication by a power of the imaginary unit. -/
def turn (n : Nat) (x : Pair) : Pair :=
  match n % 4 with
  | 0 => x
  | 1 => (x.2.neg, x.1)
  | 2 => (x.1.neg, x.2.neg)
  | _ => (x.2, x.1.neg)

/-- The product described by a state. -/
def finishProduct (wp bits : Nat) (s : ProductState) : Evaluated :=
  match s.complexFactors.reverse with
  | [] =>
    let value := s.value.round bits
    let signed := if s.turns % 4 < 2 then value else value.neg
    if s.turns % 2 = 0 then .parts (some ⟨signed, s.accuracy⟩) none
    else .parts none (some ⟨signed, s.accuracy⟩)
  | factors =>
    let accuracy := factors.foldl (fun acc f => min acc f.accuracy) s.accuracy
    let product := factors.foldl (fun acc f => mulPair wp acc f.values) (s.value, .zero)
    let (re, im) := turn s.turns product
    .parts (some ⟨re, accuracy⟩) (some ⟨im, accuracy⟩)

/-- The product of the factors that are infinite or undefined.  Infinity without direction swallows
everything but what has no value. -/
def specialProduct (xs : List Evaluated) (bits : Nat) : Evaluated :=
  let values := xs.filterMap (·.re?) |>.map (·.value)
  let product := values.foldl (Extended.mul 1) .one
  if product = .undefined then .undefined (bits + 4)
  else if countInfinite xs = 0 then .real (bits + 4) product
  else .complexInfinity

/-- Whether a factor is infinite or undefined. -/
def isSpecial : Evaluated → Bool
  | .complexInfinity => true
  | .parts (some re) _ => !re.value.isNumber
  | _ => false

/-- Whether a factor is exactly zero. -/
def isExactZero : Evaluated → Bool
  | .parts none none => true
  | _ => false

/-- The evaluator of a product.  Factors without a finite value decide alone, whatever the sign of
the others; only an exact zero beside them leaves no value.  Otherwise a factor that is exactly zero
makes the product exactly zero. -/
def product (evs : List Evaluator) : Evaluator := fun bits limit => do
  let first ← runAll bits limit evs
  let special := first.filter isSpecial
  if !special.isEmpty then
    return if first.any isExactZero then .undefined (bits + 4) else specialProduct special bits
  else
    let wp := bits + evs.length + 5
    let xs ← runAll wp limit evs
    match takeFactors wp ⟨.one, 0, bits, []⟩ xs with
    | none => return .zero
    | some s => return finishProduct wp bits s

/-! ## Powers -/

/-- An integer power. -/
def powerInt (base : Evaluator) (n : Int) : Evaluator := fun bits limit => do
  if n = 0 then return .real bits .one
  else
    let wide := bits + (bitLength n.natAbs - 1)
    match ← base (wide + 5) limit with
    | .complexInfinity => return if n < 0 then .zero else .complexInfinity
    | .parts (some re) none => return .real bits (← guarded (re.value.powInt bits n))
    | .parts none (some im) =>
      let z ← guarded (im.value.powInt bits n)
      return match (n % 4).toNat with
        | 0 => .real bits z
        | 1 => .imaginary bits z
        | 2 => .real bits z.neg
        | _ => .imaginary bits z.neg
    | .parts none none => return if n < 0 then .complexInfinity else .zero
    | x =>
      let (re, im) ← guarded (powIntPair wide x.values n)
      return .ofComplex bits re im

/-- A square root. -/
def squareRoot (base : Evaluator) : Evaluator := fun bits limit => do
  match ← base (bits + 5) limit with
  | .complexInfinity => return .complexInfinity
  | .parts none none => return .zero
  | .parts (some re) none =>
    return if re.value.isNegative then .imaginary bits (re.value.neg.sqrt bits)
      else .real bits (re.value.sqrt bits)
  | x =>
    let (re, im) := sqrtPair bits x.values
    return .ofComplex bits re im

/-- A power of Euler's number. -/
def exponential (exponent : Evaluator) : Evaluator := fun bits limit => do
  let wide := bits + 10
  match ← exponent wide limit with
  | .complexInfinity => return .undefined wide
  | .parts none none => return .real wide .one
  | x =>
    let size := (x.values.1).magnitude
    let x ← if 5 < size then exponent (wide + size.toNat) limit else pure x
    match x with
    | .parts re none => return .real bits ((valueOr re).exp bits)
    | x =>
      let (re, im) := expPair (wide + size.toNat) x.values
      return .ofComplex bits re im

/-- A power with any exponent; `negative` tells whether the exponent is a negative rational. -/
def powerGeneral (base exponent : Evaluator) (rational negative : Bool) : Evaluator :=
  fun bits limit => do
    match ← base (bits + 5) limit with
    | .complexInfinity =>
      if rational then return if negative then .zero else .complexInfinity
      else throw .unsupported
    | _ =>
      let wide := bits + 10
      match ← exponent wide limit with
      | .complexInfinity => return .undefined wide
      | .parts none none => return .real wide .one
      | y =>
        let size := (y.values.1).magnitude
        let wide := if 5 < size then wide + size.toNat else wide
        let y ← if 5 < size then exponent wide limit else pure y
        let (yre, yim) := y.values
        match ← base (wide + 5) limit with
        | .parts none none =>
          if y.im?.isSome then return .undefined wide
          else return if yre.isNegative then .complexInfinity else .zero
        | x =>
          let (xre, xim) := x.values
          if y.im?.isSome then
            let (re, im) := expPair wide (mulPair wide (logPair (wide + 10) (xre, xim)) (yre, yim))
            return .ofComplex bits re im
          else if x.im?.isSome || xre.isNegative then
            let (re, im) ← guarded (powRealPair wide (xre, xim) yre)
            return .ofComplex bits re im
          else return .real bits (← guarded (xre.pow bits yre))

end ErrorBars.Evaluation
