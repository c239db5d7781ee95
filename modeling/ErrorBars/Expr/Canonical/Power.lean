import ErrorBars.Expr.Canonical.Bounds
import ErrorBars.Expr.Canonical.Turn

/-!
# Canonical powers

Powers of numbers are computed where they are numbers, and roots of whole numbers give up what can
be taken out of them.  A power of a product is a product of powers where that is right for all
complex numbers: always for whole exponents, and otherwise for the factors known not to be below
zero.  The exponents of a power of a power are multiplied under the same care.
-/

set_option autoImplicit false

namespace ErrorBars.Canonical

/-! ## Powers of numbers -/

/-- A rational number to a whole power; `none` for a negative power of zero. -/
def ratPower? (q : Rat) (n : Int) : Option Rat :=
  if 0 ≤ n then some (mkRat (q.num ^ n.toNat) (q.den ^ n.toNat))
  else if q.num = 0 then none
  else
    let p := mkRat ((q.den : Int) ^ n.natAbs) (q.num.natAbs ^ n.natAbs)
    some (if q.num < 0 ∧ n % 2 ≠ 0 then -p else p)

/-- What is taken out of a root of a whole number, and what stays under it. -/
structure RootSplit where
  /-- the whole number taken out -/
  outside : Nat
  /-- roots with a smaller denominator, as base and exponent -/
  reduced : List (Nat × Rat)
  /-- what stays under the root, as base and exponent -/
  inside : List (Nat × Nat)

/-- Splits the prime factors of a number under a root with exponent `p / q`. -/
def splitRoot (p q : Nat) (factors : List (Nat × Nat)) : RootSplit :=
  factors.foldl (fun s f =>
    let k := f.2 * p
    let s := { s with outside := s.outside * f.1 ^ (k / q) }
    let m := k % q
    if m = 0 then s
    else
      let g := Nat.gcd m q
      if g = 1 then { s with inside := s.inside ++ [(f.1, m)] }
      else { s with reduced := s.reduced ++ [(f.1, mkRat (m / g : Nat) (q / g))] }) ⟨1, [], []⟩

/-- A natural number above one to a positive fractional power; `none` if nothing can be taken out of
the root. -/
def naturalRoot (A : Arith) (n : Nat) (r : Rat) : Option Expr :=
  let p := r.num.toNat
  let q := r.den
  match exactRoot? q n with
  | some x => some (Expr.int ((x ^ p : Nat) : Int))
  | none =>
    let factors := match perfectPower? n with
      | some f => [f]
      | none => smallFactors n
    let s := splitRoot p q factors
    let g := s.inside.foldl (fun acc f => Nat.gcd acc f.2) 0
    let inside := s.inside.foldl (fun acc f => acc * f.1 ^ (f.2 / g)) 1
    if inside = n ∧ s.outside = 1 ∧ s.reduced.isEmpty then none
    else
      let core := if inside = 1 then Expr.one
        else
          let x := mkRat (g : Int) q
          if x = r ∧ inside = n then Expr.rawPow (Expr.int n) (.rat r)
          else A.power (Expr.int inside) (.rat x)
      some (A.product (Expr.int s.outside ::
        s.reduced.map (fun f => A.power (Expr.int f.1) (.rat f.2)) ++ [core]))

/-- Minus one to a fractional power. -/
def minusOnePower (A : Arith) (r : Rat) : Expr :=
  if r.den = 2 then A.power Expr.imaginary (Expr.int r.num)
  else
    let n := r.num / r.den
    let part := r - n
    let root := Expr.rawPow Expr.minusOne (.rat part)
    if n % 2 = 0 then root else A.product [Expr.minusOne, root]

/-- A whole number to a fractional power; `none` if it stays as it is. -/
def integerRoot (A : Arith) (n : Int) (r : Rat) : Option Expr :=
  if n = 0 then some (if r < 0 then Expr.complexInfinity else Expr.zero)
  else if n = 1 then some Expr.one
  else if n = -1 then
    let v := minusOnePower A r
    if v == Expr.rawPow Expr.minusOne (.rat r) then none else some v
  else if r = 1 / 2 ∧ n < 0 then
    some (A.product [Expr.imaginary, A.power (Expr.int (-n)) (.rat r)])
  else if r < 0 then
    if n < 0 then
      some (A.product [A.power Expr.minusOne (.rat r),
        A.power (.rat (mkRat 1 n.natAbs)) (.rat (-r))])
    else some (A.power (.rat (mkRat 1 n.natAbs)) (.rat (-r)))
  else
    match naturalRoot A n.natAbs r with
    | none => none
    | some v => some (if n < 0 then A.product [v, A.power Expr.minusOne (.rat r)] else v)

/-- A fraction to a fractional power. -/
def fractionRoot (A : Arith) (b : Rat) (r : Rat) : Expr :=
  if r < 0 then
    if b < 0 then
      A.product [A.power Expr.minusOne (.rat r),
        A.power (.rat (mkRat b.den b.num.natAbs)) (.rat (-r))]
    else A.power (.rat (mkRat b.den b.num.natAbs)) (.rat (-r))
  else
    let whole := (r.num / r.den).toNat + 1
    let missing : Rat := whole - r
    let below := A.power (Expr.int b.den) (.rat missing)
    let scale := Expr.rat (mkRat 1 (b.den ^ whole))
    if b.num = 1 then A.product [below, scale]
    else A.product [A.power (Expr.int b.num) (.rat r), below, scale]

/-- A number of finite size as a binary number. -/
def binary? (bits : Nat) (e : Expr) : Option Binary :=
  match e.toExtended bits with
  | .number x => some x
  | _ => none

/-- A complex value as an expression. -/
def ofPair (A : Arith) (bits : Nat) (p : Extended × Extended) : Expr :=
  A.sum [Expr.ofExtended bits p.1, A.product [Expr.ofExtended bits p.2, Expr.imaginary]]

/-- An approximate number to the power of a number. -/
def approxPower (A : Arith) (x : Binary) (bits : Nat) (e : Expr) : Option Expr :=
  if x.isZero then
    if e.isPositiveNumber then some (.float x bits)
    else if e.isNegativeNumber then some Expr.complexInfinity
    else none
  else
    match e with
    | .rat q =>
      if q.den = 1 then some (Expr.approx (Binary.powInt bits x q.num) bits)
      else if q.num = 1 ∧ q.den % 2 = 1 ∧ x.isNegative then
        some (A.product [Expr.rawPow Expr.minusOne e, A.power (.float x.neg bits) e])
      else general
    | .float .. => general
    | .const .infinity => general
    | .const .negInfinity => general
    | _ => none
where
  /-- The power through values. -/
  general : Option Expr :=
    let bits := max bits e.precision
    let y := e.toExtended bits
    if x.isNegative then
      match Evaluation.powRealPair bits (.number x, .zero) y with
      | .ok p => some (ofPair A bits p)
      | .error _ => none
    else
      match Extended.pow bits (.number x) y with
      | .ok v => some (Expr.ofExtended bits v)
      | .error _ => none

/-- Zero to a power. -/
def zeroPower (A : Arith) (e : Expr) : Option Expr :=
  let f := e.facts
  if f.isPositive then some Expr.zero
  else if f.isNegative then some Expr.complexInfinity
  else if f.real == some false then some Expr.undefined
  else
    let (c, t) := e.coeffMul
    if c == Expr.one then none
    else if c.isNegativeNumber then some (A.power Expr.complexInfinity t)
    else some (A.power Expr.zero t)

/-- Positive infinity to a power. -/
def infinityPower (A : Arith) (e : Expr) : Option Expr :=
  let f := e.facts
  if f.isPositive then some Expr.infinity
  else if f.isNegative then some Expr.zero
  else if e.isConstant && f.real == some false then
    let part := A.apply .re [e]
    if part.isPositive then some Expr.complexInfinity
    else if part.isNegative then some Expr.zero
    else if part.facts.zero == some true then some Expr.undefined
    else none
  else none

/-- Negative infinity to a power that is closed: the power of positive infinity, turned by the power
of minus one. -/
def negInfinityPower (A : Arith) (e : Expr) : Option Expr :=
  if !e.isConstant then none
  else if e.isInfinite then some Expr.undefined
  else
    match e.int? with
    | some n =>
      some (if n < 0 then Expr.zero
        else if n % 2 = 1 then .const .negInfinity else Expr.infinity)
    | none =>
      let size := A.power Expr.infinity e
      if size.isZero then some Expr.zero
      else if size == Expr.complexInfinity then some size
      else some (A.product [A.power Expr.minusOne e, size])

/-- An infinity without direction to a power. -/
def complexInfinityPower (e : Expr) : Option Expr :=
  if e.isNumber then
    some (if e.isPositiveNumber && !e.isInfinite then Expr.complexInfinity else Expr.zero)
  else none

/-- A rational number to a power; `none` if the power stays as it is. -/
def rationalPower (A : Arith) (b : Rat) (e : Expr) : Option Expr :=
  if b = 0 then zeroPower A e
  else
    match e with
    | .rat r =>
      if r.den = 1 then (ratPower? b r.num).map .rat
      else if b.den = 1 then integerRoot A b.num r
      else some (fractionRoot A b r)
    | .float y bits => approxPower A (Binary.ofRat bits b) bits (.float y bits)
    | .const .infinity => if b = -1 then some Expr.undefined else none
    | .const .negInfinity =>
      if b = -1 ∨ b < 0 ∧ b.den ≠ 1 then some Expr.undefined
      else some (A.power (.rat (1 / b)) Expr.infinity)
    | e =>
      if b < 0 ∧ e.facts.even == some true then some (A.power (.rat (-b)) e) else none

/-! ## Powers of composed expressions -/

/-- A power of the imaginary unit. -/
def imaginaryPower (A : Arith) (e : Expr) : Option Expr :=
  match e with
  | .rat q =>
    if q.den = 1 then
      some (match (q.num % 4).toNat with
        | 0 => Expr.one
        | 1 => Expr.imaginary
        | 2 => Expr.minusOne
        | _ => A.neg Expr.imaginary)
    else
      let n := (q / 2).num / (q / 2).den
      if n = 0 then none
      else
        let v := Expr.rawPow Expr.imaginary (.rat (q - 2 * n))
        some (if n % 2 = 0 then v else Expr.rawMul [Expr.minusOne, v])
  | _ => none

/-- The factors of a base, told apart by what is known of their sign. -/
structure BaseFactors where
  /-- known not to be below zero -/
  nonnegative : List Expr
  /-- real, and known not to be nonnegative -/
  negative : List Expr
  /-- all others -/
  other : List Expr

/-- Tells factors apart by sign. -/
def splitBase (fs : List Expr) : BaseFactors :=
  fs.foldr (fun f s =>
    let k := f.facts
    if k.real == some false then { s with other := f :: s.other }
    else if k.isNonnegative then { s with nonnegative := f :: s.nonnegative }
    else if k.isNegative then { s with negative := f :: s.negative }
    else { s with other := f :: s.other }) ⟨[], [], []⟩

/-- Makes negative factors positive, in pairs; a sign that is left goes to the other factors. -/
def pairNegatives (A : Arith) (s : BaseFactors) : BaseFactors :=
  match s.negative with
  | [] => s
  | [n] =>
    if s.other.isEmpty then { s with other := [n], negative := [] }
    else if n.isNumber && !(n == Expr.minusOne) then
      ⟨s.nonnegative ++ [A.neg n], [], s.other ++ [Expr.minusOne]⟩
    else { s with other := s.other ++ [n], negative := [] }
  | n :: rest =>
    let (first, rest) := if s.other.isEmpty && n.isNumber then (n, rest) else (Expr.one, n :: rest)
    let first := if rest.length % 2 = 1 then A.neg first else first
    ⟨s.nonnegative ++ rest.map A.neg, [],
      if first == Expr.one then s.other else s.other ++ [first]⟩

/-- A power of a product with a fractional exponent. -/
def expandBase (A : Arith) (fs : List Expr) (e : Expr) : Expr :=
  let s := pairNegatives A (splitBase fs)
  if s.nonnegative.isEmpty then Expr.rawPow (.app .mul fs) e
  else
    -- a product here is a factor with its sign changed, which would come back to this
    let outside := s.nonnegative.map fun f => if f.isMul then Expr.rawPow f e else A.power f e
    match s.other with
    | [] => A.product outside
    | [f] => A.product (outside ++ [A.power f e])
    | others =>
      let m := A.product others
      A.product (outside ++ [if m.isMul then Expr.rawPow m e else A.power m e])

/-- The rational number in front of the imaginary unit. -/
def imaginaryCoeff? : List Expr → Option Rat
  | [.rat a, .const .i] => some a
  | _ => none

/-- The root of a non-negative rational number, if it is rational. -/
def rationalSqrt? (q : Rat) : Option Rat :=
  if q < 0 then none
  else
    match exactRoot? 2 q.num.natAbs, exactRoot? 2 q.den with
    | some a, some b => some (mkRat a b)
    | _, _ => none

/-- A power of a product. -/
def productPower (A : Arith) (fs : List Expr) (e : Expr) : Option Expr :=
  match e with
  | .rat q =>
    if q.den = 1 then some (A.product (fs.map fun f => A.power f e))
    else
      let gaussian := if q.den = 2 then
          (imaginaryCoeff? fs).bind fun a =>
            (rationalSqrt? (if a < 0 then -a / 2 else a / 2)).map fun r => (a, r)
        else none
      match gaussian with
      | some (a, r) =>
        let unit := A.sum [Expr.one, if a < 0 then A.neg Expr.imaginary else Expr.imaginary]
        some (A.product [A.power (.rat r) (Expr.int q.num), A.power unit (Expr.int q.num)])
      | none => some (expandBase A fs e)
  | .float .. => some (expandBase A fs e)
  | _ => none

/-- The real and the imaginary part of a natural power of a complex number. -/
def gaussianPower (a b : Rat) : Nat → Rat × Rat
  | 0 => (1, 0)
  | n + 1 =>
    let (c, d) := gaussianPower a b n
    (a * c - b * d, b * c + a * d)

/-- A power of a complex number: its reciprocal gets a real denominator, and its root is taken if
the absolute value is rational. -/
def complexPower (A : Arith) (a b q : Rat) : Option Expr :=
  if q.den = 2 then
    (rationalSqrt? (a * a + b * b)).map fun d =>
      let size := if b < 0 then -b else b
      let root := A.power (A.power (.rat ((d - a) / 2)) Expr.half) (Expr.int q.num)
      let (c, s) := gaussianPower ((d + a) / size) (if b < 0 then -1 else 1) q.num.natAbs
      let expanded := A.sum [.rat c, A.product [.rat s, Expr.imaginary]]
      A.product [root, if q < 0 then A.power expanded Expr.minusOne else expanded]
  else if q = -1 then
    some (A.keepCoeff (.rat (1 / (a * a + b * b)))
      (A.sum [.rat a, A.product [.rat (-b), Expr.imaginary]]))
  else none

/-- The two numbers in a number plus a number times the imaginary unit. -/
def complexNumber? : List Expr → Option (Expr × Expr)
  | [a, .app .mul [b, .const .i]] => if a.isNumber && b.isNumber then some (a, b) else none
  | [a, .const .i] => if a.isNumber then some (a, Expr.one) else none
  | _ => none

/-- The reciprocal of a number with approximate parts, which gets a real denominator. -/
def approximateInverse (A : Arith) (a b : Expr) : Expr :=
  let size := Expr.addNumbers (Expr.mulNumbers a a) (Expr.mulNumbers b b)
  A.keepCoeff (A.inv size) (A.sum [a, A.product [Expr.negNumber b, Expr.imaginary]])

/-- A power of a sum of a real and an imaginary term of which one is infinite. -/
def infiniteSumPower (a b e : Expr) : Option Expr :=
  let isAlong := fun (t : Expr) => t == Expr.imaginary || t.factors.any (· == Expr.imaginary)
  let (a, b) := if isAlong a then (b, a) else (a, b)
  let isRealTerm := fun (t : Expr) => t.facts.real == some true
  if isAlong b && isRealTerm a &&
      isRealTerm (Expr.productOf (b.factors.filter fun f => !(f == Expr.imaginary))) then
    if e.isNegative then some Expr.zero
    else if e.isPositive then some Expr.complexInfinity
    else none
  else none

/-- Whether a term is infinite. -/
def isInfiniteTerm (t : Expr) : Bool := t.isInfinite || t.coeffMul.1.isInfinite

/-- A power of a sum. -/
def sumPower (A : Arith) (ts : List Expr) (e : Expr) : Option Expr :=
  let infinite := match ts with
    | [a, b] => if isInfiniteTerm a || isInfiniteTerm b then some (a, b) else none
    | _ => none
  match infinite with
  | some (a, b) => infiniteSumPower a b e
  | none =>
    match complexNumber? ts, e with
    | some (.rat a, .rat b), .rat q => complexPower A a b q
    | some (a, b), e => if e == Expr.minusOne then some (approximateInverse A a b) else none
    | none, _ => none

/-- Whether an exponent is a fraction with denominator two. -/
def isHalf : Expr → Bool
  | .rat q => q.den = 2
  | _ => false

/-- Whether an absolute value is known to be below a number. -/
def isWithin (n : Int) (e : Expr) : Bool :=
  match e with
  | .rat q => -(n : Rat) < q ∧ q < n
  | .const _ => false
  | e =>
    e.isConstant && (Expr.rawAdd [Expr.int n, e]).isPositive &&
      (Expr.rawAdd [Expr.int n, Expr.rawMul [Expr.minusOne, e]]).isPositive

/-- How many full turns the angle of a closed power `b ^ x`, which is that of `b` times `x`, has to
be moved to lie in the half turns around zero. -/
def fullTurns? (b x : Expr) : Option Int :=
  if b.isConstant && x.isConstant then
    let angle := Expr.rawFn .im [Expr.rawMul [x, Expr.rawFn .log [b]]]
    let turns := Expr.rawMul [.rat (-1 / 2), angle, Expr.rawPow Expr.pi Expr.minusOne]
    match (Expr.rawFn .floor [Expr.rawAdd [Expr.half, turns]]).evaluator 60 332 with
    | .ok v =>
      match v.values.1 with
      | .number n => some n.floor
      | _ => none
    | .error _ => none
  else none

/-- A power of the closed power `b ^ x`: the exponents are multiplied, and full turns that were lost
count as a sign if that is all they come to. -/
def turnedPower (A : Arith) (b x e : Expr) : Option Expr :=
  (fullTurns? b x).bind fun n =>
    let merged := A.power b (A.mul x e)
    if n = 0 then some merged
    else
      match e with
      | .rat q =>
        let half : Rat := 2 * q * n
        if half.den ≠ 1 then none
        else if half.num % 2 = 0 then some merged
        else some (A.neg merged)
      | _ => none

/-- A power of the power `b ^ x`. -/
def powerPower (A : Arith) (b x e : Expr) : Option Expr :=
  if e.isWhole then some (A.power b (A.mul x e))
  else
    let f := x.facts
    if f.real == some true then
      if x == Expr.minusOne && isHalf e && b.isNegative then
        some (A.product [A.power Expr.minusOne e, A.power (A.neg b) (A.mul x e)])
      else if x == Expr.minusOne && isHalf e && b.facts.negative == some false then
        some (A.power b (A.neg e))
      else
        let b' := if f.even == some true && b.facts.real == some true then A.apply .abs [b] else b
        if isWithin 1 x || x == Expr.one || b'.isNonnegative
            || isWithin 2 x && b'.isConstant && (A.apply .re [b']).isNonnegative then
          some (A.power b' (A.mul x e))
        else if isHalf e then turnedPower A b' x e
        else none
    else if f.real == some false then turnedPower A b x e
    else none

/-- Whether an expression is known to exceed a number. -/
def exceeds (e : Expr) (n : Int) : Bool :=
  match e with
  | .rat q => (n : Rat) < q
  | .float x _ => (Binary.ofInt n).lt x
  | .const .infinity => true
  | e =>
    e.isConstant &&
      match (Expr.rawAdd [e, Expr.int (-n)]).closedFacts.positive with
      | some b => b
      | none => false

/-- Whether an expression is known to be less than a number. -/
def fallsBelow (e : Expr) (n : Int) : Bool :=
  match e with
  | .rat q => q < (n : Rat)
  | .float x _ => x.lt (Binary.ofInt n)
  | .const .negInfinity => true
  | e =>
    e.isConstant &&
      match (Expr.rawAdd [e, Expr.int (-n)]).closedFacts.negative with
      | some b => b
      | none => false

/-- The exponent without the reciprocal of the logarithm of the base, if it has that factor. -/
def withoutLog? (A : Arith) (b e : Expr) : Option Expr :=
  let reciprocal := Expr.rawPow (Expr.rawFn .log [b]) Expr.minusOne
  if e.factors.any (· == reciprocal) then
    some (A.product (e.factors.filter fun f => !(f == reciprocal)))
  else none

/-- A power by the kind of its base. -/
def powerByBase (A : Arith) (b e : Expr) : Option Expr :=
  match b with
  | .rat q => rationalPower A q e
  | .float x bits => approxPower A x bits e
  | .const .e => some (A.apply .exp [e])
  | .const .i => imaginaryPower A e
  | .const .infinity => infinityPower A e
  | .const .negInfinity => negInfinityPower A e
  | .const .complexInfinity => complexInfinityPower e
  | .app .mul fs => productPower A fs e
  | .app .add ts => sumPower A ts e
  | .app .pow [c, x] =>
    let (c, x) := (Expr.app .pow [c, x]).baseExp
    powerPower A c x e
  | .app (.fn .exp) [x] => powerPower A Expr.euler x e
  | _ => none

/-- The limit of a power whose exponent grows beyond all bounds. -/
def infiniteExponent? (b : Expr) : Option Expr :=
  if exceeds b 1 then some Expr.infinity
  else if exceeds b (-1) && fallsBelow b 1 then some Expr.zero
  else if fallsBelow b (-1) then
    some (if b == .const .negInfinity then Expr.undefined else Expr.complexInfinity)
  else none

/-- A power whose exponent is neither zero nor one. -/
def generalPower (A : Arith) (b e : Expr) : Expr :=
  if b == Expr.undefined || e == Expr.undefined then Expr.undefined
  else if b.isFnOf .bounds || e.isFnOf .bounds && !(b == Expr.euler) then
    (boundsPower? A b e).getD (Expr.rawPow b e)
  else if b == Expr.one then if e.isInfinite then Expr.undefined else Expr.one
  else
    let viaLog := if e.isAtom || b == Expr.euler then none else withoutLog? A b e
    match viaLog with
    | some rest => A.apply .exp [rest]
    | none => (powerByBase A b e).getD (Expr.rawPow b e)

/-- Whether a base is a closed number with a sign that a whole exponent can take out. -/
def hasSign (b : Expr) : Bool :=
  (b.isNumber || (b.isMul && b.isConstant)) && b.leadsWithMinus

/-- The canonical power. -/
def power (A : Arith) (b e : Expr) : Expr :=
  if e == Expr.complexInfinity then Expr.undefined
  else
    let limit := if e == Expr.infinity then infiniteExponent? b else none
    match limit with
    | some v => v
    | none =>
      if e == Expr.zero then Expr.one
      else if e == Expr.one then b
      else if e == Expr.minusOne && b.isZero then Expr.complexInfinity
      else
        match e.int? with
        | some n =>
          if hasSign b then
            if n % 2 = 0 then generalPower A (A.neg b) e
            else A.neg (A.power (A.neg b) e)
          else generalPower A b e
        | none => generalPower A b e

end ErrorBars.Canonical
