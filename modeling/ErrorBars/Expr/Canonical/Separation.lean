import ErrorBars.Expr.Canonical.Remainder
import ErrorBars.Expr.Canonical.Complex

/-!
# Real and imaginary parts

The real and the imaginary part of an expression are found from those of its parts, by the addition
theorems: of a product, of a power with a number as its exponent, of the exponential, the logarithm
and the circular and hyperbolic functions.  A variable stands for any complex number, so its parts
stay as they are; so do those of a product of such factors alone.

* `Canonical.re`, `Canonical.im` — the parts of an expression.
* `Canonical.angle` — its angle, which is that of the point with these coordinates.
-/

set_option autoImplicit false

namespace ErrorBars.Canonical

/-- The two parts of an expression, found by themselves. -/
def partsOf (A : Arith) (e : Expr) : Cartesian := ⟨A.apply .re [e], A.apply .im [e]⟩

/-- The product of two complex numbers. -/
def Cartesian.mul (A : Arith) (z w : Cartesian) : Cartesian :=
  ⟨A.sub (A.mul z.re w.re) (A.mul z.im w.im), A.add (A.mul z.im w.re) (A.mul z.re w.im)⟩

/-! ## Products -/

/-- The factors of a product, told apart by their parts. -/
structure SeparatedFactors where
  /-- the real factors -/
  real : List Expr
  /-- the imaginary parts of the factors without a real part -/
  imaginary : List Expr
  /-- sums with both parts -/
  sums : List Expr
  /-- all other factors -/
  others : List Expr

/-- Tells factors apart by their parts. -/
def separateFactors (A : Arith) (fs : List Expr) : SeparatedFactors :=
  fs.foldr (fun f s =>
    let z := partsOf A f
    if z.im.isZero then { s with real := z.re :: s.real }
    else if z.re.isZero then { s with imaginary := z.im :: s.imaginary }
    else if f.isAdd then { s with sums := f :: s.sums }
    else { s with others := f :: s.others }) ⟨[], [], [], []⟩

/-- The parts of a product; `none` if there is nothing to take out of `whole`. -/
def separateProduct? (A : Arith) (whole : Expr) (fs : List Expr) : Option Cartesian :=
  let s := separateFactors A fs
  let core := A.product s.others
  if core == whole then none
  else
    let pairs := s.imaginary.length / 2
    let odd := s.imaginary.length % 2 = 1
    let (unit, rest) := match s.imaginary with
      | i :: is => if odd then (i, is) else (Expr.one, i :: is)
      | [] => (Expr.one, [])
    let size := A.product ((if pairs % 2 = 1 then [Expr.minusOne] else []) ++ s.real ++ rest)
    let turned := fun (z : Cartesian) =>
      if odd then Cartesian.mk (A.product [Expr.minusOne, unit, z.im]) (A.mul unit z.re) else z
    let scaled : Cartesian := if core == Expr.one then ⟨size, Expr.zero⟩
      else
        let z := partsOf A core
        ⟨A.mul size z.re, A.mul size z.im⟩
    let z := turned scaled
    if s.sums.isEmpty then some z
    else some (z.mul A (partsOf A (s.sums.foldl (distribute A) Expr.one)))

/-! ## Powers -/

/-- The number of ways to choose `k` of `n` things. -/
def choose : Nat → Nat → Nat
  | _, 0 => 1
  | 0, _ + 1 => 0
  | n + 1, k + 1 => choose n k + choose n (k + 1)

/-- The parts of a natural power of a complex number, by the binomial theorem. -/
def separatePower (A : Arith) (z : Cartesian) (n : Nat) : Cartesian :=
  let term := fun (k : Nat) =>
    let sign : Int := if k % 4 < 2 then 1 else -1
    A.product [Expr.int (sign * choose n k), A.power z.re (Expr.int (n - k : Nat)),
      A.power z.im (Expr.int k)]
  let ks := List.range (n + 1)
  ⟨A.sum ((ks.filter (· % 2 = 0)).map term), A.sum ((ks.filter (· % 2 = 1)).map term)⟩

/-- The reciprocal of a complex number. -/
def Cartesian.inv (A : Arith) (z : Cartesian) : Cartesian :=
  let two := Expr.int 2
  let size := A.add (A.power z.re two) (A.power z.im two)
  ⟨A.div z.re size, A.neg (A.div z.im size)⟩

/-- The parts of a power with a rational exponent that is not whole: the size and the angle are
taken to that power. -/
def separateRoot (A : Arith) (z : Cartesian) (e : Expr) : Cartesian :=
  let two := Expr.int 2
  let size := A.sqrt (A.add (A.power z.re two) (A.power z.im two))
  let turn := A.mul (A.apply .atan2 [z.im, z.re]) e
  let size := A.power size e
  ⟨A.mul size (A.apply .cos [turn]), A.mul size (A.apply .sin [turn])⟩

/-- How large an exponent may be for the power to be multiplied out. -/
def separationLimit : Nat := 64

/-- The parts of a power. -/
def separateExponent? (A : Arith) (b x : Expr) : Option Cartesian :=
  match x with
  | .rat q =>
    let z := partsOf A b
    if q.den ≠ 1 then
      if z.im.isZero && x == Expr.half && z.re.isNonnegative then
        some ⟨Expr.rawPow b x, Expr.zero⟩
      else if z.im.isZero && x == Expr.half && z.re.isNegative then
        some ⟨Expr.zero, A.power (A.neg b) x⟩
      else some (separateRoot A z x)
    else if z.im.isZero then some ⟨Expr.rawPow b x, Expr.zero⟩
    else if separationLimit < q.num.natAbs then none
    else some (separatePower A (if q.num < 0 then z.inv A else z) q.num.natAbs)
  | .app .add ts =>
    let z := partsOf A (A.product (ts.map (A.power b)))
    some z
  | _ => none

/-! ## Functions -/

/-- An expression with the products of its terms multiplied out. -/
def openTerms (A : Arith) (e : Expr) : Expr := A.sum (e.terms.map (multipliedOut A))

/-- The parts of a function of one argument, by its addition theorem. -/
def separateFunction? (A : Arith) (f : Func) (x : Expr) : Option Cartesian :=
  let z := partsOf A (openTerms A x)
  let at? := fun (g : Func) (e : Expr) => A.apply g [e]
  let two := Expr.int 2
  let half := fun (e : Expr) => A.mul two e
  let product := fun (g h : Func) (a b : Expr) => A.mul (at? g a) (at? h b)
  let reciprocal := fun (g : Func) => some (partsOf A (A.inv (at? g x)))
  match f with
  | .exp => some ⟨product .exp .cos z.re z.im, product .exp .sin z.re z.im⟩
  | .log =>
    let size := at? .abs x
    if size == x then some ⟨at? .log x, Expr.zero⟩ else some ⟨at? .log size, at? .arg x⟩
  | .sin => some ⟨product .sin .cosh z.re z.im, product .cos .sinh z.re z.im⟩
  | .cos => some ⟨product .cos .cosh z.re z.im, A.neg (product .sin .sinh z.re z.im)⟩
  | .tan =>
    let below := A.add (at? .cos (half z.re)) (at? .cosh (half z.im))
    some ⟨A.div (at? .sin (half z.re)) below, A.div (at? .sinh (half z.im)) below⟩
  | .cot =>
    let below := A.sub (at? .cos (half z.re)) (at? .cosh (half z.im))
    some ⟨A.neg (A.div (at? .sin (half z.re)) below), A.div (at? .sinh (half z.im)) below⟩
  | .sec => reciprocal .cos
  | .csc => reciprocal .sin
  | .sinh => some ⟨product .sinh .cos z.re z.im, product .cosh .sin z.re z.im⟩
  | .cosh => some ⟨product .cosh .cos z.re z.im, product .sinh .sin z.re z.im⟩
  | .tanh =>
    let below := A.add (A.power (at? .sinh z.re) two) (A.power (at? .cos z.im) two)
    some ⟨A.div (product .sinh .cosh z.re z.re) below, A.div (product .sin .cos z.im z.im) below⟩
  | .coth =>
    let below := A.add (A.power (at? .sinh z.re) two) (A.power (at? .sin z.im) two)
    some ⟨A.div (product .sinh .cosh z.re z.re) below,
      A.neg (A.div (product .sin .cos z.im z.im) below)⟩
  | .sech => reciprocal .cosh
  | .csch => reciprocal .sinh
  | _ => none

/-- The parts of one term of `whole`; `none` if they stay as they are. -/
def separate? (A : Arith) (whole term : Expr) : Option Cartesian :=
  let known := match term with
    | .app .mul fs => separateProduct? A whole fs
    | .app .pow [b, x] => separateExponent? A b x
    | .app (.fn f) [x] => separateFunction? A f x
    | _ => none
  match known with
  | some z => some z
  | none => if term == whole then none else some (partsOf A term)

/-! ## The parts of an expression -/

/-- What a term of an expression gives to one of its parts. -/
inductive PartOfTerm where
  /-- the part itself -/
  | found (e : Expr)
  /-- a term whose other part counts, after the imaginary unit has been taken out -/
  | turned (e : Expr)
  /-- a term whose part stays as it is -/
  | kept (e : Expr)

/-- What a term gives to the real, or the imaginary, part of `whole`. -/
def partOfTerm (A : Arith) (imaginary : Bool) (whole t : Expr) : PartOfTerm :=
  match coeffOfUnit? A t with
  | some c =>
    if c.facts.real == some true then .found (if imaginary then c else Expr.zero) else .turned c
  | none =>
    if !t.has Expr.imaginary && t.facts.real == some true then
      .found (if imaginary then Expr.zero else t)
    else
      match separate? A whole t with
      | some z => .found (if imaginary then z.im else z.re)
      | none => .kept t

/-- The real, or the imaginary, part of an expression, term by term. -/
def partByTerms (A : Arith) (imaginary : Bool) (e : Expr) : Option Expr :=
  let parts := e.terms.map (partOfTerm A imaginary e)
  let found := parts.filterMap fun | .found t => some t | _ => none
  let turned := parts.filterMap fun | .turned t => some t | _ => none
  let kept := parts.filterMap fun | .kept t => some t | _ => none
  if found.isEmpty && turned.isEmpty then none
  else
    let same := A.apply (if imaginary then .im else .re) [A.sum kept]
    let other := A.apply (if imaginary then .re else .im) [A.sum turned]
    some (A.sum [same, if imaginary then other else A.neg other, A.sum found])

/-- Whether an expression is known to be a real multiple of the imaginary unit. -/
def isTurning (A : Arith) (e : Expr) : Bool :=
  e.facts.imaginary == some true || (A.mul Expr.imaginary e).facts.real == some true

/-- Real part. -/
def re (A : Arith) (e : Expr) : Option Expr :=
  if e == Expr.undefined || e == Expr.complexInfinity then some Expr.undefined
  else if e.facts.real == some true then some e
  else if isTurning A e then some Expr.zero
  else partByTerms A false e

/-- Imaginary part. -/
def im (A : Arith) (e : Expr) : Option Expr :=
  if e == Expr.undefined || e == Expr.complexInfinity then some Expr.undefined
  else if e.facts.real == some true then some Expr.zero
  else if isTurning A e then some (A.product [Expr.minusOne, Expr.imaginary, e])
  else partByTerms A true e

/-! ## Angles -/

/-- An expression without the factors that do not turn it: a positive number in front, and factors
known to be positive. -/
def withoutSize (A : Arith) (e : Expr) : Expr :=
  if e.isAtom then e
  else
    let content := e.terms.foldl (fun (g : Rat) t =>
      let c := t.ratCoeffMul.1
      mkRat (Nat.gcd g.num.natAbs c.num.natAbs) (Nat.lcm g.den c.den)) 0
    let scaled := if e.isAdd && content ≠ 0 then
        A.sum (e.terms.map fun t => A.mul (.rat (1 / content)) t)
      else e
    let (c, rest) := scaled.coeffMul
    let sign := fun (f : Expr) =>
      if f.isPositive then Expr.one else if f.isNegative then Expr.minusOne else f
    let bare := if rest.isMul then A.product (rest.factors.map sign) else rest
    if c.isNegativeNumber then A.neg bare else bare

/-- The angle of an expression. -/
def angle (A : Arith) (e : Expr) : Option Expr :=
  let full := turn A 2
  let ofExponential := match e with
    | .app (.fn .exp) [x] =>
      let i := A.apply .im [x]
      if i.isConstant && i.facts.real == some true then
        (modNumbers A i full).map fun r => if (A.sub r Expr.pi).isPositive then A.sub r full else r
      else none
    | _ => none
  match ofExponential with
  | some v => some v
  | none =>
    let bare := withoutSize A e
    let z := partsOf A bare
    let v := A.apply .atan2 [z.im, z.re]
    if v.isConstant then some v
    else if bare == e then none
    else some (Expr.rawFn .arg [bare])

end ErrorBars.Canonical
