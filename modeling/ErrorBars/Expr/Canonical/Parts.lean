import ErrorBars.Expr.Canonical.Separation

/-!
# Parts of numbers

Absolute value, sign, and rounding to whole numbers: what is known of the argument decides, and
known factors or terms are taken out.
-/

set_option autoImplicit false

namespace ErrorBars.Canonical

/-- Factors whose absolute value is known are taken out of an absolute value. -/
def absOfProduct (A : Arith) (fs : List Expr) : Expr :=
  let size := fun (t : Expr) =>
    let s := A.apply .abs [t]
    if s.isFnOf .abs then none else some s
  let sized := fs.map fun t => (t, match t with
    | .app .pow [b, x] =>
      if x.isWhole && x.isNegative then (size b).map fun s => A.power s x else size t
    | t => size t)
  let known := sized.filterMap (·.2)
  let rest := (sized.filter fun p => p.2.isNone).map (·.1)
  let unknown := if rest.isEmpty then Expr.one else Expr.rawFn .abs [A.product rest]
  A.product (known ++ [unknown])

/-- Whether a factor is the reciprocal of something with variables. -/
def isOpenReciprocal (e : Expr) : Bool :=
  match e with
  | .app .pow [b, x] => !(Expr.rawPow b x).isConstant && x.leadsWithMinus
  | _ => false

/-- The absolute value of a power. -/
def absOfPower (A : Arith) (b x : Expr) : Option Expr :=
  let e := Expr.rawPow b x
  let f := b.facts
  if f.real == some true then
    if x.isWhole then
      if x.facts.even == some true then some e
      else if b == Expr.minusOne then some Expr.one
      else some (A.power (A.apply .abs [b]) x)
    else if b.isNonnegative then some (A.power b (A.apply .re [x]))
    else if b.isNegative then
      some (A.mul (A.power (A.neg b) (A.apply .re [x]))
        (A.apply .exp [A.neg (A.mul Expr.pi (A.apply .im [x]))]))
    else none
  else if b.isConstant then
    let z := partsOf A (A.apply .log [b])
    let exponent := A.mul x (A.add z.re (A.mul Expr.imaginary z.im))
    some (A.apply .exp [A.apply .re [exponent]])
  else none

/-- The absolute value of an expression that is neither a product nor a power. -/
def absOfKnown (A : Arith) (e : Expr) : Option Expr :=
  let f := e.facts
  if f.finite == some false then some Expr.infinity
  else if f.zero == some true then some Expr.zero
  else if f.isNonnegative then some e
  else if f.isNegative then some (A.neg e)
  else if f.real == some true then none
  else if e == Expr.imaginary then some Expr.one
  else if e.isConstant then (cartesian? A e).map (cartesianAbs A)
  else none

/-- Absolute value. -/
def abs (A : Arith) (e : Expr) : Option Expr :=
  if e == Expr.undefined then some e
  else if e.isNumber then absOfKnown A e
  else if e.leadsWithMinus then some (A.apply .abs [A.neg e])
  else
    let below := e.factors.filter isOpenReciprocal
    let above := e.factors.filter fun t => !isOpenReciprocal t
    if !below.isEmpty && above.all Expr.isConstant then
      some (A.div (A.apply .abs [A.product above]) (A.apply .abs [A.product (below.map A.inv)]))
    else
      match e with
      | .app .mul fs =>
        let v := absOfProduct A fs
        if v == Expr.rawFn .abs [e] then none else some v
      | .app .pow [b, x] =>
        match absOfPower A b x with
        | some v => some v
        | none => if b.facts.real == some true then none else absOfKnown A e
      | .app (.fn .exp) [x] =>
        if x.facts.real == some true then some e else some (A.apply .exp [A.apply .re [x]])
      | e => absOfKnown A e

/-- Sign. -/
def sign (A : Arith) (e : Expr) : Option Expr :=
  let f := e.facts
  let ofKnown := fun (_ : Unit) =>
    if f.zero == some true then some Expr.zero
    else if f.isPositive then some Expr.one
    else if f.isNegative then some Expr.minusOne
    else none
  match e with
  | .app .mul fs =>
    let isTurning := fun (t : Expr) => t.isConstant && t.facts.imaginary == some true
    let height := fun (t : Expr) => A.neg (A.mul Expr.imaginary t)
    let rest := fs.filter fun t => !t.isPositive && !t.isNegative && !isTurning t
    if rest.length = fs.length then none
    else
      let signs := fs.filterMap fun t =>
        if t.isNegative then some Expr.minusOne
        else if isTurning t then
          some (if (height t).isNegative then A.neg Expr.imaginary else Expr.imaginary)
        else none
      some (A.product (signs ++ [A.apply .sign [A.product rest]]))
  | e =>
    if e == Expr.undefined then some e
    else
      match ofKnown () with
      | some v => some v
      | none =>
        match e with
        | .app (.fn .sign) [_] => some e
        | e =>
          if e.isConstant && f.imaginary == some true then
            let below := (A.neg (A.mul Expr.imaginary e)).isNegative
            some (if below then A.neg Expr.imaginary else Expr.imaginary)
          else none

/-- The integers below, or above, the two parts of a closed number. -/
def roundedNumber? (up : Bool) (e : Expr) : Option (Int × Int) :=
  let whole := fun (p : Option Part) => match p with
    | none => some 0
    | some p =>
      match p.value with
      | .number x => if x.magnitude ≤ 100000 then some x.floor else none
      | _ => none
  match (Expr.rawFn (if up then .ceiling else .floor) [e]).evaluator 60 332 with
  | .ok (.parts re im) => do return (← whole re, ← whole im)
  | _ => none

/-- The whole number that a term of a rounded sum is, approximate ones included. -/
def wholeTerm? (e : Expr) : Option Expr :=
  match e with
  | .float x _ => if x.isInteger then some (Expr.int x.floor) else none
  | e => if e.isWhole then some e else none

/-- A whole number, or a whole multiple of the imaginary unit. -/
def gaussianTerm? (A : Arith) (e : Expr) : Option Expr :=
  match wholeTerm? e with
  | some n => some n
  | none =>
    if e.isConstant then
      ((coeffOfUnit? A e).bind wholeTerm?).map (A.mul Expr.imaginary)
    else none

/-- Rounding down, or up: whole terms are taken out, and closed terms are rounded by themselves if
nothing else is left. -/
def rounding (A : Arith) (up : Bool) (e : Expr) : Option Expr :=
  let f : Func := if up then .ceiling else .floor
  let isRounded := fun (t : Expr) => t.isFnOf .floor || t.isFnOf .ceiling
  let gaussian := fun (n : Int × Int) =>
    A.add (Expr.int n.1) (A.mul (Expr.int n.2) Expr.imaginary)
  if e.facts.finite == some false || e == Expr.undefined then some e
  else if isRounded e || isRounded (A.neg e) then some e
  else
    match if e.isConstant then roundedNumber? up e else none with
    | some n => some (gaussian n)
    | none =>
      if e.isWhole then some e
      else
        let whole := e.terms.filterMap (gaussianTerm? A)
        let rest := e.terms.filter fun t => (gaussianTerm? A t).isNone
        match rest with
        | [] => some (A.sum whole)
        | rest =>
          let t := A.sum rest
          if isRounded t then some (A.sum (whole ++ [t]))
          else if whole.isEmpty then none
          else some (A.sum (whole ++ [Expr.rawFn f [t]]))

end ErrorBars.Canonical
