import ErrorBars.Expr.Canonical.Arith

/-!
# Intervals of accumulation

The sine of an infinite argument has no limit, but all its values accumulate between minus one and
one. Such an interval takes part in calculations end by end: a real number moves or stretches it,
two intervals give the interval of all results, and a power with a number as its exponent is taken
of the ends.  With anything else an interval stays as it is.
-/

set_option autoImplicit false

namespace ErrorBars.Canonical

/-- The two ends of an interval, the lower one first. -/
structure Ends where
  /-- the lower end -/
  lower : Expr
  /-- the upper end -/
  upper : Expr

namespace Ends

/-- The ends of an expression that is an interval. -/
def of? : Expr → Option Ends
  | .app (.fn .bounds) [a, b] => some ⟨a, b⟩
  | _ => none

/-- The interval with these ends; if they agree it is a single point. -/
def interval (s : Ends) : Expr :=
  if s.lower == s.upper then s.upper else Expr.bounds s.lower s.upper

/-- The whole real line. -/
def line : Ends := ⟨.const .negInfinity, Expr.infinity⟩

/-- Whether there is no lower end. -/
def isOpenBelow (s : Ends) : Bool := s.lower == .const .negInfinity

/-- Whether there is no upper end. -/
def isOpenAbove (s : Ends) : Bool := s.upper == Expr.infinity

/-- Whether this is the whole real line. -/
def isLine (s : Ends) : Bool := s.isOpenBelow && s.isOpenAbove

/-- The smallest interval that holds all of several numbers. -/
def around (A : Arith) (es : List Expr) : Ends := ⟨A.apply .min es, A.apply .max es⟩

/-- The interval on the other side of zero. -/
def neg (A : Arith) (s : Ends) : Ends := ⟨A.neg s.upper, A.neg s.lower⟩

/-- Whether an expression is known to lie in the interval. -/
def holds (A : Arith) (s : Ends) (e : Expr) : Bool :=
  (A.sub e s.lower).isNonnegative && (A.sub s.upper e).isNonnegative

/-- An interval moved by a real number, or by all numbers of another interval. -/
def add? (A : Arith) (s : Ends) (e : Expr) : Option Ends :=
  match of? e with
  | some t => some ⟨A.add s.lower t.lower, A.add s.upper t.upper⟩
  | none =>
    if e.facts.real == some true then
      let cancels :=
        e == Expr.infinity && s.isOpenBelow || e == .const .negInfinity && s.isOpenAbove
      if s.isLine || cancels then some line
      else if s.isOpenBelow then some ⟨s.lower, A.add s.upper e⟩
      else if s.isOpenAbove then some ⟨A.add s.lower e, s.upper⟩
      else some ⟨A.add s.lower e, A.add s.upper e⟩
    else none

/-- An interval times zero. -/
def mulZero (s : Ends) : Ends :=
  if s.isLine then line
  else if s.isOpenAbove then ⟨Expr.zero, Expr.infinity⟩
  else if s.isOpenBelow then ⟨.const .negInfinity, Expr.zero⟩
  else ⟨Expr.zero, Expr.zero⟩

/-- An interval with an end at zero times an infinity. -/
def mulInfinity? (s : Ends) (negative : Bool) : Option Ends :=
  let above : Ends := ⟨Expr.zero, Expr.infinity⟩
  let below : Ends := ⟨.const .negInfinity, Expr.zero⟩
  if s.lower.isZero then some (if negative then below else above)
  else if s.upper.isZero then some (if negative then above else below)
  else none

/-- An interval stretched by a real number, or by all numbers of another interval. -/
def mul? (A : Arith) (s : Ends) (e : Expr) : Option Ends :=
  match of? e with
  | some t =>
    if s.isLine || t.isLine then some line
    else
      some (around A [A.mul s.lower t.lower, A.mul s.lower t.upper, A.mul s.upper t.lower,
        A.mul s.upper t.upper])
  | none =>
    let atEnd := if e == Expr.infinity then s.mulInfinity? false
      else if e == .const .negInfinity then s.mulInfinity? true
      else none
    match atEnd with
    | some t => some t
    | none =>
      if e.isZero then some s.mulZero
      else if e.isPositive then some ⟨A.mul s.lower e, A.mul s.upper e⟩
      else if e.isNegative then some ⟨A.mul s.upper e, A.mul s.lower e⟩
      else none

/-- A whole power of an interval. -/
def powInt (A : Arith) (s : Ends) (n : Int) : Ends :=
  let power := fun (e : Expr) => A.power e (Expr.int n)
  if s.lower.isPositive || s.upper.isNegative then around A [power s.lower, power s.upper]
  else if n % 2 = 0 then
    if 0 < n then ⟨Expr.zero, A.apply .max [power s.lower, power s.upper]⟩
    else if s.lower.isZero then ⟨power s.upper, Expr.infinity⟩
    else if s.upper.isZero then ⟨power s.lower, Expr.infinity⟩
    else ⟨Expr.zero, Expr.infinity⟩
  else if 0 < n then ⟨power s.lower, power s.upper⟩
  else if s.lower.isZero then ⟨power s.upper, Expr.infinity⟩
  else if s.upper.isZero then ⟨.const .negInfinity, power s.lower⟩
  else line

/-- A power of an interval. -/
def pow? (A : Arith) (s : Ends) (e : Expr) : Option Ends :=
  let finite := fun (x : Expr) => x.facts.finite == some true
  if s.lower.isNonnegative && finite s.upper && e.isNonnegative && finite e then
    some ⟨A.power s.lower e, A.power s.upper e⟩
  else
    match e with
    | .rat q =>
      if q.den = 1 then some (s.powInt A q.num)
      else if s.lower.isNonnegative then
        let root := fun (x : Expr) => A.power x (.rat (mkRat 1 q.den))
        let whole := if q.num = 1 then s else s.powInt A q.num
        some ⟨root whole.lower, root whole.upper⟩
      else none
    | _ => none

/-- What the powers of an interval come to as the exponent grows beyond all bounds. -/
def powInfinity (A : Arith) (s : Ends) : Expr :=
  let above : Ends := ⟨Expr.zero, Expr.infinity⟩
  let less := fun (a b : Expr) => (A.sub b a).isPositive
  if s.upper.isNegative then
    if less Expr.minusOne s.lower then Expr.zero
    else if less s.upper Expr.minusOne then Expr.complexInfinity
    else Expr.undefined
  else if s.lower.isNonnegative && less Expr.one s.lower then Expr.infinity
  else if s.lower.isNonnegative || less Expr.minusOne s.lower then
    if less s.upper Expr.one then Expr.zero else above.interval
  else line.interval

/-- A number that is not below zero to the power of an interval. -/
def exponent? (A : Arith) (b : Expr) (s : Ends) : Option Ends :=
  if b.isNonnegative && b.facts.finite == some true then
    some (around A [A.power b s.lower, A.power b s.upper])
  else none

end Ends

/-- The sum of an interval and another expression. -/
def boundsSum? (A : Arith) (a b : Expr) : Option Expr :=
  match Ends.of? a, Ends.of? b with
  | some s, _ => some (((s.add? A b).map Ends.interval).getD (Expr.rawAdd [a, b]))
  | none, some s => some (((s.add? A a).map Ends.interval).getD (Expr.rawAdd [b, a]))
  | none, none => none

/-- The product of an interval and another expression. -/
def boundsProduct? (A : Arith) (a b : Expr) : Option Expr :=
  match Ends.of? a, Ends.of? b with
  | some s, _ => some (((s.mul? A b).map Ends.interval).getD (Expr.rawMul [a, b]))
  | none, some s => some (((s.mul? A a).map Ends.interval).getD (Expr.rawMul [b, a]))
  | none, none => none

/-- A power with an interval as its base or its exponent. -/
def boundsPower? (A : Arith) (b e : Expr) : Option Expr :=
  match Ends.of? b, Ends.of? e with
  | some _, some _ => some (Expr.rawPow b e)
  | some s, none =>
    if e == Expr.infinity then some (s.powInfinity A)
    else some (((s.pow? A e).map Ends.interval).getD (Expr.rawPow b e))
  | none, some s => some (((Ends.exponent? A b s).map Ends.interval).getD (Expr.rawPow b e))
  | none, none => none

end ErrorBars.Canonical
