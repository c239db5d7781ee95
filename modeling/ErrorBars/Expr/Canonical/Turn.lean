import ErrorBars.Expr.Canonical.Arith

/-!
# Angles

Angles that are multiples of the circle constant, and the exact values of sine and cosine that
follow for them.
-/

set_option autoImplicit false

namespace ErrorBars.Canonical

/-- What stands in front of a factor of a product, if it is one. -/
def coeffOf? (A : Arith) (c : Expr) (e : Expr) : Option Expr :=
  if e == c then some Expr.one
  else
    match e with
    | .app .mul fs =>
      if fs.any (· == c) then some (A.product (fs.filter fun f => !(f == c))) else none
    | _ => none

mutual

/-- What is left of an expression when the imaginary unit is taken out of each of its terms. -/
def withoutUnit? (A : Arith) : Expr → Option Expr
  | .const .i => some Expr.one
  | .app .mul fs => (withoutUnitInFactors? A fs).map A.product
  | .app .add ts => (withoutUnitInTerms? A ts).map A.sum
  | _ => none

/-- The factors when the imaginary unit is taken out of the first one that has it. -/
def withoutUnitInFactors? (A : Arith) : List Expr → Option (List Expr)
  | [] => none
  | f :: fs =>
    match withoutUnit? A f with
    | some g => some (g :: fs)
    | none => (withoutUnitInFactors? A fs).map (f :: ·)

/-- The terms when the imaginary unit is taken out of every one of them. -/
def withoutUnitInTerms? (A : Arith) : List Expr → Option (List Expr)
  | [] => some []
  | t :: ts => do
    let u ← withoutUnit? A t
    let us ← withoutUnitInTerms? A ts
    return u :: us

end

/-- What stands in front of the imaginary unit, if nothing else has it. -/
def coeffOfUnit? (A : Arith) (e : Expr) : Option Expr :=
  (withoutUnit? A e).filter fun c => !c.has Expr.imaginary

/-- The exact value of an approximate number that is whole, or lies a power of one half beyond a
whole number. -/
def exactFraction (e : Expr) : Expr :=
  match e with
  | .float x _ =>
    if x.isInteger then Expr.int x.floor
    else
      let places := x.exponent.natAbs
      let n := x.mantissa.natAbs
      if places ≤ bitLength n ∧ n % 2 ^ places = 1 ∨ n = 1 then .rat x.toRat else e
  | e => e

/-- The remainder of a rational number in a period. -/
def ratMod (q m : Rat) : Rat := q - m * (q / m).floor

/-- The remainder of a finite number of half turns in a full turn. -/
def withinTurn : Expr → Expr
  | .rat r => .rat (ratMod r 2)
  | .float x bits =>
    let full := Binary.ofInt 2
    let turns := (Binary.div (bits + x.magnitude.natAbs) x full).floor
    Expr.approx (x.sub (full.mul (Binary.ofInt turns))) bits
  | e => e

/-- What stands in front of the circle constant; a number alone is brought into one turn. -/
def piCoeff? (A : Arith) (e : Expr) : Option Expr :=
  if e.isZero then some Expr.zero
  else
    (coeffOf? A Expr.pi e).map fun c =>
      let (n, t) := c.coeffMul
      let exact := exactFraction n
      if t == Expr.one then withinTurn exact
      else if exact == n then c
      else A.mul exact t

/-- A fraction of a half turn. -/
def turn (A : Arith) (r : Rat) : Expr := A.mul (.rat r) Expr.pi

/-- The entry of a table. -/
def lookUp (table : List (Expr × Rat)) (e : Expr) : Option Rat :=
  (table.find? fun p => p.1 == e).map (·.2)

/-- The rational multiple of the circle constant in a sum, and the other terms. -/
def piTerms (A : Arith) (ts : List Expr) : Rat × List Expr :=
  ts.foldr (fun t acc =>
    match coeffOf? A Expr.pi t with
    | some (.rat q) => (acc.1 + q, acc.2)
    | _ => (acc.1, t :: acc.2)) (0, [])

/-- A sum without its whole quarter turns, and the half turns that were taken off. -/
def peelPi (A : Arith) (e : Expr) : Option (Expr × Rat) :=
  match e with
  | .app .add ts =>
    let (q, rest) := piTerms A ts
    let kept := ratMod q (1 / 2)
    let peeled := q - kept
    if q = 0 ∨ peeled = 0 then none
    else some (A.sum (rest ++ [A.mul (.rat kept) Expr.pi]), peeled)
  | _ => none

/-- Two angles whose difference is a given fraction of a half turn and whose cosines are simpler. -/
def anglePair (q : Nat) : Option (Nat × Nat) :=
  match q with
  | 12 => some (3, 4)
  | 20 => some (4, 5)
  | 30 => some (5, 6)
  | 15 => some (6, 10)
  | 24 => some (6, 8)
  | 40 => some (8, 10)
  | 60 => some (20, 30)
  | 120 => some (40, 60)
  | _ => none

/-- The cosine of `r` half turns, if it has a simple exact value. -/
def cosTurn? (A : Arith) : Nat → Rat → Option Expr
  | 0, _ => none
  | fuel + 1, r =>
    let r := ratMod r 2
    if 1 < r then (cosTurn? A fuel (r - 1)).map A.neg
    else if 1 / 2 < r then (cosTurn? A fuel (1 - r)).map A.neg
    else if r = 0 then some Expr.one
    else if r = 1 / 2 then some Expr.zero
    else if r = 1 / 3 then some Expr.half
    else if r.den = 5 then
      let root := A.mul (.rat (1 / 4)) (A.sqrt (Expr.int 5))
      some (A.add root (.rat (if r.num = 1 then 1 / 4 else -1 / 4)))
    else
      match anglePair r.den with
      | some (a, b) => do
        let x := mkRat r.num a
        let y := mkRat r.num b
        let cx ← cosTurn? A fuel x
        let cy ← cosTurn? A fuel y
        let sx ← cosTurn? A fuel (1 / 2 - x)
        let sy ← cosTurn? A fuel (1 / 2 - y)
        return A.add (A.mul cx cy) (A.mul sx sy)
      | none =>
        if 12 < r.den then none
        else if r.den % 2 = 0 then
          (cosTurn? A fuel (2 * r)).map fun c =>
            A.sqrt (A.mul Expr.half (A.add Expr.one c))
        else none

/-- The cosine of `r` half turns. -/
def cosTurn (A : Arith) (r : Rat) : Expr :=
  match cosTurn? A 12 r with
  | some v => v
  | none =>
    let p := ratMod r 2
    let at? := fun (q : Rat) => Expr.rawFn .cos [A.mul (.rat q) Expr.pi]
    if 3 / 2 < p then at? (2 - p)
    else if 1 < p then A.neg (at? (p - 1))
    else if 1 / 2 < p then A.neg (at? (1 - p))
    else at? p

/-- The sine of `r` half turns. -/
def sinTurn (A : Arith) (r : Rat) : Expr :=
  match cosTurn? A 12 (ratMod (r + 3 / 2) 2) with
  | some v => v
  | none =>
    let p := ratMod r 2
    let at? := fun (q : Rat) => Expr.rawFn .sin [A.mul (.rat q) Expr.pi]
    let lower := fun (q : Rat) => if 1 / 2 < q then at? (1 - q) else at? q
    if 1 < p then A.neg (lower (p - 1)) else lower p

end ErrorBars.Canonical
