import ErrorBars.Expr.Simplify.Content

/-!
# Common factors of sums

A term is taken apart into a number and powers with whole exponents, those of its numerator and
those of its denominator (`TermParts`).  The common factor of several terms is then found power by
power; `gcdTerms` puts it in front of the sum, and with `fraction` set brings the rest over one
denominator.

`factorTerms` does so everywhere in an expression.
-/

set_option autoImplicit false

namespace ErrorBars.Expr

/-- Powers with whole positive exponents. -/
abbrev Powers := List (Expr × Nat)

namespace Powers

/-- The exponent of a base. -/
def exponent (ps : Powers) (b : Expr) : Nat :=
  match ps.find? fun p => p.1 == b with
  | some p => p.2
  | none => 0

/-- Multiplies by one more power. -/
def mulPower (ps : Powers) (b : Expr) (n : Nat) : Powers :=
  if n = 0 then ps
  else if ps.any (fun p => p.1 == b) then ps.map fun p => if p.1 == b then (p.1, p.2 + n) else p
  else ps ++ [(b, n)]

/-- The product. -/
def mul (ps qs : Powers) : Powers := qs.foldl (fun acc q => acc.mulPower q.1 q.2) ps

/-- What is left when as much of other powers is taken away as there is. -/
def without (ps qs : Powers) : Powers :=
  ps.filterMap fun p =>
    let n := p.2 - qs.exponent p.1
    if n = 0 then none else some (p.1, n)

/-- The greatest common divisor. -/
def gcd (ps qs : Powers) : Powers :=
  ps.filterMap fun p =>
    let n := min p.2 (qs.exponent p.1)
    if n = 0 then none else some (p.1, n)

/-- The least common multiple. -/
def lcm (ps qs : Powers) : Powers := mul ps (without qs ps)

/-- The powers as a product. -/
def toExpr (ps : Powers) : Expr :=
  product (ps.map fun p =>
    if p.2 = 1 then p.1
    else
      let (b, e) := p.1.baseExp
      power b (keepCoeff (int p.2) e))

end Powers

/-- A term: a number, and powers above and below the line. -/
structure TermParts where
  /-- the number in front -/
  coeff : Expr
  /-- the powers of the numerator -/
  above : Powers
  /-- the powers of the denominator -/
  below : Powers

namespace TermParts

/-- Takes a factor into a term. -/
def take (t : TermParts) (factor : Expr) : TermParts :=
  let (b, n) := factor.decomposePower
  let (c, b) := if b.isAdd then primitive b else (1, b)
  let coeff := if c = 1 then t.coeff else mulNumbers t.coeff (power (.rat c) (int n))
  if b == minusOne then
    if n % 2 = 0 then t else { t with coeff := negNumber t.coeff }
  else if 0 < n then { t with coeff := coeff, above := t.above.mulPower b n.toNat }
  else { t with coeff := coeff, below := t.below.mulPower b n.natAbs }

/-- Whether the exponent of a factor is a number in front of a sum, not multiplied out. -/
def hasHollowExponent (e : Expr) : Bool :=
  match e.baseExp.2 with
  | .app .mul [c, .app .add _] => c.isNumber
  | _ => false

/-- A term taken apart.  A term that is a power whose exponent is kept as a product stays whole. -/
def ofExpr (e : Expr) : TermParts :=
  if hasHollowExponent e then ⟨one, [(e, 1)], []⟩
  else
    let (c, rest) := e.coeffMul
    if rest == one then ⟨c, [], []⟩ else rest.factors.foldl take ⟨c, [], []⟩

/-- The greatest common divisor of two numbers in front of terms.  Approximate numbers have no
common divisor but one. -/
def gcdCoeff (a b : Expr) : Expr :=
  match a, b with
  | .rat p, .rat q => .rat (ratContent [p, q])
  | _, _ => one

/-- The greatest common divisor. -/
def gcd (s t : TermParts) : TermParts :=
  ⟨gcdCoeff s.coeff t.coeff, s.above.gcd t.above, s.below.gcd t.below⟩

/-- A quotient of terms. -/
def quo (s t : TermParts) : TermParts :=
  let above := s.above.mul t.below
  let below := s.below.mul t.above
  ⟨divNumbers s.coeff t.coeff, above.without below, below.without above⟩

/-- The term as an expression. -/
def toExpr (t : TermParts) : Expr := t.coeff * (t.above.toExpr / t.below.toExpr)

end TermParts

/-- The common factor of several terms, the sum of what is left over one denominator, and that
denominator. -/
def gcdOfTerms (isPrimitive fraction : Bool) (ts : List Expr) : Expr × Expr × Expr :=
  match (ts.filter fun t => !t.isZero).map TermParts.ofExpr with
  | [] => (zero, zero, one)
  | [t] => (t.coeff, t.above.toExpr, t.below.toExpr)
  | t :: rest =>
    let common := rest.foldl TermParts.gcd t
    let left := (t :: rest).map fun s => s.quo common
    let (numers, denom) :=
      if fraction then
        let below := left.foldl (fun acc s => Powers.lcm acc s.below) []
        (left.map fun s => s.coeff * (s.above.mul (below.without s.below)).toExpr, below.toExpr)
      else (left.map TermParts.toExpr, one)
    let numer := sum numers
    let cont := common.toExpr
    if !isPrimitive && numer.isAdd then
      let (c, numer) := primitive numer
      (.rat c * cont, numer, denom)
    else (cont, numer, denom)

/-- The sum of terms with their common factor in front. -/
def gcdTerms (isPrimitive clear fraction : Bool) (ts : List Expr) : Expr :=
  let (cont, numer, denom) := gcdOfTerms isPrimitive fraction ts
  let (coeff, factors) := cont.coeffMul
  let (coeff, numer) := match coeff with
    | .rat q =>
      if !clear && q.den ≠ 1 && numer.isAdd then
        let whole := sum (numer.terms.map fun t => .rat (1 / q.den) * t)
        if whole.terms.any fun t => t.coeffMul.1.isInteger then (int q.num, whole)
        else (coeff, numer)
      else (coeff, numer)
    | _ => (coeff, numer)
  scale clear false coeff (factors * numer / denom)

/-- Whether the number in front is below zero. -/
def hasNegativeCoeff (e : Expr) : Bool := e.coeffMul.1.isNegativeNumber

/-- Puts common factors in front of all sums in an expression, to a depth.  With `fraction` set,
sums are brought over one denominator; with `clear` set, fractions are put in front of sums; with
`sign` set, a common minus stays in front. -/
def factorTermsTo (clear fraction sign : Bool) : Nat → Expr → Expr
  | 0, e => e
  | fuel + 1, e =>
    let go := factorTermsTo clear fraction sign fuel
    match e with
    | .app .add _ | .app .mul _ =>
      let (cont, p) := contentPrimitive clear e
      match p with
      | .app .add ts =>
        let parts := ts.map go
        let flip := parts.all hasNegativeCoeff
        let cont := if flip then -cont else cont
        let parts := if flip then parts.map fun t => -t else parts
        scale clear sign (.rat cont) (gcdTerms true clear fraction parts)
      | .app h as => scale clear sign (.rat cont) (rebuild h (as.map go))
      | p => scale clear sign (.rat cont) p
    | .app h as =>
      let parts := as.map go
      if parts == as then e else rebuild h parts
    | e => e

/-- Puts common factors in front of all sums in an expression. -/
def factorTerms (sign : Bool) (e : Expr) : Expr := factorTermsTo false false sign e.size e

end ErrorBars.Expr
