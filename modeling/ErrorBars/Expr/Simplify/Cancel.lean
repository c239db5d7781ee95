import ErrorBars.Expr.Simplify.Expand
import ErrorBars.Expr.Simplify.Sign
import ErrorBars.Expr.Text
import ErrorBars.Polynomial.Gcd

/-!
# Cancelling

`cancel` writes an expression as a quotient of two polynomials without a common divisor, multiplied
out.  The variables of the polynomials are all powers that occur and are not themselves sums,
products or numbers: symbols, function values, roots.  Their order, `generatorOrder`, decides only
the sign in front of the denominator.
-/

set_option autoImplicit false

namespace ErrorBars.Expr

/-! ## Generators -/

/-- The place of the letter that names a generator: the end of the alphabet comes first, as it is
mostly used for unknowns. -/
def letterRank (name : String) : Nat :=
  match name.toList with
  | [c] =>
    if 'x' ≤ c ∧ c ≤ 'z' then 124 + (c.toNat - 'x'.toNat)
    else if 'p' ≤ c ∧ c ≤ 'w' then 216 + (c.toNat - 'p'.toNat)
    else if 'a' ≤ c ∧ c ≤ 'o' then 301 + (c.toNat - 'a'.toNat)
    else 1000
  | _ => 1000

/-- The name of a generator without the digits at its end, and the number that these are. -/
def generatorName (e : Expr) : String × Nat :=
  let cs := e.text.toList.reverse
  let digits := (cs.takeWhile Char.isDigit).reverse
  let name := (cs.dropWhile Char.isDigit).reverse
  (String.ofList name, digits.foldl (fun n c => 10 * n + (c.toNat - '0'.toNat)) 0)

/-- The order of generators: by letter, name and number. -/
def generatorOrder (a b : Expr) : Ordering :=
  let (s, m) := a.generatorName
  let (t, n) := b.generatorName
  thenBy (compare (letterRank s) (letterRank t)) (thenBy (compare s t) (compare m n))

/-! ## Terms and polynomials -/

/-- A term as a number times powers of generators with positive exponents. -/
structure GeneratorTerm where
  /-- the number -/
  coeff : Expr
  /-- the powers -/
  powers : Powers

/-- A term taken apart; a negative power of a generator is a positive one of its reciprocal. -/
def generatorTerm (e : Expr) : GeneratorTerm :=
  e.factors.foldl (fun t f =>
    if f.isNumber then { t with coeff := mulNumbers t.coeff f }
    else
      let (b, n) := f.decomposePower
      if n < 0 then { t with powers := t.powers.mulPower (inv b) n.natAbs }
      else { t with powers := t.powers.mulPower b n.toNat }) ⟨one, []⟩

/-- The generators of several terms, in order. -/
def generators (ts : List GeneratorTerm) : List Expr :=
  let all := (ts.flatMap fun t => t.powers.map (·.1)).foldl
    (fun acc g => if acc.any (· == g) then acc else acc ++ [g]) []
  all.mergeSort fun a b => (generatorOrder a b).isLE

/-- The largest denominator of a fraction that stands for an approximate number of so many bits. -/
def denominatorLimit (bits : Nat) : Nat := max (2 ^ bits / 200) 99

/-- The best approximations of a fraction by continued fractions: the last one whose denominator
does not exceed the limit, and the one right before it, each as numerator and denominator. -/
def convergents (limit : Nat) : Nat → Int → Nat → Int × Nat → Int × Nat → (Int × Nat) × (Int × Nat)
  | 0, _, _, p, q => (p, q)
  | fuel + 1, n, d, p, q =>
    let a := n / d
    let next := (p.1 + a * q.1, p.2 + a.toNat * q.2)
    if d = 0 ∨ limit < next.2 then (p, q)
    else convergents limit fuel d (n - a * d).toNat q next

/-- The fraction that an approximate number stands for: the nearest one with a small denominator. -/
def nearFraction (limit : Nat) (x : Rat) : Rat :=
  if x.den ≤ limit then x
  else
    let magnitude := if x < 0 then -x else x
    let (p, q) :=
      convergents limit (2 * Nat.log2 x.den + 8) magnitude.num magnitude.den (0, 1) (1, 0)
    let k := (limit - p.2) / q.2
    let second := mkRat q.1 q.2
    let first := mkRat (p.1 + k * q.1) (p.2 + k * q.2)
    let distance := fun (y : Rat) => if y < magnitude then magnitude - y else y - magnitude
    let best := if second = 0 ∨ first = 0 then magnitude
      else if distance second ≤ distance first then second else first
    if x < 0 then -best else best

/-- The exact numbers that those in front of terms stand for, and the least number that makes them
all whole; `none` if one is not finite. -/
def exactCoeffs? (limit : Nat) (ts : List GeneratorTerm) : Option (List Rat × Nat) := do
  let qs ← ts.mapM fun t => match t.coeff with
    | .rat q => some q
    | c => c.exactNumber?.map (nearFraction limit)
  return (qs, qs.foldl (fun l q => Nat.lcm l q.den) 1)

/-- A polynomial in generators from its terms and the whole numbers in front of them. -/
def polyOf (n : Nat) (gens : List Expr) (ts : List (GeneratorTerm × Int)) : Poly n :=
  ts.foldl (fun p t =>
    Poly.add p (Poly.monomial n (gens.map fun g => t.1.powers.exponent g) t.2)) (Poly.zero n)

/-- A power with a whole exponent. -/
def wholePower (b : Expr) (k : Nat) : Expr := if k = 1 then b else power b (int k)

/-- A polynomial in generators as an expression, divided by a number. -/
def ofPoly {n : Nat} (gens : List Expr) (p : Poly n) (divisor : Nat) : Expr :=
  if p.isZero then zero
  else
    sum (p.monomials.map fun m =>
      product (.rat (mkRat m.2 divisor) ::
        ((gens.zip m.1).filter fun g => g.2 ≠ 0).map fun g => wholePower g.1 g.2))

/-- The largest product of sizes for which common divisors are looked for. -/
def cancelLimit : Nat := 20000

/-- The precision of the most precise approximate number in some terms. -/
def termPrecision (ts : List GeneratorTerm) : Nat :=
  ts.foldl (fun n t => max n t.coeff.precision) 0

/-- All rational numbers in front of the terms of a sum made approximate. -/
def approximate (bits : Nat) (e : Expr) : Expr :=
  sum (e.terms.map fun t =>
    let (c, m) := t.coeffMul
    match c with
    | .rat q => mulNumbers (.float Binary.one bits) (.rat q) * m
    | _ => t)

/-- The quotient of two sums of terms in lowest terms; `none` if no common divisor is looked for.
With approximate numbers the common divisor begins with one, and both polynomials are approximate.
-/
def cancelTerms? (p q : Expr) : Option (Expr × Expr) := do
  let ps := p.terms.map generatorTerm
  let qs := q.terms.map generatorTerm
  let gens := generators (ps ++ qs)
  let n := gens.length
  let bits := termPrecision (ps ++ qs)
  let limit := denominatorLimit bits
  let (cs, l) ← exactCoeffs? limit ps
  let (ds, m) ← exactCoeffs? limit qs
  let whole := fun (k : Nat) (c : Rat) => (c * k).num
  let f := polyOf n gens (ps.zip (cs.map (whole l)))
  let g := polyOf n gens (qs.zip (ds.map (whole m)))
  if g.isZero || cancelLimit < f.size * g.size then none
  else if bits = 0 then
    let (f', g') := Poly.reduce (Poly.scale m f) (Poly.scale l g)
    return (ofPoly gens f' 1, ofPoly gens g' 1)
  else
    let common := Poly.gcd f g
    let lead := if g.leadingInt < 0 then -common.leadingInt else common.leadingInt
    let part := fun (h : Poly n) (divisor : Nat) =>
      approximate bits (ofPoly gens (Poly.scale lead (Poly.quotient h common)) divisor)
    return (part f l, part g m)

/-- Whether a part occurs that is no polynomial in anything. -/
def hasBranches (e : Expr) : Bool :=
  e.any fun
    | .app .piecewise _ => true
    | _ => false

/-- A quotient of two expanded polynomials without a common divisor. -/
def cancel (e : Expr) : Expr :=
  let e := settleSigns e
  if e.isNumber || e.hasBranches then e
  else
    let f := factorTerms true e
    let (p, q) := numerDenom f
    let p := expand Expansion.all p
    let q := expand Expansion.all q
    if (p.terms ++ q.terms).all fun t => (generatorTerm t).powers.isEmpty then
      expand Expansion.all f
    else if p.has imaginary || q.has imaginary then f
    else
      match cancelTerms? p q with
      | some (p, q) => if q == one then p else p / q
      | none => f

end ErrorBars.Expr
