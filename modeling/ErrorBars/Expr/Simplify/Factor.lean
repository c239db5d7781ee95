import ErrorBars.Expr.Simplify.Cancel
import ErrorBars.Expr.Simplify.Together
import ErrorBars.Polynomial.Factor

/-!
# Factoring

`factor` brings an expression over one denominator and writes every sum that is a factor of it, or
the base of a power, as a product of polynomials that cannot be factored further.  The variables of
the polynomials are the generators of the expression, as for `cancel`.

With the imaginary unit in a sum, the coefficients are complex.  Such a polynomial is the product of
the common divisor of its real and imaginary parts and of a rest that begins with a real number.
-/

set_option autoImplicit false

namespace ErrorBars.Expr

/-- A number times powers with whole exponents. -/
structure Factored where
  /-- the number in front -/
  coeff : Expr
  /-- the bases, each with its exponent -/
  powers : List (Expr × Nat)

/-- The most terms of a sum that is factored. -/
def factorLimit : Nat := 120

/-- The factors of a polynomial in generators, divided by a number.  With approximate numbers the
largest number of each factor is one. -/
def factorPoly : {n : Nat} → List Expr → Poly n → Nat → Nat → Factored
  | 0, _, p, divisor, _ => ⟨.rat (mkRat p.toInt divisor), []⟩
  | _ + 1, gens, p, divisor, bits =>
    let (c, fs) := Poly.factorList p
    if bits = 0 then
      ⟨.rat (mkRat c divisor), fs.map fun f => (ofPoly gens f.1 1, f.2)⟩
    else
      let norm := fun (f : Poly _) => f.monomials.foldl (fun (m : Nat) t => max m t.2.natAbs) 0
      let coeff := fs.foldl (fun (q : Rat) f => q * (norm f.1 : Rat) ^ f.2) (mkRat c divisor)
      let one := Expr.float Binary.one bits
      ⟨mulNumbers one (.rat coeff),
        fs.map fun f => (approximate bits (ofPoly gens f.1 (norm f.1)), f.2)⟩

/-- The integer in front of a monomial. -/
def intAt {n : Nat} (p : Poly n) (exponents : List Nat) : Int :=
  (p.monomials.lookup exponents).getD 0

/-- The exponents of the first monomial of two polynomials. -/
def firstMonomial {n : Nat} (p q : Poly n) : List Nat :=
  (p.monomials ++ q.monomials).foldl
    (fun (best : List Nat) m => if best < m.1 then m.1 else best) []

/-- The factors of a polynomial with complex coefficients, from its real and imaginary parts. -/
def factorComplex {n : Nat} (gens : List Expr) (re im : Poly n) (divisor : Nat) : Factored :=
  let common := Poly.gcd re im
  let re := Poly.quotient re common
  let im := Poly.quotient im common
  let real := factorPoly gens common divisor 0
  let first := firstMonomial re im
  let a := intAt re first
  let b := intAt im first
  let norm := a * a + b * b
  if norm = 0 then real
  else
    let re' := Poly.add (Poly.scale a re) (Poly.scale b im)
    let im' := Poly.sub (Poly.scale a im) (Poly.scale b re)
    let content := Nat.gcd (re'.monomials.foldl (fun (g : Nat) m => Nat.gcd g m.2.natAbs) 0)
      (im'.monomials.foldl (fun (g : Nat) m => Nat.gcd g m.2.natAbs) 0)
    let rest := ofPoly gens re' content + imaginary * ofPoly gens im' content
    let unit := .rat (mkRat (a * content) norm.toNat) +
      imaginary * .rat (mkRat (b * content) norm.toNat)
    ⟨real.coeff * unit, real.powers ++ [(rest, 1)]⟩

/-- The factors of a sum that has been multiplied out; `none` if it has no generators. -/
def factorSum? (e : Expr) : Option Factored := do
  let ts := e.terms.map generatorTerm
  let all := generators ts
  let gens := all.filter fun g => !(g == imaginary)
  if all.isEmpty then none
  else
    let whole : Factored := ⟨one, [(e, 1)]⟩
    let bits := termPrecision ts
    match exactCoeffs? (denominatorLimit bits) ts with
    | none => some whole
    | some (cs, l) =>
      if factorLimit < ts.length || (bits ≠ 0 && gens.length ≠ all.length) then some whole
      else
        let pairs := ts.zip (cs.map fun (c : Rat) => (c * (l : Rat)).num)
        let isImaginary := fun (t : GeneratorTerm × Int) => t.1.powers.exponent imaginary = 1
        let part := fun (ps : List (GeneratorTerm × Int)) => polyOf gens.length gens ps
        if gens.length = all.length then some (factorPoly gens (part pairs) l bits)
        else
          some (factorComplex gens (part (pairs.filter fun t => !isImaginary t))
            (part (pairs.filter isImaginary)) l)

/-- Whether an expression is a number with an imaginary part. -/
def isComplexNumber (e : Expr) : Bool :=
  match e with
  | .const .i => true
  | .app .mul [c, .const .i] => c.isNumber
  | .app .add [c, .const .i] => c.isNumber
  | .app .add [c, .app .mul [d, .const .i]] => c.isNumber && d.isNumber
  | _ => false

/-- The number in front and the powers that a factor stands for. -/
def splitFactor (f : Expr) : Expr × List (Expr × Expr) :=
  if f.isNumber || f.isComplexNumber then (f, [])
  else
    let (b, e) := match f with
      | .app .pow [b, e] => (b, e)
      | f => (f, one)
    if b.isNumber then (if e.isNumber then (f, []) else (one, [(b, e)]))
    else
      let b := expand Expansion.all b
      match factorSum? b with
      | none => (one, [(b, e)])
      | some ⟨c, ps⟩ =>
        let powers := ps.map fun p => (p.1, int p.2)
        if e.isInteger then (power c e, powers.map fun p => (p.1, p.2 * e))
        else
          let isNumeric := c == one || c.isPositive
          let positive := (if c == one || !isNumeric then [] else [(c, e)]) ++
            (powers.filter fun p => p.1.isPositive).map fun p => (p.1, p.2 * e)
          let other := (powers.filter fun p => !p.1.isPositive) ++
            (if isNumeric then [] else [(c, one)])
          (one, positive ++ [(product (other.map fun p => power p.1 p.2), e)])

/-- An expression as a product of factors. -/
def factor (e : Expr) : Expr :=
  let parts := (shallowTogether e).factors.map splitFactor
  let coeff := product (parts.map (·.1))
  let rest := product (parts.flatMap fun p => p.2.map fun q => power q.1 q.2)
  if coeff.isNumber then keepCoeff coeff rest else coeff * rest

end ErrorBars.Expr
