import ErrorBars.Numeric.Power

/-!
# Polynomials over the integers

A polynomial in `n + 1` variables is a polynomial in its first variable whose coefficients are
polynomials in the other `n`: a list of pairs of a degree and a coefficient that is not zero, by
descending degree.  A polynomial in no variables is an integer.  All operations go by recursion on
the number of variables.
-/

set_option autoImplicit false

namespace ErrorBars

/-- Polynomials in a number of variables. -/
def Poly : Nat → Type
  | 0 => Int
  | n + 1 => List (Nat × Poly n)

namespace Poly

/-- An integer as a polynomial in no variables. -/
def ofInt (k : Int) : Poly 0 := k

/-- A polynomial in no variables as an integer. -/
def toInt (p : Poly 0) : Int := p

/-- The coefficients of a polynomial, by descending degree in its first variable. -/
def coeffs {n : Nat} (p : Poly (n + 1)) : List (Nat × Poly n) := p

/-- The polynomial with the given coefficients. -/
def ofCoeffs {n : Nat} (cs : List (Nat × Poly n)) : Poly (n + 1) := cs

/-- Zero. -/
def zero : (n : Nat) → Poly n
  | 0 => ofInt 0
  | _ + 1 => ofCoeffs []

instance (n : Nat) : Inhabited (Poly n) := ⟨zero n⟩

/-- Whether a polynomial is zero. -/
def isZero : {n : Nat} → Poly n → Bool
  | 0, p => p.toInt == 0
  | _ + 1, p => p.coeffs.isEmpty

/-- A constant. -/
def const : (n : Nat) → Int → Poly n
  | 0, k => ofInt k
  | n + 1, k => if k = 0 then ofCoeffs [] else ofCoeffs [(0, const n k)]

/-- One. -/
def one (n : Nat) : Poly n := const n 1

/-- A monomial: a number times powers of the variables. -/
def monomial : (n : Nat) → List Nat → Int → Poly n
  | 0, _, k => ofInt k
  | n + 1, es, k =>
    if k = 0 then ofCoeffs [] else ofCoeffs [(es.headD 0, monomial n es.tail k)]

/-- The integer that a polynomial is, if it is constant. -/
def const? : {n : Nat} → Poly n → Option Int
  | 0, p => some p.toInt
  | _ + 1, p =>
    match p.coeffs with
    | [] => some 0
    | [(0, c)] => const? c
    | _ => none

/-- Equality. -/
def beq : {n : Nat} → Poly n → Poly n → Bool
  | 0, p, q => p.toInt == q.toInt
  | _ + 1, p, q => p.coeffs.length == q.coeffs.length &&
      (p.coeffs.zip q.coeffs).all fun (a, b) => a.1 == b.1 && beq a.2 b.2

/-- Merges lists of coefficients by descending degree; coefficients of one degree are added. -/
def mergeCoeffs {α : Type} (add : α → α → α) (isZero : α → Bool) :
    List (Nat × α) → List (Nat × α) → List (Nat × α)
  | [], bs => bs
  | as, [] => as
  | a :: as, b :: bs =>
    if b.1 < a.1 then a :: mergeCoeffs add isZero as (b :: bs)
    else if a.1 < b.1 then b :: mergeCoeffs add isZero (a :: as) bs
    else
      let c := add a.2 b.2
      if isZero c then mergeCoeffs add isZero as bs else (a.1, c) :: mergeCoeffs add isZero as bs
termination_by as bs => as.length + bs.length

/-- The sum. -/
def add : {n : Nat} → Poly n → Poly n → Poly n
  | 0, p, q => ofInt (p.toInt + q.toInt)
  | _ + 1, p, q => ofCoeffs (mergeCoeffs add isZero p.coeffs q.coeffs)

/-- Change of sign. -/
def neg : {n : Nat} → Poly n → Poly n
  | 0, p => ofInt (-p.toInt)
  | _ + 1, p => ofCoeffs (p.coeffs.map fun a => (a.1, neg a.2))

/-- The difference. -/
def sub {n : Nat} (p q : Poly n) : Poly n := add p (neg q)

/-- The product. -/
def mul : {n : Nat} → Poly n → Poly n → Poly n
  | 0, p, q => ofInt (p.toInt * q.toInt)
  | _ + 1, p, q =>
    p.coeffs.foldl (fun acc a =>
      add acc (ofCoeffs (q.coeffs.map fun b => (a.1 + b.1, mul a.2 b.2)))) (ofCoeffs [])

/-- A power. -/
def pow {n : Nat} (p : Poly n) : Nat → Poly n
  | 0 => one n
  | k + 1 => mul p (pow p k)

/-- A multiple by an integer. -/
def scale {n : Nat} (k : Int) (p : Poly n) : Poly n := mul (const n k) p

/-- The degree in the first variable. -/
def degree {n : Nat} (p : Poly (n + 1)) : Nat :=
  match p.coeffs with
  | [] => 0
  | a :: _ => a.1

/-- The coefficient of the highest power of the first variable. -/
def leading {n : Nat} (p : Poly (n + 1)) : Poly n :=
  match p.coeffs with
  | [] => zero n
  | a :: _ => a.2

/-- A polynomial times a coefficient and a power of the first variable. -/
def shift {n : Nat} (k : Nat) (c : Poly n) (p : Poly (n + 1)) : Poly (n + 1) :=
  ofCoeffs (p.coeffs.map fun a => (a.1 + k, mul c a.2))

/-- The integer in front of the first monomial. -/
def leadingInt : {n : Nat} → Poly n → Int
  | 0, p => p.toInt
  | _ + 1, p => leadingInt (leading p)

/-- The monomials, each as its exponents and the integer in front. -/
def monomials : {n : Nat} → Poly n → List (List Nat × Int)
  | 0, p => [([], p.toInt)]
  | _ + 1, p => p.coeffs.flatMap fun a => (monomials a.2).map fun m => (a.1 :: m.1, m.2)

/-- The number of monomials. -/
def size : {n : Nat} → Poly n → Nat
  | 0, _ => 1
  | _ + 1, p => p.coeffs.foldl (fun k a => k + size a.2) 0

/-- The value at a point of integers. -/
def eval : {n : Nat} → List Int → Poly n → Int
  | 0, _, p => p.toInt
  | _ + 1, xs, p => p.coeffs.foldl (fun acc a => acc + xs.headD 0 ^ a.1 * eval xs.tail a.2) 0

end Poly

end ErrorBars
