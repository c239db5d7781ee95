import ErrorBars.Expr.Canonical.Bounds

/-!
# Canonical sums

Nested sums are opened, numbers are added up, and terms that differ only in the number in front are
merged.  What remains is put into canonical order, the number first.  Infinities swallow the terms
that cannot change them.
-/

set_option autoImplicit false

namespace ErrorBars.Canonical

/-- What has been gathered of a sum. -/
structure SumState where
  /-- the sum of the numbers; it may be infinite without direction -/
  coeff : Expr
  /-- the other terms without the numbers in front, the last one first, and those numbers -/
  terms : List (Expr × Expr)
  /-- whether the sum has no value -/
  undefined : Bool

namespace SumState

/-- Nothing gathered yet. -/
def empty : SumState := ⟨Expr.zero, [], false⟩

/-- Takes in a number. -/
def addNumber (A : Arith) (s : SumState) (n : Expr) : SumState :=
  if s.coeff.isFnOf .bounds then { s with coeff := (boundsSum? A s.coeff n).getD s.coeff }
  else if s.coeff == Expr.complexInfinity then
    if n.isInfinite || n == Expr.undefined then { s with undefined := true } else s
  else
    let c := Expr.addNumbers s.coeff n
    if c == Expr.undefined then { s with undefined := true } else { s with coeff := c }

/-- Takes in an infinity without direction. -/
def addInfinity (s : SumState) : SumState :=
  if s.coeff.isInfinite then { s with undefined := true }
  else { s with coeff := Expr.complexInfinity }

/-- Adds to the number in front of a term, if the term is there. -/
def bump (n t : Expr) : List (Expr × Expr) → Option (List (Expr × Expr))
  | [] => none
  | (u, m) :: rest =>
    if u == t then some ((u, Expr.addNumbers m n) :: rest)
    else (bump n t rest).map ((u, m) :: ·)

/-- Takes in a term with a number in front. -/
def addTerm (s : SumState) (n t : Expr) : SumState :=
  match bump n t s.terms with
  | some terms =>
    { s with
      terms := terms, undefined := s.undefined || terms.any fun p => p.2 == Expr.undefined }
  | none => { s with terms := (t, n) :: s.terms }

/-- Takes in one term of a sum. -/
def take (A : Arith) : Nat → SumState → Expr → SumState
  | 0, s, e => if e.isNumber then s.addNumber A e else s.addTerm Expr.one e
  | fuel + 1, s, e =>
    if e.isNumber then s.addNumber A e
    else
      match e with
      | .const .complexInfinity => s.addInfinity
      | .app (.fn .bounds) ends =>
        let e := Expr.rawFn .bounds ends
        { s with coeff := (boundsSum? A e s.coeff).getD e }
      | .app .add ts => ts.foldl (take A fuel) s
      | .app .mul fs =>
        let (c, t) := (Expr.app .mul fs).coeffMul
        s.addTerm c t
      | .app .pow [b, x] =>
        let stale := match x with
          | .rat q => b.isNumber && (q.den = 1 || q < 0)
          | _ => false
        let p := A.power b x
        if stale && !(p == .app .pow [b, x]) then take A fuel s p
        else s.addTerm Expr.one (.app .pow [b, x])
      | e => s.addTerm Expr.one e

/-- A term with the number in front of it; `none` if the number is zero. -/
def term? (A : Arith) (p : Expr × Expr) : Option Expr :=
  let (t, c) := p
  if c.isZero then none
  else if c == Expr.one then some t
  else
    some (match t with
      | .app .mul fs => Expr.rawMul (c :: fs)
      | .app .add ts => Expr.rawMul [c, .app .add ts]
      | t => A.mul c t)

/-- Whether a term is swallowed by the number of a sum. -/
def swallowed (coeff t : Expr) : Bool :=
  if coeff == Expr.infinity then
    let f := t.facts
    f.isNonnegative || (f.real == some true && f.finite == some true)
  else if coeff == .const .negInfinity then
    let f := t.facts
    f.isNegative || (f.real == some true && f.finite == some true)
  else if coeff == Expr.complexInfinity then
    let f := t.facts
    f.finite == some true && f.real.isSome
  else false

/-- The sum that has been gathered. -/
def finish (A : Arith) (s : SumState) : Expr :=
  if s.undefined then Expr.undefined
  else
    let terms := s.terms.reverse.filterMap (term? A)
    let terms := if s.coeff.isInfinite then terms.filter fun t => !swallowed s.coeff t else terms
    let sorted := Expr.sortArgs terms
    Expr.sumOf (if s.coeff == Expr.zero then sorted else s.coeff :: sorted)

end SumState

/-- How deeply sums are opened. -/
def openingDepth : Nat := 64

/-- The canonical sum of several terms. -/
def sum (A : Arith) (es : List Expr) : Expr :=
  match es.filter fun e => !(e == Expr.zero) with
  | [] => Expr.zero
  | [e] => e
  | [.rat q, .app .mul fs] => Expr.rawAdd [.rat q, .app .mul fs]
  | [.app .mul fs, .rat q] => Expr.rawAdd [.rat q, .app .mul fs]
  | es =>
    let general := fun (_ : Unit) =>
      (es.foldl (SumState.take A openingDepth) SumState.empty).finish A
    match es with
    | [a, b] => (boundsSum? A a b).getD (general ())
    | _ => general ()

end ErrorBars.Canonical
