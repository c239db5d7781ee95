import ErrorBars.Measurement
import ErrorBars.Text.Blank

/-!
# Combining contributions

Each variable contributes its derivative times its uncertainty.  The contributions are combined
either as if the variables were uncorrelated (root of the sum of squares) or as if they moved
together (sum of magnitudes), or in both ways at once.

Both reductions are written over an arbitrary addition (`blockedSum`, `foldHypot`), so that what
they compute exactly can be told apart from how doubles round.  `blockedSum` adds in the order that
keeps eight running sums, which is what makes the last digits of the correlated figure come out.
-/

set_option autoImplicit false

namespace ErrorBars

/-- How contributions are combined. -/
inductive Correlation where
  /-- root of the sum of squares -/
  | uncorrelated
  /-- sum of magnitudes -/
  | correlated
  /-- both figures -/
  | both
  deriving DecidableEq, Repr

namespace Correlation

/-- The name of a mode. -/
def name : Correlation → String
  | .uncorrelated => "uncorrelated"
  | .correlated => "correlated"
  | .both => "both"

/-- All modes, in the order in which messages list them. -/
def all : List Correlation := [.uncorrelated, .correlated, .both]

/-- Lower case.  The names of the modes are ASCII words, and no character outside ASCII turns into
one of their letters, so only ASCII letters are changed. -/
def lower (cs : List Char) : List Char := cs.map Char.toLower

/-- The mode that a word names. -/
def ofWord? (cs : List Char) : Option Correlation :=
  all.find? fun m => m.name.toList == cs

/-- The mode that a datum names, whatever blanks surround the name and in letters of either case. -/
def ofDatum? : Datum → Option Correlation
  | .text s => ofWord? (lower (Text.strip s.toList))
  | _ => Option.none

/-- The message about a datum that names no mode. -/
def unknownMessage (given : Datum) : String :=
  "unknown correlation mode " ++ given.display ++ ", expected one of " ++
    ", ".intercalate (all.map name)

end Correlation

/-! ## The two reductions -/

section Reductions

variable {α : Type}

/-- Terms from left to right, starting with the first of them. -/
def plainSum (add : α → α → α) (zero : α) : List α → α
  | [] => zero
  | x :: xs => xs.foldl add x

/-- Eight running sums. -/
structure EightSums (α : Type) where
  s0 : α
  s1 : α
  s2 : α
  s3 : α
  s4 : α
  s5 : α
  s6 : α
  s7 : α

namespace EightSums

/-- The eight sums added pairwise. -/
def total (add : α → α → α) (s : EightSums α) : α :=
  add (add (add s.s0 s.s1) (add s.s2 s.s3)) (add (add s.s4 s.s5) (add s.s6 s.s7))

/-- Adds terms in groups of eight, one to each running sum.  When fewer than eight are left the
sums are totalled and the rest is added term by term. -/
def run (add : α → α → α) (s : EightSums α) : List α → α
  | a :: b :: c :: d :: e :: f :: g :: h :: rest =>
    run add ⟨add s.s0 a, add s.s1 b, add s.s2 c, add s.s3 d, add s.s4 e, add s.s5 f, add s.s6 g,
      add s.s7 h⟩ rest
  | rest => rest.foldl add (s.total add)

end EightSums

/-- A block of at most 128 terms: with at least eight of them in eight running sums, otherwise from
left to right. -/
def blockSum (add : α → α → α) (zero : α) : List α → α
  | a :: b :: c :: d :: e :: f :: g :: h :: rest =>
    EightSums.run add ⟨a, b, c, d, e, f, g, h⟩ rest
  | xs => plainSum add zero xs

/-- Where a long list is split: the largest multiple of eight up to its middle. -/
def splitPoint (n : Nat) : Nat := n / 2 - n / 2 % 8

theorem splitPoint_lt {n : Nat} (h : 128 < n) : splitPoint n < n := by
  unfold splitPoint; omega

theorem splitPoint_pos {n : Nat} (h : 128 < n) : 0 < splitPoint n := by
  unfold splitPoint; omega

/-- The sum of a list, in blocks: more than 128 terms are split and the two parts summed alike. -/
def blockedSum (add : α → α → α) (zero : α) (xs : List α) : α :=
  if _h : 128 < xs.length then
    add (blockedSum add zero (xs.take (splitPoint xs.length)))
      (blockedSum add zero (xs.drop (splitPoint xs.length)))
  else blockSum add zero xs
termination_by xs.length
decreasing_by
  · have := splitPoint_lt _h
    simp only [List.length_take]; omega
  · have := splitPoint_pos _h
    simp only [List.length_drop]; omega

/-- The length of the hypotenuse over all terms, taken one leg after another. -/
def foldHypot (hypot : α → α → α) (zero : α) (xs : List α) : α := xs.foldl hypot zero

end Reductions

/-! ## Figures -/

/-- A derivative with the measurement it belongs to.  Both may be numbers of any form. -/
structure Contribution where
  /-- the derivative at the measured point -/
  derivative : Number
  /-- the uncertainty of the variable -/
  error : Number

/-- A figure, or a figure for each assumption about correlation, over numbers of any kind. -/
inductive Figure (α : Type) where
  /-- a single figure -/
  | single (figure : α)
  /-- the figures under both assumptions -/
  | breakdown (correlated uncorrelated : α)

namespace Figure

variable {α : Type}

/-- The figure for one assumption; a single figure serves both. -/
def pick (correlated : Bool) : Figure α → α
  | .single x => x
  | .breakdown c u => if correlated then c else u

/-- A figure as a datum. -/
def toDatum (given : α → Datum) : Figure α → Datum
  | .single x => given x
  | .breakdown c u =>
    .mapping [(.text "correlated", given c), (.text "uncorrelated", given u)]

end Figure

/-- The figure for the variables moving together: the sum of the magnitudes. -/
def correlatedFigure (terms : List Double) : Double :=
  blockedSum Double.add (Double.zero false) (terms.map Double.abs)

/-- The figure for independent variables: the root of the sum of squares. -/
def uncorrelatedFigure (terms : List Double) : Double :=
  foldHypot Double.hypot (Double.zero false) (terms.map Double.abs)

/-- The figure or figures that a mode asks for. -/
def figures (mode : Correlation) (terms : List Double) : Figure Double :=
  match mode with
  | .uncorrelated => .single (uncorrelatedFigure terms)
  | .correlated => .single (correlatedFigure terms)
  | .both => .breakdown (correlatedFigure terms) (uncorrelatedFigure terms)

/-- The term of a contribution: the product, which is exact between whole numbers, as a double. -/
def Contribution.term? (c : Contribution) : Option Double :=
  (c.derivative.mul? c.error).bind Number.toDouble?

/-- The products of all contributions as doubles; `none` if one of them is too large. -/
def terms? : List Contribution → Option (List Double)
  | [] => some []
  | c :: cs => do
    let x ← c.term?
    let xs ← terms? cs
    return x :: xs

/-- Combines contributions into the total error; `none` if a product is too large for a double. -/
def combine? (mode : Correlation) (contributions : List Contribution) : Option (Figure Double) :=
  (terms? contributions).map (figures mode)

end ErrorBars
