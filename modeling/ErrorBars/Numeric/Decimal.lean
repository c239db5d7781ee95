import ErrorBars.Numeric.Double

/-!
# Decimal text of doubles

Two ways to write a double, and one to read it.

* `Double.shortest` — the fewest digits that read back as the same number; among those the digits
  nearest to it.  `Double.exactText` lays them out: positional when the first digit stands between
  the place of `10 ^ -4` and that of `10 ^ 15`, with an exponent otherwise.
* `Double.roundedText` — ten significant digits with an exponent, correctly rounded.
* `Double.ofText?` — reads a decimal numeral, or the name of an infinity or of the undefined value.
-/

set_option autoImplicit false

namespace ErrorBars

/-- A decimal numeral `digits · 10 ^ exponent`. -/
structure Decimal where
  /-- the digits, as one number -/
  digits : Nat
  /-- the power of ten that the last digit counts -/
  exponent : Int
  deriving DecidableEq, Repr

namespace Decimal

/-- The digits of a number as text, without leading zeros. -/
def digitText (n : Nat) : String := String.ofList (Nat.toDigits 10 n)

/-- Removes zeros at the end of the digits; `fuel` bounds their number. -/
def trim : Nat → Decimal → Decimal
  | 0, d => d
  | fuel + 1, d =>
    if d.digits ≠ 0 ∧ d.digits % 10 = 0 then trim fuel ⟨d.digits / 10, d.exponent + 1⟩ else d

/-- `10 ^ k` times the ratio `n / d`, as a pair of numerator and denominator. -/
def scaleTen (n d : Nat) (k : Int) : Nat × Nat :=
  if 0 ≤ k then (n * 10 ^ k.toNat, d) else (n, d * 10 ^ (-k).toNat)

/-- Moves an estimate `k` of the decimal exponent to the one with `10 ^ k ≤ n / d < 10 ^ (k +
1)`. -/
def adjustPlace : Nat → Nat → Nat → Int → Int
  | 0, _, _, k => k
  | fuel + 1, n, d, k =>
    let (a, b) := scaleTen n d (-k)
    if a < b then adjustPlace fuel n d (k - 1)
    else if 10 * b ≤ a then adjustPlace fuel n d (k + 1)
    else k

/-- The place of the first digit of `n / d`: the `k` with `10 ^ k ≤ n / d < 10 ^ (k + 1)`. -/
def firstPlace (n d : Nat) : Int :=
  let bits : Int := (Nat.log2 n : Int) - (Nat.log2 d : Int)
  adjustPlace 8 n d (Int.fdiv (bits * 30103) 100000)

/-- `n / d` with `count` significant digits, to nearest, a tie to the even digit. -/
def significant (n d count : Nat) : Decimal :=
  let k := firstPlace n d
  let unit := k - (count : Int) + 1
  let (a, b) := scaleTen n d (-unit)
  let q := Double.nearestQuotient a b
  if q = 10 ^ count then ⟨10 ^ (count - 1), unit + 1⟩ else ⟨q, unit⟩

/-- An exponent with its sign and at least two digits. -/
def exponentText (k : Int) : String :=
  let digits := digitText k.natAbs
  (if k < 0 then "e-" else "e+") ++ (if digits.length < 2 then "0" ++ digits else digits)

/-- Digits with a point after the first of them, and the exponent. -/
def scientificText (digits : String) (k : Int) : String :=
  let rest := digits.toList.drop 1
  String.ofList (digits.toList.take 1) ++
    (if rest.isEmpty then "" else "." ++ String.ofList rest) ++ exponentText k

/-- Digits laid out around the point, the first one counting `10 ^ k`.  A point always appears. -/
def positionalText (digits : String) (k : Int) : String :=
  let cs := digits.toList
  if k < 0 then
    "0." ++ String.ofList (List.replicate (-k - 1).toNat '0') ++ digits
  else
    let whole := k.toNat + 1
    let front := cs.take whole ++ List.replicate (whole - cs.length) '0'
    let back := cs.drop whole
    String.ofList front ++ "." ++ (if back.isEmpty then "0" else String.ofList back)

end Decimal

namespace Double

/-- A finite magnitude as a ratio. -/
def ratio (m : Nat) (e : Int) : Nat × Nat := scaleRatio m 1 e

/-- Among the numerals of `count` digits on the grid around the number, the nearest one that reads
back as the number; `none` if neither neighbour on the grid does. -/
def onGrid (target : Double) (n d : Nat) (place : Int) (count : Nat) : Option Decimal :=
  let unit := place - (count : Int) + 1
  let (a, b) := Decimal.scaleTen n d (-unit)
  let low := a / b
  let near := nearestQuotient a b
  let far := if near = low then low + 1 else low
  if ofDecimal false near unit = target then some ⟨near, unit⟩
  else if ofDecimal false far unit = target then some ⟨far, unit⟩
  else none

/-- The first grid, from `count` digits on, that holds a numeral reading back as the number. -/
def shortestFrom (target : Double) (n d : Nat) (place : Int) : Nat → Nat → Decimal
  | 0, count => (onGrid target n d place count).getD (Decimal.significant n d 17)
  | fuel + 1, count =>
    match onGrid target n d place count with
    | some found => found
    | none => shortestFrom target n d place fuel (count + 1)

/-- The shortest numeral that reads back as the positive number `m · 2 ^ e`. -/
def shortest (m : Nat) (e : Int) (h : Canonical m e) : Decimal :=
  let (n, d) := ratio m e
  (shortestFrom (.finite false m e h) n d (Decimal.firstPlace n d) 16 1).trim 20

/-- The text from which the very same double can be read back. -/
def exactText : Double → String
  | .nan => "nan"
  | .infinite s => if s then "-inf" else "inf"
  | .finite s m e h =>
    let mark := if s then "-" else ""
    if m = 0 then mark ++ "0.0"
    else
      let short := shortest m e h
      let digits := Decimal.digitText short.digits
      let place := short.exponent + (digits.length : Int) - 1
      mark ++ (if -4 ≤ place ∧ place < 16 then Decimal.positionalText digits place
        else Decimal.scientificText digits place)

/-- Ten significant digits with an exponent. -/
def roundedText : Double → String
  | .nan => "nan"
  | .infinite s => if s then "-inf" else "inf"
  | .finite s m e _ =>
    let mark := if s then "-" else ""
    if m = 0 then mark ++ "0.000000000e+00"
    else
      let (n, d) := ratio m e
      let ten := Decimal.significant n d 10
      mark ++ Decimal.scientificText (Decimal.digitText ten.digits) (ten.exponent + 9)

end Double

namespace Decimal

/-- The number that a list of digits denotes; underscores between digits are skipped. -/
def readDigits? (cs : List Char) : Option Nat :=
  let ds := cs.filter (· != '_')
  if ds.isEmpty || !ds.all Char.isDigit then none
  else some (ds.foldl (fun n c => 10 * n + (c.toNat - '0'.toNat)) 0)

/-- The sign in front of a numeral, if any, and what follows it. -/
def readSign : List Char → Bool × List Char
  | '-' :: cs => (true, cs)
  | '+' :: cs => (false, cs)
  | cs => (false, cs)

/-- The exponent that a list of characters denotes. -/
def readExponent? (cs : List Char) : Option Int :=
  let (minus, ds) := readSign cs
  (readDigits? ds).map fun n => if minus then -(n : Int) else n

/-- An unsigned numeral with an optional fraction and an optional exponent. -/
def read? (cs : List Char) : Option Decimal := do
  let isMark := fun c => c == 'e' || c == 'E'
  let body := cs.takeWhile fun c => !isMark c
  let exponent ← match cs.dropWhile fun c => !isMark c with
    | [] => some 0
    | _ :: rest => readExponent? rest
  let whole := body.takeWhile (· != '.')
  let fraction := ((body.dropWhile (· != '.')).drop 1).filter (· != '_')
  let digits ← readDigits? (whole ++ fraction)
  some ⟨digits, exponent - fraction.length⟩

end Decimal

/-- Reads a decimal numeral, `inf`, `-inf` or `nan`. -/
def Double.ofText? (text : String) : Option Double :=
  let (minus, cs) := Decimal.readSign text.toList
  if cs = "inf".toList then some (.infinite minus)
  else if cs = "nan".toList then some .nan
  else (Decimal.read? cs).map fun d => Double.ofDecimal minus d.digits d.exponent

end ErrorBars
