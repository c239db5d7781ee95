import ErrorBars.Expr.Number

/-!
# Numerals

How far a numeral reaches in a text, and what number it stands for.  Whole numbers may be written in
decimal, or with the prefixes `0x`, `0o` and `0b` in three other bases; a decimal whole number other
than zero has no leading zero, so that `01` is two numerals.  A numeral with a point or an exponent
is approximate and carries as many digits as are written, but at least fifteen.  Single underscores
may stand between digits.  A `j` at the end makes a number imaginary.
-/

set_option autoImplicit false

namespace ErrorBars.Formula

/-! ## How far a numeral reaches -/

/-- The digits at the head of a text, of which each but the first may follow an underscore. -/
def digitRun (isDigit : Char → Bool) : List Char → List Char × List Char
  | '_' :: c :: rest =>
    if isDigit c then
      let (run, after) := digitRun isDigit rest
      ('_' :: c :: run, after)
    else ([], '_' :: c :: rest)
  | c :: rest =>
    if isDigit c then
      let (run, after) := digitRun isDigit rest
      (c :: run, after)
    else ([], c :: rest)
  | [] => ([], [])

/-- The decimal digits at the head of a text that begins with a digit. -/
def decimalRun (cs : List Char) : List Char × List Char :=
  match cs with
  | c :: _ => if c.isDigit then digitRun Char.isDigit cs else ([], cs)
  | [] => ([], [])

/-- The exponent at the head of a text, if there is one. -/
def exponentRun (cs : List Char) : List Char × List Char :=
  match cs with
  | e :: s :: rest =>
    if e = 'e' ∨ e = 'E' then
      let (sign, digits) := if s = '+' ∨ s = '-' then ([s], rest) else ([], s :: rest)
      match decimalRun digits with
      | ([], _) => ([], cs)
      | (run, after) => (e :: sign ++ run, after)
    else ([], cs)
  | _ => ([], cs)

/-- A numeral with a point or an exponent at the head of a text. -/
def approximateRun? (cs : List Char) : Option (List Char × List Char) :=
  match decimalRun cs with
  | ([], '.' :: rest) =>
    match decimalRun rest with
    | ([], _) => none
    | (fraction, after) =>
      let (exponent, after) := exponentRun after
      some ('.' :: fraction ++ exponent, after)
  | ([], _) => none
  | (whole, '.' :: rest) =>
    let (fraction, after) := decimalRun rest
    let (exponent, after) := exponentRun after
    some (whole ++ '.' :: fraction ++ exponent, after)
  | (whole, after) =>
    match exponentRun after with
    | ([], _) => none
    | (exponent, after) => some (whole ++ exponent, after)

/-- The base that a letter after a zero stands for, and its digits. -/
def basePrefix? (letter : Char) : Option (Nat × (Char → Bool)) :=
  if letter = 'x' ∨ letter = 'X' then
    some (16, fun c => c.isDigit || ('a' ≤ c && c ≤ 'f') || ('A' ≤ c && c ≤ 'F'))
  else if letter = 'o' ∨ letter = 'O' then some (8, fun c => '0' ≤ c && c ≤ '7')
  else if letter = 'b' ∨ letter = 'B' then some (2, fun c => c == '0' || c == '1')
  else none

/-- A decimal whole number at the head of a text: zeros, or digits of which the first is no zero. -/
def wholeRun? (cs : List Char) : Option (List Char × List Char) :=
  match cs with
  | '0' :: _ => some (digitRun (· == '0') cs)
  | _ =>
    match decimalRun cs with
    | ([], _) => none
    | found => some found

/-- A whole number at the head of a text, in any base. -/
def integerRun? (cs : List Char) : Option (List Char × List Char) :=
  match cs with
  | '0' :: letter :: rest =>
    match basePrefix? letter with
    | some (_, isDigit) =>
      match digitRun isDigit rest with
      | ([], _) => wholeRun? cs
      | (run, after) => some ('0' :: letter :: run, after)
    | none => wholeRun? cs
  | cs => wholeRun? cs

/-- The mark of an imaginary number behind a run. -/
def withUnit? : List Char × List Char → Option (List Char × List Char)
  | (run, c :: after) => if c = 'j' ∨ c = 'J' then some (run ++ [c], after) else none
  | _ => none

/-- The numeral at the head of a text, and what follows it. -/
def numeralRun? (cs : List Char) : Option (List Char × List Char) :=
  let imaginaryWhole := match decimalRun cs with
    | ([], _) => none
    | found => withUnit? found
  match imaginaryWhole with
  | some found => some found
  | none =>
    match approximateRun? cs with
    | some found => some ((withUnit? found).getD found)
    | none => integerRun? cs

/-! ## What a numeral stands for -/

/-- The value of a digit in any base. -/
def digitValue (c : Char) : Nat :=
  if c.isDigit then c.toNat - 48 else if 'a' ≤ c then c.toNat - 87 else c.toNat - 55

/-- The number that digits stand for. -/
def ofDigits (base : Nat) (digits : List Char) : Nat :=
  digits.foldl (fun n c => n * base + digitValue c) 0

/-- The most digits that a decimal whole number may have. -/
def digitLimit : Nat := 4300

/-- The whole number that a numeral without point and exponent stands for.  It is `none` for a
leading zero in front of another digit, and for too many digits. -/
def readWhole? (cs : List Char) : Option Nat :=
  match cs.filter (· ≠ '_') with
  | [] => none
  | '0' :: rest =>
    match rest with
    | [] => some 0
    | letter :: digits =>
      match basePrefix? letter with
      | some (base, _) => some (ofDigits base digits)
      | none => if (letter :: digits).all (· == '0') then some 0 else none
  | digits => if digits.length ≤ digitLimit then some (ofDigits 10 digits) else none

/-- Whether a numeral has a point or an exponent. -/
def isApproximate (cs : List Char) : Bool :=
  let based := match cs with
    | '0' :: letter :: _ => letter == 'x' || letter == 'X'
    | _ => false
  cs.contains '.' || (!based && (cs.contains 'e' || cs.contains 'E'))

/-- A power of ten. -/
def tenTo (e : Int) : Rat := if 0 ≤ e then (10 ^ e.toNat : Nat) else mkRat 1 (10 ^ e.natAbs)

/-- The number of decimal digits. -/
def decimalLength (n : Nat) : Nat := (Nat.toDigits 10 n).length

/-- The approximate number that a numeral with a point or an exponent stands for.  Its precision is
the number of digits written, or of the digits of a whole number without point, and at least
fifteen. -/
def readApproximate (cs : List Char) : Expr :=
  let cs := cs.filter (· ≠ '_')
  let isExponentMark := fun (c : Char) => c == 'e' || c == 'E'
  let mantissa := cs.takeWhile fun c => !isExponentMark c
  let exponentText := (cs.dropWhile fun c => !isExponentMark c).drop 1
  let exponent : Int := match exponentText with
    | '-' :: digits => -(ofDigits 10 digits : Int)
    | '+' :: digits => ofDigits 10 digits
    | digits => ofDigits 10 digits
  let fraction := (mantissa.dropWhile (· ≠ '.')).drop 1
  let digits := mantissa.filter (· ≠ '.')
  let n := ofDigits 10 digits
  let place := exponent - fraction.length
  let written := decimalLength n
  let count := if cs.contains '.' then written
    else if 0 ≤ place then max written (written + place.toNat) else written
  let bits := Expr.bitsOfDigits (max 15 count)
  .float (Binary.ofRat bits ((n : Rat) * tenTo place)) bits

end ErrorBars.Formula
