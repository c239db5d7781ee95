import ErrorBars.Text.NormalForm.Table

/-!
# The compatibility form of identifiers

Many characters are only another way of writing others: ligatures, letters in a mathematical script,
letters with an accent that may also be written as two characters.  `compatibilityForm` brings an
identifier into one form: every character is taken apart, marks are put in order of their combining
class, and what can be written as one character is.  Identifiers with one form are the same name.

A text without such characters, and so every ASCII text, is its own form.
-/

set_option autoImplicit false

namespace ErrorBars.Text

/-! ## Reading the tables -/

/-- A run of consecutive characters with what they stand for. -/
structure DecompositionRun where
  /-- the first character -/
  first : Nat
  /-- the number of characters -/
  count : Nat
  /-- the first code point that the first character stands for -/
  head : Nat
  /-- the other code points -/
  tail : List Nat
  /-- whether the sequence is written as the one character -/
  composes : Bool

/-- The number that hexadecimal digits stand for. -/
def hexNumber (cs : List Char) : Nat :=
  cs.foldl (fun n c =>
    16 * n + (if c.isDigit then c.toNat - '0'.toNat else c.toNat - 'a'.toNat + 10)) 0

/-- Pieces of a text between separators. -/
def splitChars (separator : Char) : List Char → List (List Char)
  | [] => [[]]
  | c :: cs =>
    match splitChars separator cs with
    | [] => [[c]]
    | p :: ps => if c = separator then [] :: p :: ps else (c :: p) :: ps

/-- The first character of a run and its length. -/
def readSpan (cs : List Char) : Nat × Nat :=
  match splitChars '+' cs with
  | [a, b] => (hexNumber a, hexNumber b)
  | a :: _ => (hexNumber a, 1)
  | [] => (0, 0)

/-- Reads one run. -/
def readRun (entry : List Char) : DecompositionRun :=
  let isMark := fun (c : Char) => c == '=' || c == ':'
  let (first, count) := readSpan (entry.takeWhile fun c => !isMark c)
  let rest := entry.dropWhile fun c => !isMark c
  let codes := (splitChars '.' (rest.drop 1)).map hexNumber
  { first, count, head := codes.headD 0, tail := codes.tail, composes := rest.head? == some ':' }

/-- All runs. -/
def decompositionRuns : List DecompositionRun :=
  decompositionLines.flatMap fun line => (splitChars ' ' line.toList).map readRun

/-- All combining classes, as runs whose head is the class. -/
def markRuns : List DecompositionRun :=
  markLines.flatMap fun line => (splitChars ' ' line.toList).map readRun

/-! ## Taking apart -/

/-- Whether a character lies in a run. -/
def DecompositionRun.contains (r : DecompositionRun) (c : Nat) : Bool :=
  r.first ≤ c && c < r.first + r.count

/-- The combining class of a code point; zero unless it is a mark. -/
def combiningClass (c : Nat) : Nat :=
  if c < 0x300 then 0
  else
    match markRuns.find? fun r => r.contains c with
    | some r => r.head
    | none => 0

/-- What a code point stands for. -/
def decompose (c : Nat) : List Nat :=
  if c < 0x80 then [c]
  else
    match decompositionRuns.find? fun r => r.contains c with
    | some r => (r.head + (c - r.first)) :: r.tail
    | none => [c]

/-- Puts a code point in its place before the marks that precede it, which are given last first: a
mark goes before marks of a higher class. -/
def insertMark (c k : Nat) : List Nat → List Nat
  | [] => [c]
  | d :: ds => if k ≠ 0 ∧ k < combiningClass d then d :: insertMark c k ds else c :: d :: ds

/-- Puts marks in order of their classes. -/
def orderMarks (cs : List Nat) : List Nat :=
  (cs.foldl (fun done c => insertMark c (combiningClass c) done) []).reverse

/-! ## Putting together -/

/-- The syllable of a leading consonant and a vowel, or of such a syllable and a final consonant. -/
def syllable? (a b : Nat) : Option Nat :=
  if 0x1100 ≤ a ∧ a < 0x1113 ∧ 0x1161 ≤ b ∧ b < 0x1176 then
    some (0xac00 + ((a - 0x1100) * 21 + (b - 0x1161)) * 28)
  else if 0xac00 ≤ a ∧ a ≤ 0xd7a3 ∧ (a - 0xac00) % 28 = 0 ∧ 0x11a7 < b ∧ b < 0x11c3 then
    some (a + (b - 0x11a7))
  else none

/-- The one character for a character and the next one. -/
def pair? (a b : Nat) : Option Nat :=
  match syllable? a b with
  | some s => some s
  | none =>
    match decompose a ++ [b] with
    | h :: t =>
      (decompositionRuns.find? fun r =>
        r.composes && r.tail == t && r.head ≤ h && h < r.head + r.count).map
        fun r => r.first + (h - r.head)
    | [] => none

/-- Puts together what follows a character.  A mark joins the character unless a mark of the same or
a higher class stands between them; `kept` are the marks between, last first, and `last` is the
class of the last one. -/
def composeFrom (start : Nat) (kept : List Nat) (last : Nat) : List Nat → List Nat
  | [] => start :: kept.reverse
  | c :: cs =>
    let k := combiningClass c
    let joined := if kept.isEmpty || last < k then pair? start c else none
    match joined with
    | some s => composeFrom s kept last cs
    | none =>
      if k = 0 then start :: kept.reverse ++ composeFrom c [] 0 cs
      else composeFrom start (c :: kept) k cs

/-- Writes as one character what can be. -/
def compose : List Nat → List Nat
  | [] => []
  | c :: cs => composeFrom c [] 0 cs

/-- The one form of an identifier. -/
def compatibilityForm (s : String) : String :=
  if s.toList.all fun c => c.toNat < 0x80 then s
  else
    let codes := s.toList.flatMap fun c => decompose c.toNat
    String.ofList ((compose (orderMarks codes)).map Char.ofNat)

end ErrorBars.Text
