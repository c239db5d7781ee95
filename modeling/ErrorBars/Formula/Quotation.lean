import ErrorBars.Text.Identifier

/-!
# Quoted texts

A text stands between single or double quotes, on one line, or between three of them.  Letters in
front of the opening quote say how it is meant: `r` takes backslashes as they are, `b` makes a text
of bytes, and `f` a template, in whose fields between braces phrases stand.

* `Quotation.scan` — the quoted text at the head of a source.
* `Quotation.append?` — two texts side by side as one.
* `Quotation.fieldWords?` — the words in the fields of a template.
-/

set_option autoImplicit false

namespace ErrorBars.Formula

/-- How a quoted text is meant. -/
inductive QuoteKind where
  /-- characters -/
  | plain
  /-- bytes -/
  | bytes
  /-- a text with fields -/
  | template
  deriving DecidableEq

/-- A quoted text. -/
structure Quotation where
  /-- how it is meant -/
  kind : QuoteKind
  /-- the characters that it holds -/
  content : List Char
  deriving DecidableEq

namespace Quotation

instance : Inhabited Quotation := ⟨⟨.plain, []⟩⟩

/-! ## Where a text ends -/

/-- The characters up to the quote that closes a text on one line, and what follows it; a character
behind a backslash is part of the text. -/
def closeSingle (q : Char) : List Char → Option (List Char × List Char)
  | '\\' :: c :: rest => (closeSingle q rest).map fun r => ('\\' :: c :: r.1, r.2)
  | c :: rest =>
    if c = q then some ([], rest)
    else if c = '\n' then none
    else (closeSingle q rest).map fun r => (c :: r.1, r.2)
  | [] => none

/-- The characters up to the three quotes that close a text, and what follows them. -/
def closeTriple (q : Char) : List Char → Option (List Char × List Char)
  | '\\' :: c :: rest => (closeTriple q rest).map fun r => ('\\' :: c :: r.1, r.2)
  | a :: b :: c :: rest =>
    if a = q ∧ b = q ∧ c = q then some ([], rest)
    else (closeTriple q (b :: c :: rest)).map fun r => (a :: r.1, r.2)
  | _ => none

/-! ## Escapes -/

/-- The character that a letter behind a backslash stands for. -/
def simpleEscape? (c : Char) : Option (List Char) :=
  match c with
  | '\n' => some []
  | '\\' => some ['\\']
  | '\'' => some ['\'']
  | '"' => some ['"']
  | 'a' => some ['\x07']
  | 'b' => some ['\x08']
  | 'f' => some ['\x0c']
  | 'n' => some ['\n']
  | 'r' => some ['\r']
  | 't' => some ['\t']
  | 'v' => some ['\x0b']
  | _ => none

/-- The value of a hexadecimal digit. -/
def hexDigit? (c : Char) : Option Nat :=
  if c.isDigit then some (c.toNat - 48)
  else if 'a' ≤ c ∧ c ≤ 'f' then some (c.toNat - 87)
  else if 'A' ≤ c ∧ c ≤ 'F' then some (c.toNat - 55)
  else none

/-- The number that hexadecimal digits write. -/
def hexValue? (ds : List Char) : Option Nat :=
  ds.foldl (fun acc d => do return 16 * (← acc) + (← hexDigit? d)) (some 0)

/-- How many hexadecimal digits follow a letter behind a backslash. -/
def hexWidth? (kind : QuoteKind) (c : Char) : Option Nat :=
  match c with
  | 'x' => some 2
  | 'u' => if kind = .bytes then none else some 4
  | 'U' => if kind = .bytes then none else some 8
  | _ => none

/-- The characters that a text with escapes stands for; `none` if an escape is cut short.  The first
argument bounds the number of characters left. -/
def unescape? (kind : QuoteKind) : Nat → List Char → Option (List Char)
  | 0, _ => some []
  | _, [] => some []
  | fuel + 1, '\\' :: c :: rest =>
    match simpleEscape? c with
    | some cs => (unescape? kind fuel rest).map (cs ++ ·)
    | none =>
      match hexWidth? kind c with
      | some n => do
        if (rest.take n).length < n then none
        else
          let value ← hexValue? (rest.take n)
          return Char.ofNat value :: (← unescape? kind fuel (rest.drop n))
      | none =>
        let octal := ((c :: rest).take 3).takeWhile fun d => '0' ≤ d && d ≤ '7'
        if octal.isEmpty then
          if c = 'N' ∧ kind ≠ .bytes then none
          else (unescape? kind fuel rest).map ('\\' :: c :: ·)
        else
          let value := octal.foldl (fun acc d => 8 * acc + (d.toNat - 48)) 0
          (unescape? kind fuel ((c :: rest).drop octal.length)).map (Char.ofNat value :: ·)
  | fuel + 1, c :: rest => (unescape? kind fuel rest).map (c :: ·)

/-! ## The text at the head of a source -/

/-- The letters that may stand in front of an opening quote, in lower case. -/
def markings : List (List Char) :=
  [[], ['b'], ['r'], ['u'], ['f'], ['b', 'r'], ['r', 'b'], ['f', 'r'], ['r', 'f']]

/-- The text with these letters in front and these characters between its quotes, if its escapes are
complete and its bytes are bytes. -/
def ofRaw? (letters raw : List Char) : Option Quotation := do
  let letters := letters.map Char.toLower
  let kind : QuoteKind := if letters.contains 'b' then .bytes
    else if letters.contains 'f' then .template else .plain
  if kind = .bytes ∧ raw.any (fun c => 128 ≤ c.toNat) then none
  else
    let content ← if letters.contains 'r' then some raw else unescape? kind raw.length raw
    return ⟨kind, content⟩

/-- What a quote at the head of a source leads to. -/
inductive Scan where
  /-- there is no quoted text here -/
  | absent
  /-- a quoted text, if it is well formed, and what follows it -/
  | found (quotation : Option Quotation) (rest : List Char)
  /-- a text in three quotes that is never closed -/
  | unclosed

/-- The text behind these letters. -/
def scanBehind (letters : List Char) : List Char → Scan
  | a :: b :: c :: rest =>
    if a ≠ '\'' ∧ a ≠ '"' then .absent
    else if a = b ∧ b = c then
      match closeTriple a rest with
      | some (raw, after) => .found (ofRaw? letters raw) after
      | none => .unclosed
    else single a (b :: c :: rest)
  | a :: rest => if a ≠ '\'' ∧ a ≠ '"' then .absent else single a rest
  | [] => .absent
where
  /-- A text on one line. -/
  single (q : Char) (rest : List Char) : Scan :=
    match closeSingle q rest with
    | some (raw, after) => .found (ofRaw? letters raw) after
    | none => .absent

/-- The quoted text at the head of a source, with the letters in front of it. -/
def scan (cs : List Char) : Scan :=
  let attempts := [0, 1, 2].map fun n =>
    if markings.contains ((cs.take n).map Char.toLower) then scanBehind (cs.take n) (cs.drop n)
    else .absent
  (attempts.find? fun | .absent => false | _ => true).getD .absent

/-! ## Texts as values -/

/-- Whether a text holds nothing. -/
def isEmpty (q : Quotation) : Bool := q.content.isEmpty

/-- Whether a text holds bytes. -/
def isBytes (q : Quotation) : Bool := q.kind == .bytes

/-- Two texts side by side as one; bytes and characters do not mix. -/
def append? (p q : Quotation) : Option Quotation :=
  if p.isBytes == q.isBytes then
    some ⟨if p.kind = .template then .template else q.kind, p.content ++ q.content⟩
  else none

/-- A text several times; not at all for a number below one. -/
def copies (q : Quotation) (n : Int) : Quotation :=
  { q with content := (List.replicate n.toNat q.content).flatten }

/-- Whether characters hold others side by side. -/
def holdsRun (run : List Char) : List Char → Bool
  | [] => run.isEmpty
  | c :: cs => run.isPrefixOf (c :: cs) || holdsRun run cs

/-- Whether a text holds another one. -/
def contains (q inner : Quotation) : Bool := holdsRun inner.content q.content

/-- The fields of a template; `none` if a brace has no partner.  Two braces side by side are a
character.  `field` holds the characters of an open field, the last one first. -/
def fields? : Option (List Char) → List Char → Option (List (List Char))
  | none, [] => some []
  | some _, [] => none
  | none, '{' :: '{' :: rest => fields? none rest
  | none, '}' :: '}' :: rest => fields? none rest
  | none, '{' :: rest => fields? (some []) rest
  | none, '}' :: _ => none
  | none, _ :: rest => fields? none rest
  | some field, '}' :: rest =>
    if field.all (· == ' ') then none else (fields? none rest).map (field.reverse :: ·)
  | some field, c :: rest => fields? (some (c :: field)) rest

/-- The words of a phrase, but for those behind a point. -/
def wordsOf : Nat → Option Char → List Char → List String
  | 0, _, _ => []
  | _, _, [] => []
  | fuel + 1, before, c :: rest =>
    if Text.startsIdentifier c then
      let word := c :: rest.takeWhile Text.isWordChar
      let others := wordsOf fuel (some c) (rest.dropWhile Text.isWordChar)
      if before = some '.' then others else String.ofList word :: others
    else wordsOf fuel (some c) rest

/-- The words in the fields of a template; what follows a colon or an exclamation mark in a field
says how it is written. -/
def fieldWords? (q : Quotation) : Option (List String) :=
  (fields? none q.content).map fun fs => fs.flatMap fun f =>
    wordsOf f.length none (f.takeWhile fun c => c ≠ ':' ∧ c ≠ '!')

end Quotation

end ErrorBars.Formula
