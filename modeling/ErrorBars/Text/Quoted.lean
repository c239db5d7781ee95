import ErrorBars.Text.Printable

/-!
# Quoted text

A quoted text shows a string on one line in ASCII escapes and printable characters.  Single quotes
surround it, unless the text holds a single quote and no double one.
-/

set_option autoImplicit false

namespace ErrorBars.Text

/-- `n` in lower-case hexadecimal with at least `width` digits. -/
def hexText (width n : Nat) : List Char :=
  let ds := Nat.toDigits 16 n
  List.replicate (width - ds.length) '0' ++ ds

/-- The mark that surrounds a quoted text. -/
def quoteMark (cs : List Char) : Char :=
  if cs.contains '\'' && !cs.contains '"' then '"' else '\''

/-- A character as it stands inside quotes `mark`. -/
def quotedChar (mark c : Char) : List Char :=
  if c = mark ∨ c = '\\' then ['\\', c]
  else if c = '\n' then ['\\', 'n']
  else if c = '\r' then ['\\', 'r']
  else if c = '\t' then ['\\', 't']
  else if isPrintable c then [c]
  else if c.toNat < 0x100 then '\\' :: 'x' :: hexText 2 c.toNat
  else if c.toNat < 0x10000 then '\\' :: 'u' :: hexText 4 c.toNat
  else '\\' :: 'U' :: hexText 8 c.toNat

/-- A text in quotes. -/
def quoted (s : String) : String :=
  let cs := s.toList
  let mark := quoteMark cs
  String.ofList (mark :: (cs.flatMap (quotedChar mark) ++ [mark]))

end ErrorBars.Text
