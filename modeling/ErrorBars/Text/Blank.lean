import ErrorBars.Text.CodePoints

/-!
# Blank characters

Blanks are the characters of bidirectional class white space, segment or paragraph separator, and
those of category space separator; `strip` removes them from both ends of a text.
-/

set_option autoImplicit false

namespace ErrorBars.Text

/-- The blank characters. -/
def blankRanges : Array (Nat × Nat) := #[
  (0x9, 0xd), (0x1c, 0x20), (0x85, 0x85), (0xa0, 0xa0), (0x1680, 0x1680), (0x2000, 0x200a),
  (0x2028, 0x2029), (0x202f, 0x202f), (0x205f, 0x205f), (0x3000, 0x3000)]

/-- Whether a character is blank. -/
def isBlank (c : Char) : Bool := inRanges blankRanges c

/-- The characters without the blanks in front of them and behind them. -/
def strip (cs : List Char) : List Char :=
  ((cs.dropWhile isBlank).reverse.dropWhile isBlank).reverse

end ErrorBars.Text
