/-!
# Where a name stands in a text

Variables are listed in the order in which the formula mentions them.  `namePosition` finds the
first place where a name stands by itself: no letter or underscore right before it, no letter, digit
or underscore right after it.  Only ASCII letters and digits count here; a digit may stand before
the name, as in `2x`.
-/

set_option autoImplicit false

namespace ErrorBars.Formula

/-- A character that a name may not directly follow. -/
def blocksBefore (c : Char) : Bool := c.isAlpha || c == '_'

/-- A character that may not directly follow a name. -/
def blocksAfter (c : Char) : Bool := c.isAlphanum || c == '_'

/-- Whether the name stands by itself at the head of `rest`, `before` being what precedes it. -/
def standsAlone (name : List Char) (before : Option Char) (rest : List Char) : Bool :=
  name.isPrefixOf rest && !before.any blocksBefore && !(rest.drop name.length).head?.any blocksAfter

/-- The first offset from `i` on at which the name stands by itself, `before` preceding `rest`;
the end of the text if there is none. -/
def positionFrom (name : List Char) (before : Option Char) (i : Nat) : List Char → Nat
  | [] => i
  | c :: rest =>
    if standsAlone name before (c :: rest) then i else positionFrom name (some c) (i + 1) rest

/-- The first offset, in characters, at which a name stands by itself in a text, or the length of
the text if it does so nowhere. -/
def namePosition (name source : String) : Nat :=
  positionFrom name.toList none 0 source.toList

end ErrorBars.Formula
