/-!
# Reserved words

The words that the grammar of formulas keeps for itself.  No variable can be named by one of them.
-/

set_option autoImplicit false

namespace ErrorBars

/-- The names that a formula reserves. -/
def reservedWords : List String :=
  ["False", "None", "True", "and", "as", "assert", "async", "await", "break", "class", "continue",
   "def", "del", "elif", "else", "except", "finally", "for", "from", "global", "if", "import", "in",
   "is", "lambda", "nonlocal", "not", "or", "pass", "raise", "return", "try", "while", "with",
   "yield"]

end ErrorBars
