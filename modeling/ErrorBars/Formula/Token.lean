import ErrorBars.Formula.Numeral
import ErrorBars.Formula.Quotation
import ErrorBars.Text.Blank

/-!
# Tokens of a formula

A formula is read as a sequence of names, numerals, quoted texts and operators.  A longer operator
is taken before a shorter one, and a character that begins nothing becomes an operator of its own,
which no formula can use.

Line ends count only outside brackets.  Inside brackets, and around lines that are blank or hold
only a comment, they are gaps: they separate tokens and mean nothing else.  A backslash at the end
of a line joins it with the next.  A bracket that is still open at the end of the text makes it
unreadable, and so does one closed too often.

A quoted text with an escape that is cut short is a character that begins nothing.

A `value` never comes from a source: it is put in the place of other tokens.
-/

set_option autoImplicit false

namespace ErrorBars.Formula

/-- A token. -/
inductive Token where
  /-- a word -/
  | name (s : String)
  /-- a numeral as it is written -/
  | numeral (s : List Char)
  /-- an operator or a bracket -/
  | op (s : String)
  /-- a character that begins no token -/
  | stray (c : Char)
  /-- a quoted text -/
  | text (q : Quotation)
  /-- the end of a line outside brackets -/
  | newline
  /-- a comment, a blank line or the end of a line inside brackets -/
  | gap
  /-- blanks in front of a line after the first -/
  | indent
  /-- a number or a variable -/
  | value (e : Expr)

instance : Inhabited Token := ⟨.gap⟩

namespace Token

/-- The operators of three characters. -/
def longOperators : List String := ["**=", "//=", "<<=", ">>=", "..."]

/-- The operators of two characters. -/
def pairOperators : List String :=
  ["**", "//", "<<", ">>", "<=", ">=", "==", "!=", "->", ":=", "+=", "-=", "*=", "/=", "%=", "&=",
   "|=", "^=", "@="]

/-- The operators of one character. -/
def singleOperators : List Char :=
  ['+', '-', '*', '/', '%', '@', '^', '&', '|', '~', '<', '>', '=', '(', ')', '[', ']', '{', '}',
   ',', ':', '.', ';']

/-- The operator at the head of a text. -/
def operatorRun? (cs : List Char) : Option (String × List Char) :=
  let three := String.ofList (cs.take 3)
  let two := String.ofList (cs.take 2)
  if longOperators.contains three then some (three, cs.drop 3)
  else if pairOperators.contains two then some (two, cs.drop 2)
  else
    match cs with
    | c :: rest => if singleOperators.contains c then some (c.toString, rest) else none
    | [] => none

/-! ## Scanning -/

/-- What the tokens so far leave open. -/
structure ScanState where
  /-- brackets opened less brackets closed -/
  depth : Int
  /-- at the first column of a line that continues nothing -/
  lineStart : Bool

/-- The change of depth by an operator. -/
def depthChange (s : String) : Int :=
  if s == "(" || s == "[" || s == "\x7b" then 1
  else if s == ")" || s == "]" || s == "\x7d" then -1
  else 0

/-- A blank between tokens. -/
def isSpace (c : Char) : Bool := c == ' ' || c == '\t' || c == '\x0c'

/-- A comment without its line end. -/
def skipComment (cs : List Char) : List Char := cs.dropWhile fun c => c ≠ '\n' ∧ c ≠ '\r'

/-- The rest after a line end, if the text begins with one. -/
def lineEnd? : List Char → Option (List Char)
  | '\n' :: rest => some rest
  | '\r' :: '\n' :: rest => some rest
  | _ => none

/-- The tokens of a text; `none` if it ends inside a bracket or a quoted text. -/
def scanFrom : Nat → ScanState → List Char → Option (List Token)
  | 0, _, _ => none
  | fuel + 1, state, cs =>
    let blanks := cs.takeWhile isSpace
    let body := cs.dropWhile isSpace
    if state.lineStart then
      match body with
      | [] => some []
      | '#' :: _ =>
        let after := skipComment body
        (scanFrom fuel state ((lineEnd? after).getD after)).map (Token.gap :: ·)
      | _ =>
        match lineEnd? body with
        | some after => (scanFrom fuel state after).map (Token.gap :: ·)
        | none =>
          let tokens := scanFrom fuel { state with lineStart := false } body
          if blanks.isEmpty then tokens else tokens.map (Token.indent :: ·)
    else
      match lineEnd? body with
      | some after =>
        if 0 < state.depth then (scanFrom fuel state after).map (Token.gap :: ·)
        else
          (scanFrom fuel { state with lineStart := state.depth = 0 } after).map (Token.newline :: ·)
      | none =>
        match body with
        | [] => if state.depth = 0 then some [.newline] else none
        | c :: rest =>
          if c = '#' then (scanFrom fuel state (skipComment rest)).map (Token.gap :: ·)
          else
            match Quotation.scan body with
            | .unclosed => none
            | .found quotation after =>
              let token := (quotation.map Token.text).getD (.stray '\\')
              (scanFrom fuel state after).map (token :: ·)
            | .absent =>
              match numeralRun? body with
              | some (run, after) => (scanFrom fuel state after).map (Token.numeral run :: ·)
              | none =>
                match operatorRun? body with
                | some (s, after) =>
                  let state := { state with depth := state.depth + depthChange s }
                  (scanFrom fuel state after).map (Token.op s :: ·)
                | none =>
                  if Text.isWordChar c then
                    let word := String.ofList (body.takeWhile Text.isWordChar)
                    let token := if Text.startsIdentifier c then Token.name word else Token.op word
                    (scanFrom fuel state (body.dropWhile Text.isWordChar)).map (token :: ·)
                  else
                    match c, lineEnd? rest with
                    | '\\', some after => scanFrom fuel state after
                    | _, _ =>
                      if blanks.isEmpty then (scanFrom fuel state rest).map (Token.stray c :: ·)
                      else
                        (scanFrom fuel state body).map
                          (blanks.map Token.stray ++ ·)

/-- The tokens of a formula; `none` if it ends inside a bracket or a quoted text. -/
def scan (source : String) : Option (List Token) :=
  let cs := Text.strip source.toList
  scanFrom (2 * cs.length + 2) ⟨0, true⟩ cs

end Token

end ErrorBars.Formula
