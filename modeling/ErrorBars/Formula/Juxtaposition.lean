import ErrorBars.Formula.Lexicon
import ErrorBars.Formula.Token

/-!
# Tokens made explicit

Before the grammar sees a formula its tokens are changed, in this order:

* a word that means nothing becomes a variable (`readWords`);
* a decimal with digits in brackets behind it, as in `0.2[1]`, becomes the sum of its two parts
  (`readRepeating`), and any other numeral its number (`readNumerals`);
* exclamation marks become factorials (`readFactorials`);
* `^` becomes the power operator (`readPowers`);
* a multiplication sign is put between two factors that stand side by side (`joinFactors`).

The names given by the caller are variables everywhere.  Numbers, variables and factorials are read
through the words `Integer`, `Float`, `Symbol`, `Function` and `factorial`; if the caller gives one
of these as a variable, that reading is lost, and what was to be read becomes a factor in
parentheses.
-/

set_option autoImplicit false

namespace ErrorBars.Formula

/-- Why a text is no formula. -/
inductive ParseFault where
  /-- the text follows no rule of the grammar, or calculates with what is not a number -/
  | unreadable
  /-- the value of the text is not a number -/
  | notScalar
  /-- a parenthesis is closed that was not opened, or a position lies beyond the end of a list -/
  | outOfRange
  /-- a mapping has no such key -/
  | missingKey
  /-- a remainder or a whole quotient by zero -/
  | divisionByZero
  deriving DecidableEq

/-! ## Words -/

/-- Something in parentheses behind a word, which reads it. -/
def readThrough (word : String) (content : Token) : List Token :=
  [.name word, .op "(", content, .op ")"]

/-- Whether a token is this operator. -/
def Token.isOp (s : String) : Token → Bool
  | .op t => s == t
  | _ => false

/-- The token for a word that means nothing. -/
def variableTokens (names : List String) (word : String) (next : Token) : List Token :=
  if names.contains "Symbol" then readThrough "Symbol" (.text ⟨.plain, word.toList⟩)
  else if next.isOp "(" && names.contains "Function" then
    readThrough "Function" (.text ⟨.plain, word.toList⟩)
  else [.value (.symbol word)]

/-- Whether a word stays a word: names of parts, names of arguments, and words with a meaning. -/
def keepsWord (names : List String) (before : Token) (word : String) (next : Token) : Bool :=
  before.isOp "." || ((before.isOp "(" || before.isOp ",") && next.isOp "=") ||
    names.contains word ||
    match meaning word with
    | .unknown => false
    | _ => true

/-- Turns words that mean nothing into variables. -/
def readWords (names : List String) : Token → List Token → List Token
  | _, [] => []
  | before, t :: rest =>
    match t with
    | .name word =>
      let next := rest.headD .newline
      (if keepsWord names before word next then [t] else variableTokens names word next) ++
        readWords names t rest
    | t => t :: readWords names t rest

/-! ## Numerals -/

/-- A whole number. -/
def wholeTokens (names : List String) (digits : List Char) : List Token :=
  match readWhole? digits with
  | none => [.stray '0']
  | some n =>
    if names.contains "Integer" then readThrough "Integer" (.numeral digits)
    else [.value (Expr.int n)]

/-- A number with a point or an exponent. -/
def approximateTokens (names : List String) (digits : List Char) : List Token :=
  if names.contains "Float" then readThrough "Float" (.text ⟨.plain, digits⟩)
  else [.value (readApproximate digits)]

/-- A numeral as a number; an imaginary one is multiplied by the imaginary unit. -/
def numeralTokens (names : List String) (s : List Char) : List Token :=
  let imaginary := s.getLast? == some 'j' || s.getLast? == some 'J'
  let s := if imaginary then s.dropLast else s
  (if isApproximate s then approximateTokens names s else wholeTokens names s) ++
    (if imaginary then [.op "*", .name "I"] else [])

/-- Turns numerals into numbers. -/
def readNumerals (names : List String) (ts : List Token) : List Token :=
  ts.flatMap fun
    | .numeral s => numeralTokens names s
    | t => [t]

/-- What has been seen of a decimal with repeating digits. -/
inductive Repeating where
  /-- nothing -/
  | start
  /-- the decimal, or the point that stands for it -/
  | decimal (s : List Char)
  /-- the opening bracket -/
  | opened (s : List Char)
  /-- the repeating digits -/
  | digits (s r : List Char)
  /-- repeating digits in two pieces -/
  | moreDigits (s r t : List Char)

/-- Whether a numeral holds digits and underscores only. -/
def isDigits (s : List Char) : Bool := s.all fun c => c.isDigit || c == '_'

/-- Whether a numeral has a point and neither an exponent nor an imaginary unit. -/
def isPlainDecimal (s : List Char) : Bool :=
  s.contains '.' && !s.any fun c => c == 'e' || c == 'E' || c == 'j' || c == 'J'

/-- One more token behind those of a decimal with repeating digits. -/
def Repeating.next (state : Repeating) (t : Token) : Repeating :=
  match state, t with
  | .start, .numeral s => if isPlainDecimal s then .decimal s else .start
  | .opened s, .numeral r => if isDigits r then .digits s r else .start
  | .digits s r, .numeral q => if isDigits q then .moreDigits s r q else .start
  | .decimal s, .op "[" => .opened s
  | .start, .op "." => .decimal ['0', '.']
  | _, _ => .start

/-- A decimal with repeating digits as a sum of its parts: `a.b[r]` is `a + b / 10 ^ k + r / d`,
where `k` is the number of digits of `b`, and `d` has a nine for each digit of `r` and then `k`
zeros. -/
def repeatingTokens (names : List String) (s r : List Char) : List Token :=
  let s := s.filter (· ≠ '_')
  let r := r.filter (· ≠ '_')
  let whole := s.takeWhile (· ≠ '.')
  let fraction := (s.dropWhile (· ≠ '.')).drop 1
  let zeros := List.replicate fraction.length '0'
  let whole := if whole.isEmpty then ['0'] else whole
  let plain := fraction.dropWhile (· == '0')
  let plain := if plain.isEmpty then ['0'] else plain
  let quotient := fun (a b : List Char) =>
    [.name "Rational", .op "("] ++ wholeTokens names a ++ [.op ","] ++ wholeTokens names b ++
      [Token.op ")"]
  [.op "("] ++ readThrough "Integer" (.numeral whole) ++ [.op "+"] ++
    quotient plain ('1' :: zeros) ++ [.op "+"] ++
    quotient (r.dropWhile (· == '0')) (List.replicate r.length '9' ++ zeros) ++ [.op ")"]

/-- Turns decimals with repeating digits into sums.  `seen` are the tokens of the decimal so far,
the last one first. -/
def readRepeating (names : List String) : Repeating → List Token → List Token → List Token
  | _, seen, [] => seen.reverse
  | state, seen, t :: rest =>
    let closed := match state with
      | .digits s r => if t.isOp "]" then some (repeatingTokens names s r) else none
      | .moreDigits s r q => if t.isOp "]" then some (repeatingTokens names s (r ++ q)) else none
      | _ => none
    match closed with
    | some tokens => tokens ++ readRepeating names .start [] rest
    | none =>
      match state.next t with
      | .start => seen.reverse ++ t :: readRepeating names .start [] rest
      | state => readRepeating names state (t :: seen) rest

/-! ## Factorials and powers -/

/-- Splits the tokens so far, the last one first, at the start of the operand that ends there: one
token, or a pair of parentheses with what they hold.  `none` if it does not start at all. -/
def splitOperand : Int → List Token → Option (List Token × List Token)
  | _, [] => none
  | depth, t :: before =>
    let depth := if t.isOp ")" then depth + 1 else if t.isOp "(" then depth - 1 else depth
    if depth = 0 then some ([t], before)
    else (splitOperand depth before).map fun s => (t :: s.1, s.2)

/-- Applies a factorial to the operand at the end of the tokens so far, the last one first.  A word
in front of the operand belongs to it. -/
def applyFactorial (word : String) (before : List Token) : Option (List Token) :=
  let wrap := fun (operand rest : List Token) =>
    .op ")" :: operand ++ .op "(" :: .name word :: rest
  match before with
  | [] => none
  | .op "(" :: _ => none
  | .value e :: rest => some (wrap [.value e] rest)
  | before =>
    match splitOperand 0 before with
    | none => some before
    | some (operand, .name s :: rest) => some (wrap (operand ++ [.name s]) rest)
    | some (operand, rest) => some (wrap operand rest)

/-- Turns exclamation marks into factorials: one mark into a factorial, two into a double factorial.
`marks` are the marks right before, `before` the tokens so far, the last one first.  Any other
character that begins no token cancels the marks before it. -/
def readFactorials (marks : Nat) (before : List Token) : List Token → Option (List Token)
  | [] => some before.reverse
  | .stray c :: rest =>
    if c = '!' then readFactorials (marks + 1) before rest
    else readFactorials 0 (.stray c :: before) rest
  | t :: rest =>
    let applied := match marks with
      | 0 => some before
      | 1 => applyFactorial "factorial" before
      | 2 => applyFactorial "factorial2" before
      | _ => none
    applied.bind fun before => readFactorials 0 (t :: before) rest

/-- Turns `^` into the power operator. -/
def readPowers (ts : List Token) : List Token :=
  ts.map fun
    | .op "^" => .op "**"
    | t => t

/-! ## Factors side by side -/

/-- Whether a word is applied to the parentheses behind it. -/
def isCallable (names : List String) (word : String) : Bool :=
  !names.contains word &&
    match meaning word with
    | .callable => true
    | _ => false

/-- Whether a token can be the end of a factor. -/
def endsFactor (names : List String) (before t : Token) : Bool :=
  match t with
  | .value _ => true
  | .op s => s == ")"
  | .name word => !isCallable names word && !before.isOp "."
  | _ => false

/-- Whether a token can be the start of a factor. -/
def startsFactor : Token → Bool
  | .value _ => true
  | .op s => s == "("
  | .name _ => true
  | _ => false

/-- Puts a multiplication sign between factors that stand side by side. -/
def joinFactors (names : List String) : Token → List Token → List Token
  | _, [] => []
  | before, t :: rest =>
    let rest' := joinFactors names t rest
    match rest with
    | next :: _ =>
      if endsFactor names before t && startsFactor next then t :: .op "*" :: rest' else t :: rest'
    | [] => [t]

/-- How many parentheses are open after the tokens; a parenthesis closed too often is a fault. -/
def openParentheses : Nat → List Token → Except ParseFault Nat
  | depth, [] => .ok depth
  | depth, .op s :: rest =>
    if s == "(" then openParentheses (depth + 1) rest
    else if s == ")" then
      match depth with
      | 0 => .error .outOfRange
      | depth + 1 => openParentheses depth rest
    else openParentheses depth rest
  | depth, _ :: rest => openParentheses depth rest

/-- All changes of tokens but the last one. -/
def explicitPowers (names : List String) (ts : List Token) : Except ParseFault (List Token) :=
  let ts := readNumerals names (readRepeating names .start [] (readWords names .newline ts))
  match ts, readFactorials 0 [] ts with
  | .name "lambda" :: _, _ => .error .unreadable
  | _, none => .error .unreadable
  | _, some ts => .ok (readPowers ts)

/-- All changes of tokens. -/
def explicit (names : List String) (ts : List Token) : Except ParseFault (List Token) := do
  let ts ← explicitPowers names ts
  if (← openParentheses 0 ts) ≠ 0 then .error .unreadable
  else .ok (joinFactors names .newline ts)

end ErrorBars.Formula
