import ErrorBars.Formula.Juxtaposition

/-!
# The grammar of formulas

Tokens are read as a `Phrase`.  From loose to tight the operators are the choice between two phrases
by a condition, `or`, `and`, `not`, the comparisons, `|`, `&`, the shifts, sum and difference, the
products, the signs, and the power.  The power groups to the right, binds tighter than a sign on its
left and takes a sign on its right; all other operators of two operands group to the left.

`readFrom` reads a phrase whose outermost operators bind at least as tightly as a given level.
-/

set_option autoImplicit false

namespace ErrorBars.Formula

/-- An operator between two operands. -/
inductive BinaryOp where
  | add | sub | mul | div | floorDiv | modulo | matrix | power | bitAnd | bitOr | shiftLeft
  | shiftRight
  deriving DecidableEq

/-- An operator in front of an operand. -/
inductive UnaryOp where
  | plus | minus | invert | not
  deriving DecidableEq

/-- A comparison. -/
inductive Comparison where
  | equal | unequal | less | lessEqual | greater | greaterEqual
  | member | notMember | same | notSame
  deriving DecidableEq

/-- A formula as it is read. -/
inductive Phrase where
  /-- a number or a variable -/
  | value (e : Expr)
  /-- a plain whole number, which is no expression of its own -/
  | whole (n : Nat)
  /-- a quoted text -/
  | text (q : Quotation)
  /-- a word -/
  | name (s : String)
  /-- three points -/
  | ellipsis
  /-- a sign or a negation -/
  | unary (op : UnaryOp) (a : Phrase)
  /-- an operation -/
  | binary (op : BinaryOp) (a b : Phrase)
  /-- the second operand where the first is true -/
  | both (a b : Phrase)
  /-- the second operand where the first is false -/
  | either (a b : Phrase)
  /-- one of two phrases, the first where the condition is true -/
  | choice (condition a b : Phrase)
  /-- a chain of comparisons -/
  | compare (a : Phrase) (rest : List (Comparison × Phrase))
  /-- an application -/
  | call (f : Phrase) (args : List Phrase)
  /-- an argument that stands for several -/
  | spread (a : Phrase)
  /-- an argument by name -/
  | keyword (name : String) (a : Phrase)
  /-- a part by position -/
  | index (a i : Phrase)
  /-- a range of positions: the first one, the end and the step -/
  | range (first stop step : Phrase)
  /-- a part by name -/
  | part (a : Phrase) (name : String)
  /-- a list, or a group in parentheses -/
  | items (isList : Bool) (xs : List Phrase)
  /-- a set -/
  | collection (xs : List Phrase)
  /-- a mapping, each key with its value behind it -/
  | mapping (xs : List Phrase)
  /-- a value that gets a name -/
  | assign (name : String) (a : Phrase)

instance : Inhabited Phrase := ⟨.ellipsis⟩

/-- The level of comparisons. -/
def comparisonLevel : Nat := 4

/-- The level of signs. -/
def signLevel : Nat := 10

/-- The operators between two operands, but for the power, with their levels. -/
def binaryLevel? (s : String) : Option (BinaryOp × Nat) :=
  match s with
  | "|" => some (.bitOr, 5)
  | "&" => some (.bitAnd, 6)
  | "<<" => some (.shiftLeft, 7)
  | ">>" => some (.shiftRight, 7)
  | "+" => some (.add, 8)
  | "-" => some (.sub, 8)
  | "*" => some (.mul, 9)
  | "/" => some (.div, 9)
  | "//" => some (.floorDiv, 9)
  | "%" => some (.modulo, 9)
  | "@" => some (.matrix, 9)
  | _ => none

/-- The comparison at the head of the tokens. -/
def comparison? : List Token → Option (Comparison × List Token)
  | .op s :: rest =>
    match s with
    | "==" => some (.equal, rest)
    | "!=" => some (.unequal, rest)
    | "<" => some (.less, rest)
    | "<=" => some (.lessEqual, rest)
    | ">" => some (.greater, rest)
    | ">=" => some (.greaterEqual, rest)
    | _ => none
  | .name "in" :: rest => some (.member, rest)
  | .name "not" :: .name "in" :: rest => some (.notMember, rest)
  | .name "is" :: .name "not" :: rest => some (.notSame, rest)
  | .name "is" :: rest => some (.same, rest)
  | _ => none

/-- The sign that an operator is in front of an operand. -/
def sign? (s : String) : Option UnaryOp :=
  match s with
  | "+" => some .plus
  | "-" => some .minus
  | "~" => some .invert
  | _ => none

/-- A word that can stand for something. -/
def isOperandWord (s : String) : Bool :=
  s == "None" || s == "True" || s == "False" || !reservedWords.contains s

mutual

/-- A phrase of operators of at least this level. -/
def readFrom : Nat → Nat → List Token → Option (Phrase × List Token)
  | 0, _, _ => none
  | fuel + 1, level, ts => do
    let (a, ts) ← readOperand fuel level ts
    readOperators fuel level a ts

/-- The operators of at least this level behind an operand. -/
def readOperators : Nat → Nat → Phrase → List Token → Option (Phrase × List Token)
  | 0, _, _, _ => none
  | fuel + 1, level, a, ts =>
    match ts with
    | .name "if" :: rest =>
      if level = 0 then do
        let (c, rest) ← readFrom fuel 1 rest
        match rest with
        | .name "else" :: rest =>
          let (b, rest) ← readFrom fuel 0 rest
          return (.choice c a b, rest)
        | _ => none
      else some (a, ts)
    | .name "or" :: rest =>
      if level ≤ 1 then do
        let (b, rest) ← readFrom fuel 2 rest
        readOperators fuel level (.either a b) rest
      else some (a, ts)
    | .name "and" :: rest =>
      if level ≤ 2 then do
        let (b, rest) ← readFrom fuel 3 rest
        readOperators fuel level (.both a b) rest
      else some (a, ts)
    | ts =>
      match comparison? ts with
      | some _ =>
        if level ≤ comparisonLevel then do
          let (chain, rest) ← readComparisons fuel ts
          readOperators fuel level (.compare a chain) rest
        else some (a, ts)
      | none =>
        match ts with
        | .op s :: rest =>
          match binaryLevel? s with
          | some (op, tight) =>
            if level ≤ tight then do
              let (b, rest) ← readFrom fuel (tight + 1) rest
              readOperators fuel level (.binary op a b) rest
            else some (a, ts)
          | none => some (a, ts)
        | ts => some (a, ts)

/-- Comparisons with their right operands. -/
def readComparisons : Nat → List Token → Option (List (Comparison × Phrase) × List Token)
  | 0, _ => none
  | fuel + 1, ts =>
    match comparison? ts with
    | none => some ([], ts)
    | some (c, rest) => do
      let (b, rest) ← readFrom fuel (comparisonLevel + 1) rest
      let (chain, rest) ← readComparisons fuel rest
      return ((c, b) :: chain, rest)

/-- An operand with the signs in front of it and the power behind it. -/
def readOperand : Nat → Nat → List Token → Option (Phrase × List Token)
  | 0, _, _ => none
  | fuel + 1, level, ts =>
    match ts with
    | .name "not" :: rest =>
      if level ≤ 3 then do
        let (a, rest) ← readFrom fuel 3 rest
        return (.unary .not a, rest)
      else none
    | .op s :: rest =>
      match sign? s with
      | some op => do
        let (a, rest) ← readOperand fuel signLevel rest
        return (.unary op a, rest)
      | none => readPower fuel ts
    | ts => readPower fuel ts

/-- A power, or what can be the base of one. -/
def readPower : Nat → List Token → Option (Phrase × List Token)
  | 0, _ => none
  | fuel + 1, ts => do
    let (a, ts) ← readAtom fuel ts
    let (a, ts) ← readTrailers fuel a ts
    match ts with
    | .op "**" :: rest => do
      let (b, rest) ← readOperand fuel signLevel rest
      return (.binary .power a b, rest)
    | ts => return (a, ts)

/-- What can stand alone. -/
def readAtom : Nat → List Token → Option (Phrase × List Token)
  | 0, _ => none
  | fuel + 1, ts =>
    match ts with
    | .value e :: rest => some (.value e, rest)
    | .numeral s :: rest => (readWhole? s).map fun n => (.whole n, rest)
    | .text q :: rest => readTexts q rest
    | .name s :: rest => if isOperandWord s then some (.name s, rest) else none
    | .op "..." :: rest => some (.ellipsis, rest)
    | .op "(" :: .op ")" :: rest => some (.items false [], rest)
    | .op "(" :: rest => do
      let ((xs, comma), rest) ← readItems fuel rest
      match rest with
      | .op ")" :: rest =>
        match xs, comma with
        | [.spread _], false => none
        | [x], false => return (x, rest)
        | xs, _ => return (.items false xs, rest)
      | _ => none
    | .op "[" :: .op "]" :: rest => some (.items true [], rest)
    | .op "[" :: rest => do
      let ((xs, _), rest) ← readItems fuel rest
      match rest with
      | .op "]" :: rest => return (.items true xs, rest)
      | _ => none
    | .op "\x7b" :: .op "\x7d" :: rest => some (.mapping [], rest)
    | .op "\x7b" :: rest => do
      let (entries, rest) ← readEntries fuel rest
      match entries.mapM fun e => e.2.map fun y => [e.1, y] with
      | some xs => return (.mapping xs.flatten, rest)
      | none =>
        if entries.any fun e => e.2.isSome then none
        else return (.collection (entries.map (·.1)), rest)
    | _ => none
where
  /-- Quoted texts side by side are one text. -/
  readTexts (q : Quotation) : List Token → Option (Phrase × List Token)
    | .text r :: rest => (q.append? r).bind fun q => readTexts q rest
    | rest => some (.text q, rest)

/-- Phrases between commas, and whether there was a comma. -/
def readItems : Nat → List Token → Option ((List Phrase × Bool) × List Token)
  | 0, _ => none
  | fuel + 1, ts => do
    let (x, ts) ← readItem fuel ts
    match ts with
    | .op "," :: rest =>
      match rest with
      | [] => return (([x], true), rest)
      | .op ")" :: _ => return (([x], true), rest)
      | .op "]" :: _ => return (([x], true), rest)
      | rest => do
        let ((xs, _), rest) ← readItems fuel rest
        return ((x :: xs, true), rest)
    | ts => return (([x], false), ts)

/-- A phrase, which may get a name, or several behind a star. -/
def readItem : Nat → List Token → Option (Phrase × List Token)
  | 0, _ => none
  | fuel + 1, ts =>
    match ts with
    | .op "*" :: rest => do
      let (x, rest) ← readFrom fuel 5 rest
      return (.spread x, rest)
    | .name s :: .op ":=" :: rest =>
      if reservedWords.contains s then none
      else do
        let (x, rest) ← readFrom fuel 0 rest
        return (.assign s x, rest)
    | ts => readFrom fuel 0 ts

/-- The members of a set, or the keys of a mapping with their values, up to the closing brace. -/
def readEntries : Nat → List Token → Option (List (Phrase × Option Phrase) × List Token)
  | 0, _ => none
  | fuel + 1, ts => do
    let (x, ts) ← readItem fuel ts
    let (entry, ts) ← match x, ts with
      | .spread _, .op ":" :: _ => none
      | .assign .., .op ":" :: _ => none
      | x, .op ":" :: rest => do
        let (y, rest) ← readFrom fuel 0 rest
        some ((x, some y), rest)
      | x, ts => some ((x, none), ts)
    match ts with
    | .op "\x7d" :: rest => return ([entry], rest)
    | .op "," :: .op "\x7d" :: rest => return ([entry], rest)
    | .op "," :: rest => do
      let (entries, rest) ← readEntries fuel rest
      return (entry :: entries, rest)
    | _ => none

/-- Applications, positions and parts behind an operand. -/
def readTrailers : Nat → Phrase → List Token → Option (Phrase × List Token)
  | 0, _, _ => none
  | fuel + 1, a, ts =>
    match ts with
    | .op "(" :: .op ")" :: rest => readTrailers fuel (.call a []) rest
    | .op "(" :: rest => do
      let (args, rest) ← readArguments fuel rest
      readTrailers fuel (.call a args) rest
    | .op "[" :: rest => do
      let (i, rest) ← readPosition fuel rest
      readTrailers fuel (.index a i) rest
    | .op "." :: .name s :: rest => readTrailers fuel (.part a s) rest
    | ts => some (a, ts)

/-- A position, up to the closing bracket: a phrase, several between commas, or a range. -/
def readPosition : Nat → List Token → Option (Phrase × List Token)
  | 0, _ => none
  | fuel + 1, ts => do
    let (first, ts) ← readBound fuel ts
    match first, ts with
    | first, .op ":" :: rest => do
      let (stop, rest) ← readBound fuel rest
      let (step, rest) ← match rest with
        | .op ":" :: rest => readBound fuel rest
        | rest => some (none, rest)
      match rest with
      | .op "]" :: rest =>
        let bound := fun (x : Option Phrase) => x.getD (.name "None")
        return (.range (bound first) (bound stop) (bound step), rest)
      | _ => none
    | some x, .op "]" :: rest => return (x, rest)
    | some x, .op "," :: .op "]" :: rest => return (.items false [x], rest)
    | some x, .op "," :: rest => do
      let ((xs, _), rest) ← readItems fuel rest
      match rest with
      | .op "]" :: rest => return (.items false (x :: xs), rest)
      | _ => none
    | _, _ => none

/-- One bound of a range, which may be absent. -/
def readBound : Nat → List Token → Option (Option Phrase × List Token)
  | 0, _ => none
  | fuel + 1, ts =>
    match ts with
    | .op ":" :: _ => some (none, ts)
    | .op "]" :: _ => some (none, ts)
    | ts => (readItem fuel ts).map fun r => (some r.1, r.2)

/-- The arguments of an application, up to the closing parenthesis. -/
def readArguments : Nat → List Token → Option (List Phrase × List Token)
  | 0, _ => none
  | fuel + 1, ts => do
    let (x, ts) ← match ts with
      | .name s :: .op "=" :: rest =>
        if reservedWords.contains s then none
        else do
          let (y, rest) ← readFrom fuel 0 rest
          some (.keyword s y, rest)
      | ts => readItem fuel ts
    match ts with
    | .op ")" :: rest => return ([x], rest)
    | .op "," :: .op ")" :: rest => return ([x], rest)
    | .op "," :: rest => do
      let (xs, rest) ← readArguments fuel rest
      return (x :: xs, rest)
    | _ => none

end

/-! ## From tokens to a phrase -/

/-- Splits a run of operator characters into operators, the longest first. -/
def splitOperators : Nat → List Char → Option (List Token)
  | 0, _ => none
  | _, [] => some []
  | fuel + 1, ' ' :: rest => splitOperators fuel rest
  | fuel + 1, cs => do
    let (s, rest) ← Token.operatorRun? cs
    return .op s :: (← splitOperators fuel rest)

/-- Operators side by side are read anew as one run, so that `*` and `*` make a power.  Gaps
disappear; a token that the grammar does not know makes the formula unreadable. -/
def regroup (run : List Char) : List Token → Option (List Token)
  | [] => splitOperators (run.length + 1) run
  | .op s :: rest => regroup (run ++ s.toList) rest
  | .stray c :: rest => regroup (run ++ [c]) rest
  | .indent :: _ => none
  | t :: rest => do
    let ops ← splitOperators (run.length + 1) run
    let rest ← regroup [] rest
    match t with
    | .gap => return ops ++ rest
    | .name s => if Text.isIdentifier s.toList then return ops ++ t :: rest else none
    | t => return ops ++ t :: rest

/-- The deepest nesting of brackets; a number or a variable counts as one level. -/
def nesting : Nat → List Token → Nat
  | _, [] => 0
  | depth, .op s :: rest =>
    if s == "(" || s == "[" || s == "\x7b" then max (depth + 1) (nesting (depth + 1) rest)
    else if s == ")" || s == "]" || s == "\x7d" then nesting (depth - 1) rest
    else nesting depth rest
  | depth, .value _ :: rest => max (depth + 1) (nesting depth rest)
  | depth, _ :: rest => nesting depth rest

/-- The deepest nesting that can be read. -/
def nestingLimit : Nat := 200

/-- The tokens without line ends behind the last of them. -/
def dropLastLines (ts : List Token) : List Token :=
  (ts.reverse.dropWhile fun | .newline => true | _ => false).reverse

/-- Carriage returns as the line ends that they are: inside brackets a gap. -/
def returnsToLines : Nat → List Token → List Token
  | _, [] => []
  | depth, t :: rest =>
    match t with
    | .stray c =>
      let t := if c = '\r' then (if depth = 0 then .newline else .gap) else .stray c
      t :: returnsToLines depth rest
    | .op s =>
      let depth := if s == "(" || s == "[" || s == "\x7b" then depth + 1
        else if s == ")" || s == "]" || s == "\x7d" then depth - 1 else depth
      .op s :: returnsToLines depth rest
    | t => t :: returnsToLines depth rest

/-- Whether an argument is one by its position. -/
def Phrase.isPositional : Phrase → Bool
  | .spread _ => false
  | .keyword .. => false
  | _ => true

/-- Whether a phrase can stand without brackets around it. -/
def Phrase.isBare : Phrase → Bool
  | .spread _ => false
  | .assign .. => false
  | _ => true

/-- Reads tokens as a phrase: one phrase, or several between commas. -/
def Phrase.ofTokens? (ts : List Token) : Option Phrase := do
  let ts := dropLastLines (← regroup [] (returnsToLines 0 ts))
  if nestingLimit < nesting 0 ts then none
  else
    let fuel := 8 * ts.length + 16
    let ((xs, comma), rest) ← readItems fuel ts
    if !xs.all Phrase.isBare then none
    else
      match rest, xs, comma with
      | [], [x], false => some x
      | [], xs, _ => some (.items false xs)
      | _, _, _ => none

end ErrorBars.Formula
