import ErrorBars.Expr.Canonical

/-!
# The text of expressions

Terms are written by descending degree and factors by kind and name.  A product is written as a
quotient when it has factors with negative exponents; a square root and a reciprocal have their own
notation.  Parentheses stand where the precedence of the parts needs them.
-/

set_option autoImplicit false

namespace ErrorBars.Expr

/-- The precedence of sums. -/
def addPrecedence : Nat := 40

/-- The precedence of products. -/
def mulPrecedence : Nat := 50

/-- The precedence of powers. -/
def powPrecedence : Nat := 60

/-- The precedence of everything that needs no parentheses. -/
def atomPrecedence : Nat := 1000

/-- The precedence of an expression.  What begins with a minus binds like a sum. -/
def precedence : Expr → Nat
  | .rat q => if q < 0 then addPrecedence else if q.den = 1 then atomPrecedence else mulPrecedence
  | .float x _ => if x.isNegative then addPrecedence else atomPrecedence
  | .const .negInfinity => addPrecedence
  | .app .add _ => addPrecedence
  | .app .mul fs => if (Expr.app .mul fs).leadsWithMinus then addPrecedence else mulPrecedence
  | .app .pow _ => powPrecedence
  | .app (.fn .modulo) _ => mulPrecedence
  | _ => atomPrecedence

/-- Puts parentheses around the text of an expression that does not bind more tightly. -/
def enclosed (text : Expr → String) (level : Nat) (e : Expr) : String :=
  if e.precedence ≤ level then "(" ++ text e ++ ")" else text e

/-- The terms of a sum, each with its sign. -/
def joinTerms (text : Expr → String) (ts : List Expr) : String :=
  let pieces := ts.map fun t =>
    let s := text t
    let minus := s.startsWith "-" && !t.isAdd
    let body := if minus then String.ofList (s.toList.drop 1) else s
    let body := if t.precedence < addPrecedence || t.isAdd then "(" ++ body ++ ")" else body
    (minus, body)
  match pieces with
  | [] => ""
  | (minus, body) :: rest =>
    (if minus then "-" else "") ++ body ++
      String.join (rest.map fun p => (if p.1 then " - " else " + ") ++ p.2)

/-- Whether an exponent has a minus in front. -/
def isNegativeExponent (e : Expr) : Bool := e.coeffMul.1.isNegativeNumber

/-- A power with the sign of its exponent changed; its base and exponent are as in the denominator
of a quotient. -/
def flipExponent (e : Expr) : Expr :=
  let (b, x) := e.baseExp
  let y := match x.factors with
    | c :: rest => if c == minusOne then productOf rest
        else if c.isNumber then productOf (negNumber c :: rest)
        else rawMul (minusOne :: c :: rest)
    | [] => one
  if y == one then b else rawPow b y

/-- The parts of a written quotient: factors above the line, and below it.  What stands below in
parentheses of its own is marked. -/
structure Quotient where
  /-- factors of the numerator -/
  above : List Expr
  /-- factors of the denominator -/
  below : List (Expr × Bool)

/-- Takes one factor into a quotient. -/
def Quotient.take (q : Quotient) (f : Expr) : Quotient :=
  match f with
  | .app .pow [b, x] =>
    if isNegativeExponent x then
      if x == minusOne then
        let marked := b.args.length ≠ 1 && (b.isMul || b.isPow)
        { q with below := q.below ++ [(b, marked)] }
      else { q with below := q.below ++ [(flipExponent f, false)] }
    else { q with above := q.above ++ [f] }
  | .rat r =>
    let above := if r.num = 1 then q.above else q.above ++ [int r.num]
    let below := if r.den = 1 then q.below else q.below ++ [(int r.den, false)]
    ⟨above, below⟩
  | f => { q with above := q.above ++ [f] }

/-- The text of a product that begins with no minus. -/
def quotientText (text : Expr → String) (level : Nat) (fs : List Expr) : String :=
  let q := fs.foldl Quotient.take ⟨[], []⟩
  let above := if q.above.isEmpty then [one] else q.above
  let top := "*".intercalate (above.map (enclosed text level))
  let below := q.below.map fun (b, marked) =>
    let s := enclosed text level b
    if marked then "(" ++ s ++ ")" else s
  match below with
  | [] => top
  | [b] => top ++ "/" ++ b
  | bs => top ++ "/(" ++ "*".intercalate bs ++ ")"

/-- The text of a power. -/
def powerText (text : Expr → String) (b e : Expr) : String :=
  if e == half then "sqrt(" ++ text b ++ ")"
  else if e == .rat (-1 / 2) then "1/sqrt(" ++ text b ++ ")"
  else if e == minusOne then "1/" ++ enclosed text powPrecedence b
  else enclosed text powPrecedence b ++ "**" ++ enclosed text powPrecedence e

/-- Pairs of a value and a condition. -/
def branchTexts (text : Expr → String) : List Expr → List String
  | v :: c :: rest => ("(" ++ text v ++ ", " ++ text c ++ ")") :: branchTexts text rest
  | _ => []

/-- The text of an expression to a depth; `nested` tells whether it stands inside another. -/
def textTo : Nat → Bool → Expr → String
  | 0, _, _ => ""
  | fuel + 1, nested, e =>
    let text := textTo fuel true
    match e with
    | .rat q => rationalText q
    | .float x bits => floatText nested x bits
    | .const c => c.name
    | .symbol s => s
    | .dummy s => "_" ++ s
    | .app .add ts => joinTerms text (orderedTerms (.app .add ts))
    | .app .mul fs =>
      let (c, rest) := (Expr.app .mul fs).coeffMul
      let level := precedence (.app .mul fs)
      if c.isNegativeNumber then
        "-" ++ quotientText text level (orderedFactors (keepCoeff (negNumber c) rest))
      else quotientText text level (orderedFactors (.app .mul fs))
    | .app .pow [b, x] => powerText text b x
    | .app .derivative [f, x] => "Derivative(" ++ text f ++ ", " ++ text x ++ ")"
    | .app .derivative (f :: x :: n) =>
      "Derivative(" ++ text f ++ ", (" ++ ", ".intercalate ((x :: n).map text) ++ "))"
    | .app .piecewise as => "Piecewise(" ++ ", ".intercalate (branchTexts text as) ++ ")"
    | .app .equal as => "Eq(" ++ ", ".intercalate (as.map text) ++ ")"
    | .app .always _ => "True"
    | .app (.fn .max) as => "Max(" ++ ", ".intercalate ((sortByKey sortKey as).map text) ++ ")"
    | .app (.fn .min) as => "Min(" ++ ", ".intercalate ((sortByKey sortKey as).map text) ++ ")"
    | .app h as => h.name ++ "(" ++ ", ".intercalate (as.map text) ++ ")"

/-- The largest number of digits of a whole number that is written down. -/
def digitLimit : Nat := 4300

/-- Whether a whole number has no more digits than are written down. -/
def isShort (n : Nat) : Bool := n < 10 ^ digitLimit

/-- Whether all numbers in an expression have few enough digits to be written down. -/
def isWritable (e : Expr) : Bool :=
  !e.any fun
    | .rat q => !(isShort q.num.natAbs && isShort q.den)
    | _ => false

/-- The text of an expression. -/
def text (e : Expr) : String := textTo (2 * e.size + 2) false e

end ErrorBars.Expr
