import ErrorBars.Formula.Meaning
import ErrorBars.Formula.Position
import ErrorBars.Text.Quoted

/-!
# Reading formulas

`parse` reads a text as an expression.  The given names are variables in it, whatever they would
mean otherwise.  `freeVariables` lists the variables of an expression in the order in which a text
mentions them.
-/

set_option autoImplicit false

namespace ErrorBars.Formula

/-- What a source means: the tokens are made explicit in the given way.  The first argument bounds
how deeply texts that are read stand in each other. -/
def valueOf (prepare : List String → List Token → Except ParseFault (List Token)) :
    Nat → String → List String → Calculated Value
  | 0, _, _ => .error .unreadable
  | depth + 1, source, names =>
    match Token.scan source with
    | none => .error .unreadable
    | some ts => do
      match Phrase.ofTokens? (← prepare names ts) with
      | none => .error .unreadable
      | some phrase => meaningOf ⟨names, fun s => valueOf explicitPowers depth s []⟩ phrase

/-- The expression that a text describes. -/
def parse (source : String) (names : List String) : Except ParseFault Expr :=
  if names.contains "" then .error .unreadable
  else do
    match ← valueOf explicit (source.length + 1) source names with
    | .scalar e => .ok e
    | _ => .error .notScalar

/-- Orders names by the place where they first stand in the text, and then by themselves. -/
def comesFirst (source : String) (a b : String) : Bool :=
  let i := namePosition a source
  let j := namePosition b source
  i < j || (i == j && (a < b || a == b))

/-- The variables of an expression in the order in which a text mentions them. -/
def freeVariables (e : Expr) (source : String) : List String :=
  e.freeSymbols.mergeSort (comesFirst source)

end ErrorBars.Formula
