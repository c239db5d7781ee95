import ErrorBars.Text.NormalForm
import ErrorBars.Formula.Application

/-!
# What a phrase means

A phrase is calculated operand by operand, from left to right.  A word means the value that got this
name earlier in the formula, the variable of this name if it is a given one, or what the lexicon
says.

* `calculate` — what a phrase means where some names have got values.
* `meaningOf` — what a phrase means by itself.
-/

set_option autoImplicit false

namespace ErrorBars.Formula

/-- What a word means that is not one of the given names. -/
def knownValue (word : String) : Calculated Value :=
  match meaning word with
  | .constant e => .ok (.scalar e)
  | .callable => .ok (.callable word)
  | .opaqueName => .ok (.other true)
  | .reserved =>
    if word == "True" then .ok (.flag true)
    else if word == "False" then .ok (.flag false)
    else .ok (.other false)
  | .unknown => .error .unreadable

/-- What a word means.  A given name is looked up in its compatibility form, in which it may be no
given name any more.  A reserved word keeps its meaning even if it is given. -/
def wordValue (names : List String) (word : String) : Calculated Value :=
  if names.contains word && !reservedWords.contains word then
    let form := Text.compatibilityForm word
    if names.contains form then .ok (.scalar (.symbol form))
    else if reservedWords.contains form then .error .unreadable
    else knownValue form
  else knownValue word

/-- The values that have got a name in the formula, the latest first. -/
abbrev Assignments := List (String × Value)

/-- A calculation that may give names to values. -/
abbrev Calculation (α : Type) := StateT Assignments (Except ParseFault) α

/-- What a word means: a value that has got this name before goes first. -/
def currentValue (names : List String) (word : String) : Calculation Value := do
  match (← get).lookup (Text.compatibilityForm word) with
  | some v => return v
  | none => wordValue names word

/-- Gives a value a name. -/
def assign (name : String) (v : Value) : Calculation Value := do
  modify ((Text.compatibilityForm name, v) :: ·)
  return v

/-- What a phrase is calculated with. -/
structure Surroundings where
  /-- the given names -/
  names : List String
  /-- how texts are read that describe expressions -/
  read : TextReader

/-- What a quoted text means.  The words in the fields of a template have to mean something. -/
def textValue (names : List String) (q : Quotation) : Calculation Value :=
  if q.kind = .template then
    match q.fieldWords? with
    | some words => do
      for word in words do
        let _ ← currentValue names word
      return .text q
    | none => throw .unreadable
  else return .text q

mutual

/-- What a phrase means. -/
def calculate (around : Surroundings) : Phrase → Calculation Value
  | .value e => return .scalar e
  | .whole n => return .whole n
  | .text q => textValue around.names q
  | .name s => currentValue around.names s
  | .ellipsis => return .other true
  | .unary op a => do Value.unary op (← calculate around a)
  | .binary op a b => do
    let x ← calculate around a
    let y ← calculate around b
    Value.binary op x y
  | .both a b => do
    let x ← calculate around a
    if ← x.truth then calculate around b else return x
  | .either a b => do
    let x ← calculate around a
    if ← x.truth then return x else calculate around b
  | .choice condition a b => do
    let c ← calculate around condition
    if ← c.truth then calculate around a else calculate around b
  | .compare a rest => do calculateChain around (← calculate around a) rest
  | .call f args => do
    let f ← calculate around f
    let args ← calculateArguments around args
    Value.call around.read f args
  | .spread _ => throw .unreadable
  | .keyword .. => throw .unreadable
  | .index a i => do
    let x ← calculate around a
    let y ← calculate around i
    Value.index x y
  | .range first stop step => do
    let x ← calculate around first
    let y ← calculate around stop
    let z ← calculate around step
    return .range (← x.bound?) (← y.bound?) (← z.bound?)
  | .part a name => do Value.part (← calculate around a) name
  | .items isList xs => do return .items isList (← calculateAll around xs)
  | .collection xs => do
    let vs ← calculateAll around xs
    if vs.all Value.isKey then return .other !vs.isEmpty else throw .unreadable
  | .mapping xs => do
    let vs ← calculateAll around xs
    let entries := Value.entriesOf vs []
    if entries.all fun e => e.1.isKey then return .mapping entries else throw .unreadable
  | .assign name a => do assign name (← calculate around a)

/-- What several phrases mean; a star puts the members of a list in its place. -/
def calculateAll (around : Surroundings) : List Phrase → Calculation (List Value)
  | [] => return []
  | .spread a :: rest => do
    match ← calculate around a with
    | .items _ xs => return xs ++ (← calculateAll around rest)
    | _ => throw .unreadable
  | x :: rest => do
    let v ← calculate around x
    let vs ← calculateAll around rest
    return v :: vs

/-- What the arguments of an application mean.  An argument by position does not stand behind one by
name, and no name has two values. -/
def calculateArguments (around : Surroundings) : List Phrase → Calculation Arguments
  | [] => return ⟨[], []⟩
  | .spread a :: rest => do
    match ← calculate around a with
    | .items _ xs =>
      let args ← calculateArguments around rest
      return { args with values := xs ++ args.values }
    | _ => throw .unreadable
  | .keyword name a :: rest => do
    let v ← calculate around a
    let args ← calculateArguments around rest
    if rest.any Phrase.isPositional || (args.named.lookup name).isSome then throw .unreadable
    else return { args with named := (name, v) :: args.named }
  | x :: rest => do
    let v ← calculate around x
    let args ← calculateArguments around rest
    return { args with values := v :: args.values }

/-- What a chain of comparisons means: the last comparison if all before it are true, and the first
that is false otherwise. -/
def calculateChain (around : Surroundings) (a : Value) :
    List (Comparison × Phrase) → Calculation Value
  | [] => return a
  | (c, x) :: rest => do
    let b ← calculate around x
    let v ← Value.compare c a b
    match rest with
    | [] => return v
    | rest => if ← v.truth then calculateChain around b rest else return v

end

/-- What a phrase means by itself. -/
def meaningOf (around : Surroundings) (phrase : Phrase) : Calculated Value :=
  (calculate around phrase).run' []

end ErrorBars.Formula
