import ErrorBars.Datum
import ErrorBars.Formula.Reserved

/-!
# Measurements

A measurement is a value with an absolute uncertainty.  `check` decides whether a datum describes
one, `validate` reports what it has decided, and `readVariables` decides whether a whole map of named
data describes measurements.

Three forms are read alike: a mapping with the keys `value` and `error`, an object with these two
attributes, and a number with a standard deviation.  What is refused, and in which order the reasons
are looked for, is the content of `Flaw`.
-/

set_option autoImplicit false

namespace ErrorBars

/-- A value with its absolute (one sigma) uncertainty. -/
structure Measurement where
  /-- the measured value -/
  value : Double
  /-- its uncertainty -/
  error : Double
  deriving DecidableEq

/-- Why a datum is no measurement. -/
inductive Flaw where
  /-- nothing is given -/
  | missing
  /-- a bare number, truth value or text, of the named type -/
  | bare (kind : String)
  /-- the value or the error is absent -/
  | incomplete
  /-- the value is not a finite number -/
  | value (given : Datum)
  /-- the error is not a finite number -/
  | error (given : Datum)
  /-- the error is below zero -/
  | negative (given : Datum)

/-- The wording of a flaw, to follow the name of the variable. -/
def Flaw.message : Flaw → String
  | .missing => "is None, expected a measurement"
  | .bare kind => "is a " ++ kind ++ ", expected a measurement with a value and an error"
  | .incomplete => "must have both a value and an error"
  | .value x => "value " ++ x.display ++ " is not a finite number"
  | .error x => "error " ++ x.display ++ " is not a finite number"
  | .negative x => "error " ++ x.display ++ " is negative"

/-- What can go wrong with a call before any formula is looked at. -/
inductive InputFault where
  /-- the formula is absent, or blank -/
  | noFormula
  /-- the variables are not a mapping but something of the named type -/
  | notMapping (kind : String)
  /-- a name is not a text, or is empty -/
  | badName (given : Datum)
  /-- a name is a reserved word -/
  | reservedName (name : String)
  /-- a variable is no measurement -/
  | badVariable (name : String) (flaw : Flaw)
  /-- the series differ in length -/
  | lengths (found : List Nat)

/-- The wording of a fault of the input. -/
def InputFault.message : InputFault → String
  | .noFormula => "expression must be a non-empty string"
  | .notMapping kind =>
    "variables must be a mapping of names to measurements, got " ++ kind
  | .badName given => "variable names must be non-empty strings, got " ++ given.display
  | .reservedName name =>
    "variable name " ++ Text.quoted name ++
      " is a Python keyword and cannot appear in an expression"
  | .badVariable name flaw => "variable " ++ Text.quoted name ++ " " ++ flaw.message
  | .lengths found =>
    "not all measurement series have the same length, got lengths [" ++
      ", ".intercalate (found.map toString) ++ "]"

/-- A number that is too large for a double. -/
inductive Overflow where
  | overflow
  deriving DecidableEq

namespace Measurement

/-- The number in a field as a finite double, or nothing if the field holds no finite number.  Truth
values are no numbers here.  A whole number or a fraction beyond the doubles is an overflow. -/
def finite? : Datum → Except Overflow (Option Double)
  | .number (.float x) => .ok (if x.isFinite then some x else Option.none)
  | .number x =>
    match x.toDouble? with
    | some d => .ok (some d)
    | Option.none => .error .overflow
  | _ => .ok Option.none

/-- Whether the datum in a field is a number below zero. -/
def isNegative : Datum → Bool
  | .number x => x.isNegative
  | _ => false

/-- The value and the error of a datum, if it has both. -/
def fields? : Datum → Option (Datum × Datum)
  | .uncertain v e => some (.number (.float v), .number (.float e))
  | .mapping entries =>
    match Datum.lookup "value" entries, Datum.lookup "error" entries with
    | some v, some e => some (v, e)
    | _, _ => Option.none
  | .measurement v e => some (v, e)
  | .record fields =>
    match fields.lookup "value", fields.lookup "error" with
    | some v, some e => some (v, e)
    | _, _ => Option.none
  | _ => Option.none

/-- A measurement from its two fields.  The value is looked at before the error. -/
def ofFields (value error : Datum) : Except Overflow (Except Flaw Measurement) := do
  match ← finite? value with
  | Option.none => return .error (.value value)
  | some v =>
    match ← finite? error with
    | Option.none => return .error (.error error)
    | some e => return if isNegative error then .error (.negative error) else .ok ⟨v, e⟩

/-- Decides whether a datum describes a measurement. -/
def check (entry : Datum) : Except Overflow (Except Flaw Measurement) :=
  match entry with
  | .none => .ok (.error .missing)
  | .bool _ | .text _ | .number _ => .ok (.error (.bare entry.kind))
  | _ =>
    match fields? entry with
    | Option.none => .ok (.error .incomplete)
    | some (value, error) => ofFields value error

end Measurement

/-- The verdict on a datum, as it is handed to a caller. -/
structure Validation where
  /-- whether the datum describes a measurement -/
  valid : Bool
  /-- the wording of what is wrong with it -/
  reason : Option String
  /-- the measurement -/
  measurement : Option Measurement
  deriving DecidableEq

namespace Validation

/-- The verdict that accepts a datum as a measurement. -/
def ok (m : Measurement) : Validation := ⟨true, none, some m⟩

/-- The verdict that refuses a datum. -/
def invalid (flaw : Flaw) : Validation := ⟨false, some flaw.message, none⟩

/-- The verdict that reports the outcome of a check. -/
def ofChecked : Except Flaw Measurement → Validation
  | .ok m => ok m
  | .error flaw => invalid flaw

end Validation

/-- The verdict on a datum, unless one of its fields is too large for a double. -/
def Measurement.validate (entry : Datum) : Except Overflow Validation :=
  (check entry).map Validation.ofChecked

/-- Measurements by name, in the order in which they were given. -/
abbrev Variables := List (String × Measurement)

/-- The measurement with a name. -/
def Variables.find? (vs : Variables) (name : String) : Option Measurement := vs.lookup name

/-- What can stop the reading of variables. -/
inductive VariablesFault where
  /-- the input is malformed -/
  | input (fault : InputFault)
  /-- a number is too large for a double -/
  | overflow

/-- The name of a variable, if it can be one: a text that is not empty and not reserved. -/
def readName : Datum → Except InputFault String
  | .text s =>
    if s.isEmpty then .error (.badName (.text s))
    else if reservedWords.contains s then .error (.reservedName s)
    else .ok s
  | given => .error (.badName given)

/-- One entry of the map of variables: its name is looked at before its measurement. -/
def readVariable (key entry : Datum) : Except VariablesFault (String × Measurement) :=
  match readName key with
  | .error fault => .error (.input fault)
  | .ok name =>
    match Measurement.check entry with
    | .error _ => .error .overflow
    | .ok (.error flaw) => .error (.input (.badVariable name flaw))
    | .ok (.ok m) => .ok (name, m)

/-- The entries of a map of variables, up to the first that is at fault. -/
def readEntries : List (Datum × Datum) → Except VariablesFault Variables
  | [] => .ok []
  | (key, entry) :: rest => do
    let v ← readVariable key entry
    let vs ← readEntries rest
    return v :: vs

/-- Reads a map of variables; nothing given means that there are none. -/
def readVariables : Datum → Except VariablesFault Variables
  | .none => .ok []
  | .mapping entries => readEntries entries
  | given => .error (.input (.notMapping given.kind))

/-- A number with a standard deviation, as other programs take it. -/
structure Uncertain where
  /-- the nominal value -/
  nominal : Double
  /-- the standard deviation -/
  deviation : Double
  deriving DecidableEq

/-- Why two numbers make no uncertain number. -/
inductive UncertainFault where
  /-- the standard deviation is below zero -/
  | negative
  /-- a number is too large for a double -/
  | overflow
  deriving DecidableEq

/-- An uncertain number.  A finite standard deviation must not be below zero; an infinite one is
taken with either sign. -/
def Uncertain.make (value error : Number) : Except UncertainFault Uncertain :=
  match value.toDouble?, error.toDouble? with
  | some v, some e =>
    if e.isNegative && e.isFinite then .error .negative else .ok ⟨v, e⟩
  | _, _ => .error .overflow

/-- The measurement that an uncertain number describes. -/
def Measurement.ofUncertain (u : Uncertain) : Measurement := ⟨u.nominal, u.deviation⟩

end ErrorBars
