import ErrorBars.Number
import ErrorBars.Text.Quoted

/-!
# Raw data

What a caller hands over before anything is checked: numbers, texts, lists, mappings, and the forms
in which a measurement can be given.  `Datum.display` is the text by which a message quotes a datum
and `Datum.kind` the name by which it calls its type.
-/

set_option autoImplicit false

namespace ErrorBars

/-- A datum of any kind. -/
inductive Datum where
  /-- no value -/
  | none
  /-- a truth value -/
  | bool (b : Bool)
  /-- a real number -/
  | number (x : Number)
  /-- a complex number -/
  | complex (re im : Double)
  /-- a text -/
  | text (s : String)
  /-- a list -/
  | list (items : List Datum)
  /-- a fixed group of data, which does not count as a list -/
  | tuple (items : List Datum)
  /-- a mapping, in the order in which its keys were first given -/
  | mapping (entries : List (Datum × Datum))
  /-- a measurement whose two fields have not been checked -/
  | measurement (value error : Datum)
  /-- a number with a standard deviation -/
  | uncertain (nominal deviation : Double)
  /-- any other object, with its attributes -/
  | record (fields : List (String × Datum))

namespace Datum

instance : Inhabited Datum := ⟨.none⟩

/-- The name of the type of a datum. -/
def kind : Datum → String
  | .none => "NoneType"
  | .bool _ => "bool"
  | .number (.int _) => "int"
  | .number (.fraction _) => "Fraction"
  | .number (.float _) => "float"
  | .complex .. => "complex"
  | .text _ => "str"
  | .list _ => "list"
  | .tuple _ => "tuple"
  | .mapping _ => "dict"
  | .measurement .. => "Measurement"
  | .uncertain .. => "Variable"
  | .record _ => "SimpleNamespace"

/-- A double inside a complex number: a whole number shows no fraction. -/
def partText (x : Double) : String :=
  let cs := x.exactText.toList
  if cs.reverse.take 2 = ['0', '.'] then String.ofList (cs.take (cs.length - 2))
  else String.ofList cs

/-- A complex number; a real part that is a positive zero is left out. -/
def complexText (re im : Double) : String :=
  let imaginary := partText im ++ "j"
  if re = Double.zero false then imaginary
  else
    let sign := if imaginary.toList.head? = some '-' then "" else "+"
    "(" ++ partText re ++ sign ++ imaginary ++ ")"

/-- A whole number, a fraction or a double. -/
def numberText : Number → String
  | .int n => toString n
  | .fraction q => "Fraction(" ++ toString q.num ++ ", " ++ toString q.den ++ ")"
  | .float x => x.exactText

mutual

/-- The text by which a message quotes a datum. -/
def display : Datum → String
  | .none => "None"
  | .bool b => if b then "True" else "False"
  | .number x => numberText x
  | .complex re im => complexText re im
  | .text s => Text.quoted s
  | .list items => "[" ++ ", ".intercalate (displayAll items) ++ "]"
  | .tuple [x] => "(" ++ display x ++ ",)"
  | .tuple items => "(" ++ ", ".intercalate (displayAll items) ++ ")"
  | .mapping entries => "\x7b" ++ ", ".intercalate (displayEntries entries) ++ "\x7d"
  | .measurement v e => "Measurement(value=" ++ display v ++ ", error=" ++ display e ++ ")"
  | .uncertain v e => v.exactText ++ "+/-" ++ (if e.isZero then "0" else e.exactText)
  | .record fields => "namespace(" ++ ", ".intercalate (displayFields fields) ++ ")"

/-- The texts of the items of a list. -/
def displayAll : List Datum → List String
  | [] => []
  | x :: xs => display x :: displayAll xs

/-- The texts of the entries of a mapping. -/
def displayEntries : List (Datum × Datum) → List String
  | [] => []
  | (k, v) :: rest => (display k ++ ": " ++ display v) :: displayEntries rest

/-- The texts of the attributes of an object. -/
def displayFields : List (String × Datum) → List String
  | [] => []
  | (k, v) :: rest => (k ++ "=" ++ display v) :: displayFields rest

end

/-- The exact value of a double, or the sign of an infinite one. -/
def extent? (x : Double) : Option (Rat ⊕ Bool) :=
  match x with
  | .infinite negative => some (.inr negative)
  | x => x.toRat?.map .inl

/-- The real and the imaginary part of the number that a datum counts as when keys are compared, if
it counts as one. -/
def keyValue? : Datum → Option ((Rat ⊕ Bool) × (Rat ⊕ Bool))
  | .bool b => some (.inl (if b then 1 else 0), .inl 0)
  | .number (.int n) => some (.inl n, .inl 0)
  | .number (.fraction q) => some (.inl q, .inl 0)
  | .number (.float x) => (extent? x).map fun v => (v, .inl 0)
  | .complex re im => do return (← extent? re, ← extent? im)
  | _ => Option.none

mutual

/-- Whether two data are the same key.  Numbers are compared by value, whatever their form, groups
and measurements by their members; a number with a standard deviation is the same as no other. -/
def sameKey : Datum → Datum → Bool
  | .none, .none => true
  | .text s, .text t => s == t
  | .tuple xs, .tuple ys => sameKeys xs ys
  | .measurement v e, .measurement w f => sameKey v w && sameKey e f
  | x, y =>
    match keyValue? x, keyValue? y with
    | some p, some q => p == q
    | _, _ => false

/-- Whether two groups of data are the same, item by item. -/
def sameKeys : List Datum → List Datum → Bool
  | [], [] => true
  | x :: xs, y :: ys => sameKey x y && sameKeys xs ys
  | _, _ => false

end

/-- Puts a value under a key: a key that is there keeps its place and takes the new value. -/
def insertEntry (key value : Datum) : List (Datum × Datum) → List (Datum × Datum)
  | [] => [(key, value)]
  | (k, v) :: rest =>
    if sameKey k key then (k, value) :: rest else (k, v) :: insertEntry key value rest

/-- The mapping with the given entries; of entries with one key the last value stands in the first
place. -/
def ofEntries (entries : List (Datum × Datum)) : Datum :=
  .mapping (entries.foldl (fun m e => insertEntry e.1 e.2 m) [])

/-- The value under a name. -/
def lookup (name : String) : List (Datum × Datum) → Option Datum
  | [] => Option.none
  | (.text k, v) :: rest => if k = name then some v else lookup name rest
  | _ :: rest => lookup name rest

/-- Whether a datum is a list; a tuple is none. -/
def isList : Datum → Bool
  | .list _ => true
  | _ => false

end Datum

end ErrorBars
