import ErrorBars.Measurement

/-!
# Series of measurements

A map of variables may hold lists, one entry for each row of a table; everything that is not a list
is the same in all rows.  `rows` turns such columns into rows, and refuses columns that differ in
length.
-/

set_option autoImplicit false

namespace ErrorBars

/-- The lengths of the lists among the entries. -/
def columnLengths : List (Datum × Datum) → List Nat
  | [] => []
  | (_, .list items) :: rest => items.length :: columnLengths rest
  | _ :: rest => columnLengths rest

/-- The `i`-th entry of a column; what is not a list is its own entry in each row. -/
def rowEntry (i : Nat) : Datum → Datum
  | .list items => items.getD i .none
  | constant => constant

/-- The `i`-th row of a table. -/
def row (entries : List (Datum × Datum)) (i : Nat) : List (Datum × Datum) :=
  entries.map fun e => (e.1, rowEntry i e.2)

/-- The rows of a table; a table without lists is its own single row. -/
def tableRows (entries : List (Datum × Datum)) :
    Except InputFault (List (List (Datum × Datum))) :=
  match (columnLengths entries).eraseDups with
  | [] => .ok [entries]
  | [n] => .ok ((List.range n).map (row entries))
  | lengths => .error (.lengths (lengths.mergeSort (· ≤ ·)))

/-- The rows of a map of variables; nothing given is a single row without variables. -/
def rows : Datum → Except InputFault (List (List (Datum × Datum)))
  | .none => .ok [[]]
  | .mapping entries => tableRows entries
  | given => .error (.notMapping given.kind)

end ErrorBars
