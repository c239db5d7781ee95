import ErrorBars.Correlation

/-!
# Results

A result is a value with its total error.  It can be handed on as the object that it is, as a
mapping, or as an uncertain number; the latter picks one of the two figures of a breakdown.
-/

set_option autoImplicit false

namespace ErrorBars

/-- A value and its error, in whatever form the numbers were given. -/
structure Outcome (α : Type) where
  /-- the value -/
  value : α
  /-- its error -/
  error : Figure α

namespace Figure

variable {α : Type}

/-- A figure in another form. -/
def map {β : Type} (f : α → β) : Figure α → Figure β
  | .single x => .single (f x)
  | .breakdown c u => .breakdown (f c) (f u)

/-- A figure as a datum, with a breakdown as the object that it is. -/
def toRecord (given : α → Datum) : Figure α → Datum
  | .single x => given x
  | .breakdown c u => .record [("correlated", given c), ("uncorrelated", given u)]

end Figure

namespace Outcome

/-- An outcome of doubles among the numbers of any form. -/
def numbers (r : Outcome Double) : Outcome Number := ⟨.float r.value, r.error.map .float⟩

/-- An outcome as the object that it is. -/
def toRecord {α : Type} (given : α → Datum) (r : Outcome α) : Datum :=
  .record [("value", given r.value), ("error", r.error.toRecord given)]

/-- An outcome as a mapping. -/
def toDatum {α : Type} (given : α → Datum) (r : Outcome α) : Datum :=
  .mapping [(.text "value", given r.value), (.text "error", r.error.toDatum given)]

/-- An outcome as an uncertain number, with the figure for one of the assumptions. -/
def toUncertain (r : Outcome Number) (correlated : Bool) : Except UncertainFault Uncertain :=
  Uncertain.make r.value (r.error.pick correlated)

end Outcome

end ErrorBars
