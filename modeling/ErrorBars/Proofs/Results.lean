import ErrorBars.Proofs.Entries
import ErrorBars.Proofs.Specials

/-!
# Results as measurements

A result can be handed on as the object that it is, as a mapping, or as an uncertain number.  Each
of these can be an entry among the variables of another calculation.

* No error figure of a calculation is below zero (`isNegative_pick_of_reference`), so that an
  uncertain number can always be made.
* Finite values with a single finite error come back as they are.
* With a breakdown, the object and the mapping give an error that is no number, and are refused.  An
  uncertain number has one of the two figures for its error.

`calculate_reusable` says this of all results.
-/

set_option autoImplicit false

namespace ErrorBars

/-- A double as a datum. -/
def Datum.float (x : Double) : Datum := .number (.float x)

/-! ## Entries of doubles -/

namespace Measurement

theorem check_of_floats {entry : Datum} {x y : Double} (h : entry.Gives (.float x) (.float y))
    (hx : x.isFinite = true) (hy : y.isFinite = true) (hsign : y.isNegative = false) :
    check entry = .ok (.ok ⟨x, y⟩) := by
  have hvalue : finite? (.float x) = .ok (some x) := by rw [Datum.float, finite?, if_pos hx]
  have herror : finite? (.float y) = .ok (some y) := by rw [Datum.float, finite?, if_pos hy]
  have hnot : isNegative (.float y) = false := hsign
  rw [check_of_fields (Datum.gives_iff.1 h), ofFields, hvalue]
  simp only [bind, Except.bind, herror, hnot]
  rfl

/-- An entry is refused if what it gives for its error is no number. -/
theorem check_of_noNumber {entry error : Datum} {x : Double} (h : entry.Gives (.float x) error)
    (herror : finite? error = .ok none) : ∃ flaw, check entry = .ok (.error flaw) := by
  rw [check_of_fields (Datum.gives_iff.1 h), ofFields, Datum.float, finite?]
  -- the value is looked at first, and may be no number either
  by_cases hx : x.isFinite = true
  · exact ⟨.error error, by rw [if_pos hx]; simp only [bind, Except.bind, herror]; rfl⟩
  · exact ⟨.value (.float x), by rw [if_neg hx]; rfl⟩

end Measurement

/-! ## What a result is handed on as -/

namespace Outcome

variable {r : Outcome Double} {entry : Datum}

/-- The result as an entry: the object that it is, or a mapping. -/
def HandedOn (r : Outcome Double) (entry : Datum) : Prop :=
  entry = r.toRecord .float ∨ entry = r.toDatum .float

theorem HandedOn.gives_single (h : r.HandedOn entry) {e : Double} (he : r.error = .single e) :
    entry.Gives (.float r.value) (.float e) := by
  rcases h with rfl | rfl
  · exact .record rfl (by rw [he]; rfl)
  · exact .mapping rfl (by rw [he]; rfl)

/-- What a breakdown is handed on as is no number. -/
theorem HandedOn.gives_breakdown (h : r.HandedOn entry) {c u : Double}
    (he : r.error = .breakdown c u) :
    ∃ error, entry.Gives (.float r.value) error ∧ Measurement.finite? error = .ok none := by
  rcases h with rfl | rfl
  · exact ⟨r.error.toRecord .float, .record rfl rfl, by rw [he]; rfl⟩
  · exact ⟨r.error.toDatum .float, .mapping rfl rfl, by rw [he]; rfl⟩

theorem pick_numbers (r : Outcome Double) (correlated : Bool) :
    r.numbers.error.pick correlated = .float (r.error.pick correlated) := by
  cases herror : r.error with
  | single e => rw [numbers, herror]; rfl
  | breakdown c u => cases correlated <;> (rw [numbers, herror]; rfl)

/-- An uncertain number can be made with a figure that is not below zero. -/
theorem toUncertain_numbers {correlated : Bool} (h : (r.error.pick correlated).isNegative = false) :
    r.numbers.toUncertain correlated = .ok ⟨r.value, r.error.pick correlated⟩ := by
  rw [toUncertain, pick_numbers, numbers]
  simp only [Uncertain.make, Number.toDouble?, h, Bool.false_and, Bool.false_eq_true, if_false]

/-- What a result is good for as a measurement. -/
structure Reusable (r : Outcome Double) : Prop where
  /-- no error figure is below zero -/
  sign : ∀ correlated, (r.error.pick correlated).isNegative = false
  /-- an uncertain number can be made with either figure, and is the measurement with that figure -/
  uncertain : ∀ correlated, ∃ u, r.numbers.toUncertain correlated = .ok u ∧
    Measurement.ofUncertain u = ⟨r.value, r.error.pick correlated⟩
  /-- it is valid as an entry if it is finite -/
  uncertain_valid : ∀ correlated u, r.numbers.toUncertain correlated = .ok u →
    r.value.isFinite = true → (r.error.pick correlated).isFinite = true →
    Measurement.validate (.uncertain u.nominal u.deviation) =
      .ok (.ok ⟨r.value, r.error.pick correlated⟩)
  /-- with a single error, a finite result is valid in the other forms as well -/
  single_valid : ∀ e, r.error = .single e → r.value.isFinite = true → e.isFinite = true →
    ∀ entry, r.HandedOn entry → Measurement.validate entry = .ok (.ok ⟨r.value, e⟩)
  /-- with a breakdown it is refused in these, by itself and as a variable -/
  breakdown_refused : ∀ c u, r.error = .breakdown c u → ∀ entry, r.HandedOn entry →
    ∃ flaw, Measurement.validate entry = .ok (.invalid flaw) ∧
      ∀ name others, (Datum.text name).IsName →
        readVariables (.mapping ((.text name, entry) :: others)) =
          .error (.input (.badVariable name flaw))

/-- All of this comes from the signs of the figures. -/
theorem reusable_of_sign (h : ∀ correlated, (r.error.pick correlated).isNegative = false) :
    r.Reusable where
  sign := h
  uncertain correlated := ⟨_, toUncertain_numbers (h correlated), rfl⟩
  uncertain_valid correlated u hu hvalue herror := by
    rw [toUncertain_numbers (h correlated)] at hu
    cases hu
    exact Measurement.validate_of_check
      (Measurement.check_of_floats (.uncertain _ _) hvalue herror (h correlated))
  single_valid e he hvalue herror entry hentry := by
    have hsign := h false
    rw [he] at hsign
    exact Measurement.validate_of_check
      (Measurement.check_of_floats (hentry.gives_single he) hvalue herror hsign)
  breakdown_refused c u he entry hentry := by
    obtain ⟨error, hgives, hnone⟩ := hentry.gives_breakdown he
    obtain ⟨flaw, hflaw⟩ := Measurement.check_of_noNumber hgives hnone
    exact ⟨flaw, Measurement.validate_of_check hflaw, fun name others hname =>
      readEntries_of_offends [] nofun (.badVariable rfl hname hflaw) others⟩

end Outcome

/-! ## Results of calculations -/

namespace Propagator

variable {ε : Type}

/-- No contributions have a figure below zero. -/
theorem isNegative_pick_errorOf (mode : Correlation) (contributions : List Double)
    (correlated : Bool) :
    ((errorOf mode contributions).pick correlated).isNegative = false := by
  cases contributions with
  | nil => rfl
  | cons t ts =>
    have hsign := (doubleFigures (t :: ts)).sign mode correlated
    rwa [Operations.figures_doubles] at hsign

theorem isNegative_pick_of_reference {mode : Correlation} {expression inputs : Datum}
    {r : Outcome Double} (h : reference mode expression inputs = .ok r) (correlated : Bool) :
    (r.error.pick correlated).isNegative = false := by
  rw [error_of_reference h]
  exact isNegative_pick_errorOf mode _ correlated

/-- **Results can be handed on as measurements.**  Whatever the mode, the arguments, the listeners
and the state of a calculation that succeeds: no error figure of its result is below zero, and an
uncertain number can be made with either.  Finite numbers come back as they are, in all forms if
there is a single error, while the object and the mapping are refused if there is a breakdown. -/
theorem calculate_reusable {emit : Event → Call ε Unit} {mode : Correlation}
    {expression inputs : Datum} {s : CallState ε} {r : Outcome Double}
    (h : (calculate emit mode expression inputs s).1 = .ok r) : r.Reusable :=
  Outcome.reusable_of_sign (isNegative_pick_of_reference (reference_of_ok h))

/-- A calculation in both modes among meddlers has a breakdown of finite figures. -/
theorem calculate_reusable_meddlers :
    ∃ r c u, (calculate (Session.emit meddlers .both) .both (.text "2*x") (flat ["x"])
        disturbed).1 = .ok r ∧
      r.error = .breakdown c u ∧ r.value.isFinite = true ∧ c.isFinite = true ∧
      u.isFinite = true ∧ r.Reusable := by
  have hfinite : ((calculate (Session.emit meddlers .both) .both (.text "2*x") (flat ["x"])
      disturbed).1.toOption.any fun r => match r.error with
        | .single _ => false
        | .breakdown c u => r.value.isFinite && c.isFinite && u.isFinite) = true := by
    decide +kernel
  rcases hr : (calculate (Session.emit meddlers .both) .both (.text "2*x") (flat ["x"])
    disturbed).1 with fault | ⟨value, e | ⟨c, u⟩⟩ <;> rw [hr] at hfinite
  · cases hfinite
  · cases hfinite
  · obtain ⟨⟨hvalue, hc⟩, hu⟩ := by simpa [Except.toOption] using hfinite
    exact ⟨⟨value, .breakdown c u⟩, c, u, rfl, rfl, hvalue, hc, hu, calculate_reusable hr⟩

end Propagator
end ErrorBars
