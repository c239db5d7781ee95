import ErrorBars.Proofs.Doubles
import ErrorBars.Proofs.Malformed

/-!
# Numbers that are too large to be checked

The two fields of an entry are checked by way of doubles.  A whole number or a fraction may be too
large for one, and then the check does not come to a verdict: it fails with an overflow, which is
not a fault of the input as the callers know it.

* `Datum.Overflows` — the value of the entry is too large; or the error is, and the value is a
  finite number, without which the error is not looked at.  What is too large is said by
  `Double.threshold`.
* `readVariables_overflow` — this is all that can happen: every other entry gets its verdict, and
  variables either are read, or have a fault of the input, or come to such an entry with nothing
  wrong in front of it.

Calculations pass the overflow on, with the same numbers (`ErrorBars.Proofs.Malformed` leaves them
out by `FittingVariables`).
-/

set_option autoImplicit false

namespace ErrorBars

namespace Datum

/-- A datum that is a whole number or a fraction too large for a double. -/
def TooLarge (d : Datum) : Prop := ∃ x, d = .number x ∧ x.TooLarge

/-- An entry that cannot be checked, because a number is in the way that is too large. -/
def Overflows (entry : Datum) : Prop :=
  ∃ value error, Measurement.fields? entry = some (value, error) ∧
    (value.TooLarge ∨ (∃ q, exactValue? value = some q) ∧ error.TooLarge)

theorem fits_iff {d : Datum} : d.Fits ↔ ¬ d.TooLarge := by
  simp only [Fits, TooLarge, ne_eq, Number.toDouble?_eq_none_iff, not_exists, not_and]

/-- What is too large has an exact value all the same. -/
theorem TooLarge.exactValue? {d : Datum} (h : d.TooLarge) : ∃ q, d.exactValue? = some q := by
  obtain ⟨x, rfl, hx⟩ := h
  cases x with
  | int n => exact ⟨n, rfl⟩
  | fraction q => exact ⟨q, rfl⟩
  | float x => exact hx.elim

end Datum

namespace Measurement

open Datum

theorem finite?_of_tooLarge {d : Datum} (h : d.TooLarge) : finite? d = .error .overflow := by
  obtain ⟨x, rfl, hx⟩ := h
  have hnone := (Number.toDouble?_eq_none_iff x).2 hx
  cases x with
  | float x => exact hx.elim
  | int n => simp only [finite?, hnone]
  | fraction q => simp only [finite?, hnone]

/-- Two fields are checked to the end, or the first of them that decides is too large. -/
theorem ofFields_cases (v e : Datum) :
    (ofFields v e = .error .overflow ∧
      (v.TooLarge ∨ (∃ q, exactValue? v = some q) ∧ e.TooLarge)) ∨
    ∃ r, ofFields v e = .ok r ∧
      ¬ (v.TooLarge ∨ (∃ q, exactValue? v = some q) ∧ e.TooLarge) ∧
      ((∃ m, r = .ok m) ↔ ∃ value error, exactValue? v = some value ∧ exactValue? e = some error ∧
        0 ≤ error) := by
  by_cases hv : v.TooLarge
  · exact .inl ⟨by rw [ofFields, finite?_of_tooLarge hv]; rfl, .inl hv⟩
  · obtain ⟨x, hx, hvalue⟩ := finite?_eq (fits_iff.2 hv)
    by_cases he : e.TooLarge
    · cases x with
      | none =>
        -- the value is no number, and the error is not looked at
        have hnone : ¬ ∃ q, exactValue? v = some q := fun h => by cases hvalue.2 h
        refine .inr ⟨.error (.value v), by rw [ofFields, hx]; rfl, ?_, by simp, ?_⟩
        · exact fun h => h.elim hv fun h => hnone h.1
        · rintro ⟨value, _, h, -⟩
          exact absurd ⟨value, h⟩ hnone
      | some x =>
        refine .inl ⟨?_, .inr ⟨hvalue.1 rfl, he⟩⟩
        rw [ofFields, hx]
        simp only [bind, Except.bind, finite?_of_tooLarge he]
    · obtain ⟨r, hr, hiff⟩ := ofFields_eq (fits_iff.2 hv) (fits_iff.2 he)
      exact .inr ⟨r, hr, fun h => h.elim hv fun h => he h.2, hiff⟩

theorem overflows_of_fields {d v e : Datum} (h : fields? d = some (v, e)) :
    d.Overflows ↔ v.TooLarge ∨ (∃ q, exactValue? v = some q) ∧ e.TooLarge := by
  refine ⟨?_, fun hlarge => ⟨v, e, h, hlarge⟩⟩
  rintro ⟨v', e', h', hlarge⟩
  rw [h] at h'
  cases h'
  exact hlarge

/-- **An entry** is checked to the end, or a number in it is too large. -/
theorem check_cases (d : Datum) :
    (check d = .error .overflow ∧ d.Overflows) ∨
      ∃ r, check d = .ok r ∧ ¬ d.Overflows ∧ ((∃ m, r = .ok m) ↔ d.IsMeasurement) := by
  cases hfields : fields? d with
  | none =>
    have hno : ∀ v e, fields? d ≠ some (v, e) := by simp [hfields]
    obtain ⟨r, hr, hiff⟩ := check_eq fun v e h => absurd h (hno v e)
    refine .inr ⟨r, hr, ?_, hiff⟩
    rintro ⟨v, e, h, -⟩
    exact hno v e h
  | some p =>
    obtain ⟨v, e⟩ := p
    rw [check_of_fields hfields, overflows_of_fields hfields, isMeasurement_of_fields hfields]
    exact ofFields_cases v e

end Measurement

/-! ## Variables -/

/-- An entry of a map of variables that is read: a name and a measurement, and its numbers are not
too large. -/
def ReadableEntry (entry : Datum × Datum) : Prop :=
  entry.1.IsName ∧ entry.2.IsMeasurement ∧ ¬ entry.2.Overflows

/-- Entries that come to one that cannot be checked, with nothing wrong in front of it. -/
def ComesToOverflow (entries : List (Datum × Datum)) : Prop :=
  ∃ front key entry rest, entries = front ++ (key, entry) :: rest ∧
    (∀ other ∈ front, ReadableEntry other) ∧ key.IsName ∧ entry.Overflows

theorem readVariable_cases (key entry : Datum) :
    (∃ v, readVariable key entry = .ok v ∧ ReadableEntry (key, entry)) ∨
      (∃ fault, readVariable key entry = .error (.input fault) ∧ ¬ ReadableEntry (key, entry) ∧
        ¬ (key.IsName ∧ entry.Overflows)) ∨
      (readVariable key entry = .error .overflow ∧ key.IsName ∧ entry.Overflows) := by
  have hname := readName_eq key
  rw [readVariable]
  cases hkey : readName key with
  | error fault =>
    have hno : ¬ key.IsName := fun h => by
      obtain ⟨name, hok⟩ := hname.2 h
      rw [hkey] at hok
      cases hok
    exact .inr (.inl ⟨fault, rfl, fun h => hno h.1, fun h => hno h.1⟩)
  | ok name =>
    have hyes := hname.1 ⟨name, hkey⟩
    rcases Measurement.check_cases entry with ⟨hcheck, hlarge⟩ | ⟨r, hcheck, hfits, hiff⟩
    · exact .inr (.inr ⟨by simp only [hcheck], hyes, hlarge⟩)
    · simp only [hcheck]
      cases r with
      | error flaw =>
        refine .inr (.inl ⟨_, rfl, fun h => ?_, fun h => hfits h.2⟩)
        obtain ⟨m, hm⟩ := hiff.2 h.2.1
        cases hm
      | ok m => exact .inl ⟨_, rfl, hyes, hiff.1 ⟨m, rfl⟩, hfits⟩

theorem comesToOverflow_cons {key entry : Datum} {entries : List (Datum × Datum)} :
    ComesToOverflow ((key, entry) :: entries) ↔ (key.IsName ∧ entry.Overflows) ∨
      (ReadableEntry (key, entry) ∧ ComesToOverflow entries) := by
  constructor
  · rintro ⟨_ | ⟨first, front⟩, k, e, rest, heq, hfront, hk, he⟩
    · cases heq
      exact .inl ⟨hk, he⟩
    · cases heq
      exact .inr ⟨hfront _ List.mem_cons_self, front, k, e, rest, rfl,
        fun other hmem => hfront other (List.mem_cons_of_mem _ hmem), hk, he⟩
  · rintro (⟨hk, he⟩ | ⟨hfirst, front, k, e, rest, rfl, hfront, hk, he⟩)
    · exact ⟨[], key, entry, entries, rfl, by simp, hk, he⟩
    · exact ⟨(key, entry) :: front, k, e, rest, rfl, List.forall_mem_cons.2 ⟨hfirst, hfront⟩, hk, he⟩

theorem readEntries_cases (entries : List (Datum × Datum)) :
    (readEntries entries = .error .overflow ∧ ComesToOverflow entries) ∨
      (¬ ComesToOverflow entries ∧ ((∃ vs, readEntries entries = .ok vs) ∨
        ∃ fault, readEntries entries = .error (.input fault))) := by
  induction entries with
  | nil =>
    refine .inr ⟨?_, .inl ⟨[], rfl⟩⟩
    rintro ⟨front, k, e, rest, heq, -⟩
    simp at heq
  | cons first entries ih =>
    obtain ⟨key, entry⟩ := first
    rw [readEntries, comesToOverflow_cons]
    rcases readVariable_cases key entry with ⟨v, hv, hgood⟩ | ⟨fault, hv, hbad, hfits⟩ | ⟨hv, hlarge⟩
    · rcases ih with ⟨hrest, hcomes⟩ | ⟨hnot, hrest⟩
      · exact .inl ⟨by rw [hv, hrest]; rfl, .inr ⟨hgood, hcomes⟩⟩
      · refine .inr ⟨?_, ?_⟩
        · exact fun h => h.elim (fun h => hgood.2.2 h.2) fun h => hnot h.2
        · rcases hrest with ⟨vs, hvs⟩ | ⟨fault, hfault⟩
          · exact .inl ⟨v :: vs, by rw [hv, hvs]; rfl⟩
          · exact .inr ⟨fault, by rw [hv, hfault]; rfl⟩
    · exact .inr ⟨fun h => h.elim hfits fun h => hbad h.1, .inr ⟨fault, by rw [hv]; rfl⟩⟩
    · exact .inl ⟨by rw [hv]; rfl, .inl hlarge⟩

/-- A measurement of a one with four hundred zeros. -/
def enormous : Datum :=
  .mapping [(.text "value", .number (.int (10 ^ 400))), (.text "error", .number (.int 1))]

end ErrorBars
