import ErrorBars.Proofs.Entries
import ErrorBars.Proofs.Registry
import ErrorBars.Proofs.Rows

/-!
# Series without rows

When all lists of a table are empty there is no row to calculate.  The series then tells of its
arguments and reads the formula all the same, in steps of its own: it takes the names from the keys
of the table, without having read any variables.

* It tells of nothing but its arguments (`rowless_of_quiet`), and the registry is empty behind it
  (`registry_attempt`).
* A row that could stand in the table has the names that are taken from its keys
  (`exists_variables_of_fills`), so that the steps of the series are those which a calculation for
  this row begins with (`foretells_attempt`).

`series_rowless_foretells` puts these together.
-/

set_option autoImplicit false

namespace ErrorBars
namespace Propagator

open Watched

variable {ε : Type}

/-! ## The series by itself -/

/-- With a formula, an attempt leaves the registry empty; without one, as it was. -/
theorem registry_attempt {expression : Datum} {s : CallState ε}
    (h : ¬ NoFormula expression ∨ s.registry = []) (names : List String) :
    (attempt expression names s).2.registry = [] := by
  by_cases hno : NoFormula expression
  · rw [attempt_of_noFormula (readFormula_of_noFormula hno)]
    exact h.resolve_left (not_not_intro hno)
  · obtain ⟨source, -, hread⟩ := readFormula_of_formula hno
    rw [attempt_of_formula hread]

/-- With quiet listeners, the arguments are told, and then the attempt is made. -/
theorem rowless_of_quiet {emit : Event → Call ε Unit} {mode : Correlation}
    {expression inputs : Datum} {s : CallState ε} (hrows : rows inputs = .ok [])
    (quiet : Quiet (seriesEmissions emit mode expression inputs s)) :
    seriesEmissions emit mode expression inputs s = [told (.input expression inputs)] ∧
      ∃ t, emit (.input expression inputs) s = (.ok (), t) ∧
        series emit mode expression inputs s = attempt expression (keyNames inputs) t := by
  obtain ⟨new, hruns, hquiet⟩ := runs_rowless emit mode expression hrows s
  rw [seriesEmissions_eq hruns] at quiet ⊢
  exact hquiet quiet

/-! ## Rows that could stand in the table -/

/-- An entry of a row, for one of the table: a list is replaced, anything else is kept, and what
there is in the end is valid. -/
structure Fills (given filled : Datum × Datum) : Prop where
  /-- the key is kept -/
  key_eq : filled.1 = given.1
  /-- so is what is not a list -/
  kept : (∀ items, given.2 ≠ .list items) → filled.2 = given.2
  /-- the entry is valid -/
  valid : ∃ m, Measurement.validate filled.2 = .ok (.ok m)

/-- The variables of a row have the names that are among the keys of the table. -/
theorem exists_variables_of_fills {entries row : List (Datum × Datum)}
    (h : List.Forall₂ Fills entries row) (named : ∀ item ∈ entries, item.1.IsName) :
    ∃ vs, readVariables (.mapping row) = .ok vs ∧
      vs.map Prod.fst = keyNames (.mapping entries) := by
  suffices hread : ∃ vs, List.Forall₂ ReadAs row vs ∧
      vs.map Prod.fst = keyNames (.mapping entries) by
    obtain ⟨vs, hvs, hnames⟩ := hread
    exact ⟨vs, readEntries_of_readAs hvs, hnames⟩
  induction h with
  | nil => exact ⟨[], .nil, rfl⟩
  | @cons given filled entries row hfills _ ih =>
    obtain ⟨vs, hvs, hnames⟩ := ih fun item hmem => named item (List.mem_cons_of_mem _ hmem)
    obtain ⟨m, hm⟩ := hfills.valid
    obtain ⟨s, hs, hfree⟩ := named given List.mem_cons_self
    have hkey := hfills.key_eq.trans hs
    refine ⟨(s, m) :: vs, .cons ⟨⟨s, hkey, hfree⟩, hkey, hm⟩ hvs, ?_⟩
    rw [List.map_cons, hnames, keyNames, keyNames, List.filterMap_cons, hs]

/-- How the answer of a series without rows goes with that of a calculation for a row. -/
structure Foretells (expression : Datum) (row : List (Datum × Datum))
    (answer : Except CallFault (List (Outcome Double)))
    (alone : Except CallFault (Outcome Double)) : Prop where
  /-- they fail for their arguments together, and for the same reason -/
  input_iff : ∀ reason, answer = .error (.input reason) ↔ alone = .error (.input reason)
  /-- otherwise there are a formula and variables; if the formula cannot be read with the names of
  these, both fail with that, and if it can, the series has an answer without results -/
  reading : (∀ reason, alone ≠ .error (.input reason)) →
    ∃ source vs, expression = .text source ∧ readVariables (.mapping row) = .ok vs ∧
      ∀ registry,
        (∀ fault, (Engine.parse source (vs.map Prod.fst) registry).1 = .error fault →
          answer = .error (.engine fault) ∧ alone = .error (.engine fault)) ∧
        ∀ f, (Engine.parse source (vs.map Prod.fst) registry).1 = .ok f → answer = .ok []
  /-- a calculation that succeeds has no series fail -/
  succeeds : ∀ r, alone = .ok r → answer = .ok []

/-- Reading a formula does not depend on the registry. -/
theorem parse_fst (source : String) (names : List String) (registry : Registry) :
    (Engine.parse source names registry).1 =
      (Formula.parse source names).mapError (Engine.ofParseFault source) := by
  rw [Engine.parse]
  cases Formula.parse source names <;> rfl

/-- The attempt goes with the calculation for a row whose variables have these names. -/
theorem foretells_attempt (mode : Correlation) (expression : Datum) {row : List (Datum × Datum)}
    {vs : Variables} (hvs : readVariables (.mapping row) = .ok vs) (s : CallState ε) :
    Foretells expression row (attempt expression (vs.map Prod.fst) s).1
      (reference mode expression (.mapping row)) := by
  by_cases hno : NoFormula expression
  · have hread := readFormula_of_noFormula hno
    rw [attempt_of_noFormula hread, reference_eq_error mode (opening_of_noFormula hno _)]
    exact ⟨fun reason => by simp, fun h => absurd rfl (h _), by simp⟩
  · obtain ⟨source, rfl, hread⟩ := readFormula_of_formula hno
    have hopen : opening (.text source) (.mapping row) = setting source vs := by
      rw [opening, hread, hvs]
      rfl
    rw [attempt_of_formula hread]
    cases hf : Formula.parse source (vs.map Prod.fst) with
    | error fault =>
      have hS : setting source vs = .error (.engine (Engine.ofParseFault source fault)) := by
        rw [setting, hf]
      rw [reference_eq_error mode (hopen.trans hS)]
      refine ⟨by simp, fun _ => ⟨source, vs, rfl, hvs, fun registry => ?_⟩, by simp⟩
      rw [parse_fst, hf]
      refine ⟨fun fault h => ?_, by simp [Except.mapError]⟩
      cases h
      exact ⟨rfl, rfl⟩
    | ok f =>
      -- whatever the calculation fails with comes later
      have hlate : ∀ reason,
          reference mode (.text source) (.mapping row) ≠ .error (.input reason) :=
        fun reason hfault => late_of_opening hopen hfault reason rfl
      refine ⟨fun reason => by simp [hlate], fun _ => ⟨source, vs, rfl, hvs, fun registry => ?_⟩,
        fun _ _ => rfl⟩
      rw [parse_fst, hf]
      exact ⟨by simp [Except.mapError], fun _ _ => rfl⟩

/-- **A series without rows.**  Let all lists of a table be empty and all keys be names, and let no
listener that is told of the series fail.  Then the arguments are all that is told.  The registry is
empty in the end if there is a formula, and also without one if it was empty and the listeners leave
it so, as those of a session do.

For each row that could stand in the table, the series fails for its arguments exactly if a
calculation for this row does, and for the same reason.  Otherwise it fails exactly if the formula
cannot be read, as the calculation does; and otherwise it has an answer, which holds no results. -/
theorem series_rowless_foretells (mode : Correlation) (expression : Datum)
    (entries : List (Datum × Datum)) (columns : Columns 0 entries)
    (named : ∀ item ∈ entries, item.1.IsName) (emit : Event → Call ε Unit) (s : CallState ε)
    (quiet : Quiet (seriesEmissions emit mode expression (.mapping entries) s)) :
    seriesEmissions emit mode expression (.mapping entries) s =
      [told (.input expression (.mapping entries))] ∧
    (¬ NoFormula expression ∨
        s.registry = [] ∧ Session.Keeps (emit (.input expression (.mapping entries))) →
      (series emit mode expression (.mapping entries) s).2.registry = []) ∧
    (∀ programs depth (before : CallState LogEntry), before.registry = [] →
      (series (Session.emitAt programs mode depth) mode expression (.mapping entries)
        before).2.registry = []) ∧
    ∀ row, List.Forall₂ Fills entries row →
      ∀ {ε' : Type} (emit' : Event → Call ε' Unit) (mode' : Correlation) (before : CallState ε'),
        Quiet (emissions emit' mode' expression (.mapping row) before) →
        Foretells expression row (series emit mode expression (.mapping entries) s).1
          (calculate emit' mode' expression (.mapping row) before).1 := by
  obtain ⟨htold, t, he, hseries⟩ := rowless_of_quiet columns.rows quiet
  refine ⟨htold, fun h => ?_, fun programs depth => ?_,
    fun row hfills _ emit' mode' before hquiet => ?_⟩
  · rw [hseries]
    refine registry_attempt (h.imp_right fun ⟨hempty, hkeeps⟩ => ?_) _
    have ht := hkeeps s hempty
    rwa [he] at ht
  · exact Session.keeps_series (Session.keeps_emitAt programs mode depth) mode expression _
  · obtain ⟨vs, hvs, hnames⟩ := exists_variables_of_fills hfills named
    rw [hseries, ← hnames, (emissions_calculate hquiet).2]
    exact foretells_attempt mode' expression hvs t

/-- A table with an empty list and a constant. -/
def unfilled : List (Datum × Datum) :=
  [(.text "x", .list []),
    (.text "y", .measurement (.number (.int 2)) (.number (.int 1)))]

/-- The table with a measurement for the list. -/
def filled : List (Datum × Datum) :=
  [(.text "x", .measurement (.number (.int 0)) (.number (.int 1))),
    (.text "y", .measurement (.number (.int 2)) (.number (.int 1)))]

theorem columns_unfilled : Columns 0 unfilled where
  some_list := ⟨_, _, List.mem_cons_self⟩
  length_eq key items hmem := by
    simp only [unfilled, List.mem_cons, Prod.mk.injEq, List.not_mem_nil, or_false, reduceCtorEq,
      and_false, Datum.list.injEq] at hmem
    rw [hmem.2]
    rfl

theorem named_unfilled : ∀ item ∈ unfilled, item.1.IsName := by
  intro item hmem
  simp only [unfilled, List.mem_cons, List.not_mem_nil, or_false] at hmem
  rcases hmem with rfl | rfl
  · exact ⟨"x", rfl, by decide, by decide +kernel⟩
  · exact ⟨"y", rfl, by decide, by decide +kernel⟩

/-- Whole numbers as a measurement, once they are read. -/
def wholes (value error : Int) : Measurement :=
  ⟨(Double.ofInt? value).getD .nan, (Double.ofInt? error).getD .nan⟩

theorem fills_filled : List.Forall₂ Fills unfilled filled :=
  .cons ⟨rfl, fun h => absurd rfl (h []), wholes 0 1, by decide +kernel⟩
    (.cons ⟨rfl, fun _ => rfl, wholes 2 1, by decide +kernel⟩ .nil)

/-- Meddlers are told of the series, and of the calculation for a row. -/
theorem series_rowless_foretells_meddlers :
    Columns 0 unfilled ∧ (∀ item ∈ unfilled, item.1.IsName) ∧
    Quiet (seriesEmissions (Session.emit meddlers .both) .both (.text "x*x") (.mapping unfilled)
      disturbed) ∧
    Quiet (emissions (Session.emit meddlers .both) .both (.text "x*x") (.mapping filled)
      Session.start) ∧
    List.Forall₂ Fills unfilled filled ∧
    seriesEmissions (Session.emit meddlers .both) .both (.text "x*x") (.mapping unfilled)
      disturbed = [told (.input (.text "x*x") (.mapping unfilled))] ∧
    (series (Session.emit meddlers .both) .both (.text "x*x") (.mapping unfilled)
      disturbed).2.registry = [] ∧
    Foretells (.text "x*x") filled
      (series (Session.emit meddlers .both) .both (.text "x*x") (.mapping unfilled) disturbed).1
      (calculate (Session.emit meddlers .both) .both (.text "x*x") (.mapping filled)
        Session.start).1 := by
  have quiet : Quiet (seriesEmissions (Session.emit meddlers .both) .both (.text "x*x")
      (.mapping unfilled) disturbed) := by
    decide +kernel
  have alone : Quiet (emissions (Session.emit meddlers .both) .both (.text "x*x")
      (.mapping filled) Session.start) := by
    decide +kernel
  have formula : ¬ NoFormula (.text "x*x") := fun h =>
    absurd (h "x*x" rfl 'x' (by decide)) (by decide +kernel)
  obtain ⟨htold, hregistry, -, hforetells⟩ := series_rowless_foretells .both (.text "x*x") unfilled
    columns_unfilled named_unfilled (Session.emit meddlers .both) disturbed quiet
  exact ⟨columns_unfilled, named_unfilled, quiet, alone, fills_filled, htold,
    hregistry (.inl formula), hforetells filled fills_filled _ .both _ alone⟩

end Propagator
end ErrorBars
