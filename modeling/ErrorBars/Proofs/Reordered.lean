import ErrorBars.Proofs.Reading
import ErrorBars.Proofs.Spare.Calculation
import ErrorBars.Proofs.Tables
import Mathlib.Data.List.Nodup

/-!
# The order of the variables

A call hands the map of variables on to the reading of the formula, which asks whether a word is
among the names; to the search for missing measurements, which looks them up; and to each
evaluation, which looks values up, asks whether all of them are whole, and puts them into
expressions in an order of its own.  None of these questions has another answer when the same
measurements are given in another order.

So whatever listeners do, two calls that are given the same measurements do the same once the
arguments have been reported (`calculate_eq_bind`, `settle_perm`).  With the arguments the listeners
are told of the order too: those of a session write it down, and that is all they make of it
(`blind_emitAt`).

For a series the columns of a table are put in another order.  Then its rows hold the same
measurements one by one (`rows_perm`), and a table that is refused is refused for the same lengths.

`calculate_reordered` puts these together.
-/

set_option autoImplicit false

namespace ErrorBars

/-! ## Looking up -/

/-- Where no key stands twice, the order of the pairs does not matter to a search. -/
theorem lookup_perm {α β : Type} [BEq α] [LawfulBEq α] {xs ys : List (α × β)} (h : xs.Perm ys)
    (hkeys : (xs.map Prod.fst).Nodup) (key : α) : xs.lookup key = ys.lookup key := by
  induction h with
  | nil => rfl
  | cons x _ ih =>
    rw [List.map_cons, List.nodup_cons] at hkeys
    rw [List.lookup_cons, List.lookup_cons, ih hkeys.2]
  | swap x y xs =>
    have hne : y.1 ≠ x.1 := by
      rw [List.map_cons, List.nodup_cons] at hkeys
      exact fun heq => hkeys.1 (heq ▸ List.mem_cons_self)
    rw [List.lookup_cons, List.lookup_cons, List.lookup_cons, List.lookup_cons]
    cases hx : key == x.1 <;> cases hy : key == y.1
    case true.true => exact absurd ((eq_of_beq hy).symm.trans (eq_of_beq hx)) hne
    all_goals rfl
  | trans hxy _ ihx ihy =>
    exact (ihx hkeys).trans (ihy ((hxy.map Prod.fst).nodup_iff.1 hkeys))

/-! ## Reading -/

/-- A text is read alike under the same names. -/
theorem Formula.parse_perm {names names' : List String} (h : names.Perm names') (source : String) :
    parse source names = parse source names' :=
  (parse_agree (fun _ _ => h.symm.contains_eq) h.symm.contains_eq).symm

/-! ## Evaluation -/

namespace Bindings

variable {bs bs' : Bindings}

theorem isFractional_perm (h : bs.Perm bs') : bs.isFractional = bs'.isFractional := h.any_eq

/-- Values are put into expressions in the same order. -/
theorem ordered_perm (h : bs.Perm bs') (hnames : (bs.map Prod.fst).Nodup) :
    bs.ordered = bs'.ordered := by
  have hsorted : ∀ bs : Bindings,
      (bs.mergeSort fun a b => decide (a.1 ≤ b.1)).Pairwise fun a b => a.1 ≤ b.1 := by
    intro bs
    refine (List.pairwise_mergeSort (fun a b c hab hbc => ?_) (fun a b => ?_) bs).imp
      of_decide_eq_true
    · exact decide_eq_true (String.le_trans (of_decide_eq_true hab) (of_decide_eq_true hbc))
    · simpa using String.le_total a.1 b.1
  -- bindings of one name are the same, as no name stands twice
  have hantisymm : ∀ a ∈ bs, ∀ b ∈ bs', a.1 ≤ b.1 → b.1 ≤ a.1 → a = b := fun a ha b hb hab hba =>
    List.inj_on_of_nodup_map hnames ha (h.mem_iff.2 hb) (String.le_antisymm hab hba)
  have hsame : (bs.mergeSort fun a b => decide (a.1 ≤ b.1)) =
      bs'.mergeSort fun a b => decide (a.1 ≤ b.1) := by
    refine List.Perm.eq_of_pairwise (fun a b ha hb => ?_) (hsorted bs) (hsorted bs') ?_
    · exact hantisymm a (List.mem_mergeSort.1 ha) b (List.mem_mergeSort.1 hb)
    · exact ((List.mergeSort_perm bs _).trans h).trans (List.mergeSort_perm bs' _).symm
  rw [ordered, ordered, hsame]

end Bindings

namespace Expr

variable {bs bs' : Bindings}

theorem environmentAt_perm (h : bs.Perm bs') (hnames : (bs.map Prod.fst).Nodup) :
    environmentAt bs = environmentAt bs' := by
  have hfunction : functionAt bs = functionAt bs' := by
    funext f args evs
    rw [functionAt, functionAt, Bindings.isFractional_perm h, Bindings.ordered_perm h hnames]
  rw [environmentAt, environmentAt, hfunction]
  simp only [lookup_perm h hnames]

theorem reachPlainly_perm (h : bs.Perm bs') (hnames : (bs.map Prod.fst).Nodup) (e : Expr) :
    reachPlainly bs e = reachPlainly bs' e := by
  rw [reachPlainly, reachPlainly, reachBySubstitution, reachBySubstitution,
    environmentAt_perm h hnames, Bindings.ordered_perm h hnames]

mutual

theorem reach_perm (h : bs.Perm bs') (hnames : (bs.map Prod.fst).Nodup) :
    ∀ e : Expr, reach bs e = reach bs' e
  | .app (.fn f) as => by
    rw [reach, reach, reachAll_perm h hnames as, reachPlainly_perm h hnames]
  | .rat _ | .float _ _ | .const _ | .symbol _ | .dummy _ | .app .add _ | .app .mul _
  | .app .pow _ | .app .derivative _ | .app .subs _ | .app .piecewise _ | .app .equal _
  | .app .always _ => by
    rw [reach, reach, reachPlainly_perm h hnames] <;> exact nofun

theorem reachAll_perm (h : bs.Perm bs') (hnames : (bs.map Prod.fst).Nodup) :
    ∀ es : List Expr, reachAll bs es = reachAll bs' es
  | [] => by rw [reachAll, reachAll]
  | e :: es => by
    rw [reachAll, reachAll, reach_perm h hnames e, reachAll_perm h hnames es]

end

/-- The value of an expression is the same at one point, in whatever order it is given. -/
theorem evaluate_perm (h : bs.Perm bs') (hnames : (bs.map Prod.fst).Nodup) (e : Expr) :
    e.evaluate bs = e.evaluate bs' := by
  rw [evaluate, evaluate, reach_perm h hnames]

end Expr

namespace Propagator

open Watched

/-! ## Calls that are given the same measurements -/

section

variable {ε : Type} {vs vs' : Variables}

/-- An expression has the same value where the same measurements are given. -/
theorem evaluate_bindings_perm (h : vs.Perm vs') (hnames : (vs.map Prod.fst).Nodup) (e : Expr) :
    e.evaluate (bindings vs) = e.evaluate (bindings vs') := by
  refine Expr.evaluate_perm (show (bindings vs).Perm (bindings vs') from h.map _) ?_ e
  rw [bindings, List.map_map]
  exact hnames

theorem slopes_perm (emit : Event → Call ε Unit) (h : vs.Perm vs')
    (hnames : (vs.map Prod.fst).Nodup) (f : Expr) (names : List String) :
    slopes emit f vs (bindings vs) names = slopes emit f vs' (bindings vs') names := by
  induction names with
  | nil => rfl
  | cons name names ih =>
    rw [slopes, slopes, Variables.find?, Variables.find?, lookup_perm h hnames, ih]
    simp only [Call.evaluate, evaluate_bindings_perm h hnames]

theorem parse_perm {names names' : List String} (h : names.Perm names') (source : String) :
    (Call.parse source names : Call ε Expr) = Call.parse source names' := by
  funext s
  rw [Call.parse, Call.parse, Engine.parse, Engine.parse, Formula.parse_perm h]

theorem expand_perm (emit : Event → Call ε Unit) (h : vs.Perm vs')
    (hnames : (vs.map Prod.fst).Nodup) (source : String) :
    expand emit source vs = expand emit source vs' := by
  have hparse : (Call.parse source (vs.map Prod.fst) : Call ε Expr) =
      Call.parse source (vs'.map Prod.fst) := parse_perm (h.map Prod.fst) source
  have hfind : ∀ name, vs.find? name = vs'.find? name := lookup_perm h hnames
  rw [expand, expand, hparse]
  simp only [hfind, slopes_perm emit h hnames, Call.evaluate, evaluate_bindings_perm h hnames]

/-- What a call does once it has read its variables. -/
def proceed (emit : Event → Call ε Unit) (mode : Correlation) (expression : Datum)
    (vs : Variables) : Call ε (Outcome Double) :=
  match readFormula expression with
  | .error fault => throw (.input fault)
  | .ok source => settle emit mode source vs

theorem calculate_eq_bind (emit : Event → Call ε Unit) (mode : Correlation) (expression : Datum)
    {inputs : Datum} (h : readVariables inputs = .ok vs) :
    calculate emit mode expression inputs = (do
      emit (.input expression inputs)
      proceed emit mode expression vs) := by
  rw [calculate]
  congr 1
  funext _
  rw [proceed]
  cases readFormula expression with
  | error fault => rfl
  | ok source =>
    simp only [h]
    rfl

/-- Once they have been read, the order of the variables is gone. -/
theorem proceed_perm (emit : Event → Call ε Unit) (mode : Correlation) (expression : Datum)
    (h : vs.Perm vs') (hnames : (vs.map Prod.fst).Nodup) :
    proceed emit mode expression vs = proceed emit mode expression vs' := by
  rw [proceed, proceed]
  cases readFormula expression with
  | error fault => rfl
  | ok source =>
    simp only
    rw [settle, settle, expand_perm emit h hnames]

end

/-! ## Their answers and reports -/

/-- Two maps which are accepted, and hold the same measurements under the same names. -/
structure SameVariables (inputs inputs' : Datum) : Prop where
  /-- the measurements of the first are, in some order, those of the second -/
  exists_perm : ∃ vs vs', readVariables inputs = .ok vs ∧ readVariables inputs' = .ok vs' ∧
    (vs.map Prod.fst).Nodup ∧ vs.Perm vs'

section

variable {vs vs' : Variables} {expression inputs inputs' : Datum}

theorem slopeAt_perm {S S' : Setting} (hformula : S.formula = S'.formula)
    (h : S.measured.Perm S'.measured) (hnames : (S.measured.map Prod.fst).Nodup) :
    S.slopeAt = S'.slopeAt := by
  funext name
  rw [Setting.slopeAt, Setting.slopeAt, Variables.find?, Variables.find?, lookup_perm h hnames,
    hformula, Setting.point, Setting.point, evaluate_bindings_perm h hnames]

theorem survey_congr {S S' : Setting} (h : S.slopeAt = S'.slopeAt) (names : List String) :
    S.survey names = S'.survey names := by
  induction names with
  | nil => rfl
  | cons name names ih => rw [Setting.survey, Setting.survey, h, ih]

theorem setting_perm (h : vs.Perm vs') (hnames : (vs.map Prod.fst).Nodup) (source : String) :
    setting source vs' = (setting source vs).map fun S => { S with measured := vs' } := by
  have hfind : ∀ name, vs'.find? name = vs.find? name := fun name => (lookup_perm h hnames name).symm
  rw [setting, setting, ← Formula.parse_perm (h.map Prod.fst)]
  cases Formula.parse source (vs.map Prod.fst) with
  | error fault => rfl
  | ok f =>
    simp only [unmeasured, hfind]
    cases (Formula.freeVariables f source).filter fun name => (vs.find? name).isNone <;> rfl

/-- Two calls that are given the same measurements find the same slopes and have the same answer. -/
theorem SameVariables.reference (h : SameVariables inputs inputs') (mode : Correlation)
    (expression : Datum) :
    slopesOf expression inputs = slopesOf expression inputs' ∧
      reference mode expression inputs = reference mode expression inputs' := by
  obtain ⟨vs, vs', hread, hread', hnames, hperm⟩ := h.exists_perm
  cases hs : readFormula expression with
  | error fault =>
    have hopen := readFormula_eq_error hs
    rw [slopesOf, slopesOf, reference_eq_error mode (hopen inputs),
      reference_eq_error mode (hopen inputs'), hopen, hopen]
    exact ⟨rfl, rfl⟩
  | ok source =>
    have hopen := opening_eq_setting hs hread
    have hopen' := opening_eq_setting hs hread'
    rw [setting_perm hperm hnames] at hopen'
    cases hS : setting source vs with
    | error fault =>
      rw [hS] at hopen hopen'
      rw [slopesOf, slopesOf, reference_eq_error mode hopen, reference_eq_error mode hopen', hopen,
        hopen']
      exact ⟨rfl, rfl⟩
    | ok S =>
      rw [hS] at hopen hopen'
      obtain ⟨-, rfl, -, -⟩ := setting_eq_ok hS
      have hslope : S.slopeAt = Setting.slopeAt { S with measured := vs' } :=
        slopeAt_perm rfl hperm hnames
      have hvalue : S.value = Setting.value { S with measured := vs' } := by
        rw [Setting.value, Setting.value, Setting.point, Setting.point,
          evaluate_bindings_perm hperm hnames]
      have hsurvey := survey_congr hslope
      rw [slopesOf, slopesOf, reference_eq_conclusion mode hopen,
        reference_eq_conclusion mode hopen', hopen, hopen', conclusion, conclusion, expansion,
        expansion, surveyed, surveyed, hsurvey, hvalue]
      exact ⟨congrArg Prod.fst (hsurvey S.names), rfl⟩

end

/-! ## Listeners of a session -/

section

variable {ε : Type} {emit : Event → Call ε Unit}

theorem parallel_proceed (hemit : Blind emit) (mode : Correlation) (expression : Datum)
    (vs : Variables) :
    Parallel Eq (proceed emit mode expression vs) (proceed emit mode expression vs) := by
  have hsame : ∀ event, Parallel Eq (emit event) (emit event) := fun event =>
    hemit event event ⟨rfl, rfl⟩
  rw [proceed]
  cases readFormula expression with
  | error fault => exact Parallel.throw _
  | ok source =>
    refine Parallel.compatible.bind (Parallel.compatible.expand hsame source vs) fun p => ?_
    simp only
    cases totalError mode (p.2.map term) with
    | error fault => exact Parallel.throw _
    | ok error => exact Parallel.compatible.bind (hsame _) fun _ => Parallel.pure rfl

theorem SameVariables.parallel {inputs inputs' : Datum} (h : SameVariables inputs inputs')
    (hemit : Blind emit) (mode : Correlation) (expression : Datum) :
    Parallel Eq (calculate emit mode expression inputs)
      (calculate emit mode expression inputs') := by
  obtain ⟨vs, vs', hread, hread', hnames, hperm⟩ := h.exists_perm
  rw [calculate_eq_bind emit mode expression hread, calculate_eq_bind emit mode expression hread',
    proceed_perm emit mode expression hperm hnames]
  exact (hemit (.input expression inputs) (.input expression inputs') ⟨rfl, rfl⟩).bind fun _ _ _ =>
    parallel_proceed hemit mode expression vs'

end

/-! ## Columns in another order -/

/-- Rows of a table with its columns in another order. -/
structure SameRow (entries row row' : List (Datum × Datum)) : Prop where
  /-- the keys are those of the table -/
  keys : row.map Prod.fst = entries.map Prod.fst
  /-- the row holds the same in its own order -/
  perm : row.Perm row'

theorem rows_perm {entries entries' : List (Datum × Datum)} (h : entries.Perm entries') :
    (∃ fault, rows (.mapping entries) = .error fault ∧ rows (.mapping entries') = .error fault) ∨
    ∃ table table', rows (.mapping entries) = .ok table ∧ rows (.mapping entries') = .ok table' ∧
      List.Forall₂ (SameRow entries) table table' := by
  have hoccurs : ∀ n, Occurs n entries ↔ Occurs n entries' := fun n => by
    simp only [Occurs, h.mem_iff]
  have hragged : Ragged entries ↔ Ragged entries' := by simp only [Ragged, hoccurs]
  have hrows := transposed entries
  generalize hanswer : rows (.mapping entries) = answer at hrows
  cases hrows with
  | ragged differ _ _ =>
    rw [rows_of_ragged differ] at hanswer
    refine .inl ⟨_, rfl, ?_⟩
    rw [← hanswer, rows_of_ragged (hragged.1 differ), sortedLengths_congr hoccurs]
  | constants none =>
    refine .inr ⟨_, [entries'], rfl, rows_of_constants fun n hn => none n ((hoccurs n).2 hn), ?_⟩
    exact .cons ⟨rfl, h⟩ .nil
  | @columns n _ columns _ _ =>
    have hcolumns : Columns n entries' := by
      rw [columns_iff, ← hoccurs, ← hragged]
      exact columns_iff.1 columns
    rw [columns.rows] at hanswer
    refine .inr ⟨_, _, rfl, hcolumns.rows, ?_⟩
    rw [← Except.ok.inj hanswer, List.forall₂_map_left_iff, List.forall₂_map_right_iff,
      List.forall₂_same]
    exact fun i _ => ⟨by rw [row, List.map_map]; rfl, h.map _⟩

theorem forall₂_readEntries {entries : List (Datum × Datum)} {vs : Variables} :
    readEntries entries = .ok vs ↔
      List.Forall₂ (fun e v => readVariable e.1 e.2 = .ok v) entries vs := by
  induction entries generalizing vs with
  | nil => rw [readEntries, List.forall₂_nil_left_iff, Except.ok.injEq, eq_comm]
  | cons e entries ih =>
    rw [readEntries, List.forall₂_cons_left_iff]
    cases hv : readVariable e.1 e.2 with
    | error fault => simp [bind, Except.bind]
    | ok v =>
      cases hvs : readEntries entries with
      | error fault =>
        simp only [hvs, reduceCtorEq, false_iff] at ih
        simp [bind, Except.bind, ih]
      | ok rest => simp [bind, Except.bind, pure, Except.pure, ← ih, hvs, eq_comm]

/-- Rows that are accepted hold the same measurements. -/
theorem SameRow.sameVariables {entries row row' : List (Datum × Datum)}
    (h : SameRow entries row row') (hkeys : (entries.map Prod.fst).Nodup) {vs : Variables}
    (hread : readVariables (.mapping row) = .ok vs) :
    SameVariables (.mapping row) (.mapping row') := by
  have hread : readEntries row = .ok vs := hread
  have hnames : (vs.map Prod.fst).Nodup := by
    rw [← h.keys, readEntries_names hread] at hkeys
    exact (List.Nodup.of_map Datum.text (by rwa [List.map_map]))
  obtain ⟨vs', hvs', hperm⟩ := List.perm_comp_forall₂ h.perm.symm (forall₂_readEntries.1 hread)
  exact ⟨vs, vs', hread, forall₂_readEntries.2 hvs', hnames, hperm.symm⟩

/-! ## Series -/

section

variable {ε ε' : Type} {emit : Event → Call ε Unit} {mode : Correlation} {expression : Datum}
  {entries entries' : List (Datum × Datum)}

/-- Each row of a table is a map of variables that is accepted. -/
def Accepted (entries : List (Datum × Datum)) : Prop :=
  ∀ table, rows (.mapping entries) = .ok table → ∀ r ∈ table,
    ∃ vs, readVariables (.mapping r) = .ok vs

theorem forall₂_sameVariables (hkeys : (entries.map Prod.fst).Nodup)
    {table table' : List (List (Datum × Datum))} (h : List.Forall₂ (SameRow entries) table table')
    (haccepted : ∀ r ∈ table, ∃ vs, readVariables (.mapping r) = .ok vs) :
    List.Forall₂ (fun r r' => SameVariables (.mapping r) (.mapping r')) table table' := by
  induction h with
  | nil => exact .nil
  | cons hrow _ ih =>
    obtain ⟨vs, hvs⟩ := haccepted _ List.mem_cons_self
    exact .cons (hrow.sameVariables hkeys hvs) (ih fun r hr => haccepted r (List.mem_cons_of_mem _ hr))

theorem keyNames_perm (h : entries.Perm entries') :
    (keyNames (.mapping entries)).Perm (keyNames (.mapping entries')) := by
  rw [keyNames, keyNames]
  exact h.filterMap _

/-- A series that succeeds has accepted all its rows. -/
theorem accepted_of_series {s : CallState ε} {results : List (Outcome Double)}
    (h : (series emit mode expression (.mapping entries) s).1 = .ok results) : Accepted entries := by
  intro table htable r hr
  rw [series_eq emit mode expression htable (List.ne_nil_of_mem hr)] at h
  have hresults := forall₂_reference h
  obtain ⟨i, hi, rfl⟩ := List.mem_iff_getElem.1 hr
  have hi' : i < results.length := hresults.length_eq ▸ hi
  obtain ⟨S, hS⟩ := opening_of_reference ((List.forall₂_iff_get.1 hresults).2 i hi hi')
  exact ⟨S.measured, (opening_eq_ok hS).2.1⟩

theorem parallel_rows (hemit : Blind emit) {table table' : List (List (Datum × Datum))}
    (h : List.Forall₂ (fun r r' => SameVariables (.mapping r) (.mapping r')) table table') :
    Parallel Eq (calculateRows emit mode expression table)
      (calculateRows emit mode expression table') := by
  induction h with
  | nil => exact Parallel.pure rfl
  | cons hrow _ ih =>
    exact (hrow.parallel hemit mode expression).bind fun x _ hx =>
      ih.bind fun xs _ hxs => hx ▸ hxs ▸ Parallel.pure rfl

/-- The listeners of a session do the same to both series. -/
theorem parallel_series (hemit : Blind emit) (h : entries.Perm entries')
    (hkeys : (entries.map Prod.fst).Nodup) (haccepted : Accepted entries) :
    Parallel Eq (series emit mode expression (.mapping entries))
      (series emit mode expression (.mapping entries')) := by
  rcases rows_perm h with ⟨fault, hrows, hrows'⟩ | ⟨table, table', hrows, hrows', hsame⟩
  · rw [series, series, hrows, hrows']
    exact Parallel.throw _
  have hsame := forall₂_sameVariables hkeys hsame (haccepted table hrows)
  cases table with
  | nil =>
    cases hsame
    rw [series, series, hrows, hrows']
    simp only
    have hinput : SameKind (.input expression (.mapping entries))
      (.input expression (.mapping entries')) := ⟨rfl, rfl⟩
    refine (hemit _ _ hinput).bind fun _ _ _ => ?_
    cases readFormula expression with
    | error fault => exact Parallel.throw _
    | ok source =>
      simp only
      rw [parse_perm (keyNames_perm h)]
      exact (Parallel.scope (Parallel.parse _ _)).bind fun _ _ _ => Parallel.pure rfl
  | cons r table =>
    have hne : table' ≠ [] := by
      rintro rfl
      cases hsame
    rw [series_eq emit mode expression hrows (List.cons_ne_nil r table),
      series_eq emit mode expression hrows' hne]
    exact parallel_rows hemit hsame

/-- The answer of a series as a function of its arguments. -/
def seriesReference (mode : Correlation) (expression inputs : Datum) :
    Except CallFault (List (Outcome Double)) :=
  match rows inputs with
  | .error fault => .error (.input fault)
  | .ok [] =>
    match readFormula expression with
    | .error fault => .error (.input fault)
    | .ok source =>
      match Formula.parse source (keyNames inputs) with
      | .error fault => .error (.engine (Engine.ofParseFault source fault))
      | .ok _ => .ok []
  | .ok table => table.mapM fun r => reference mode expression (.mapping r)

theorem runs_series (emit : Event → Call ε Unit) (mode : Correlation) (expression inputs : Datum)
    (s : CallState ε) :
    ∃ new,
      Runs (series (watched emit) mode expression inputs) (series emit mode expression inputs)
        s new ∧
      (Quiet new → (series emit mode expression inputs s).1 =
        seriesReference mode expression inputs) := by
  rw [seriesReference]
  rcases hrows : rows inputs with fault | _ | ⟨r, table⟩
  · rw [series, series, hrows]
    exact ⟨[], Runs.throw _ s, fun _ => rfl⟩
  · obtain ⟨new, hruns, hquiet⟩ := runs_rowless emit mode expression hrows s
    refine ⟨new, hruns, fun hq => ?_⟩
    obtain ⟨-, t, -, hattempt⟩ := hquiet hq
    rw [hattempt]
    cases hread : readFormula expression with
    | error fault => exact congrArg Prod.fst (attempt_of_noFormula hread _ t)
    | ok source => exact congrArg Prod.fst (attempt_of_formula hread _ t)
  · rw [series_eq _ mode expression hrows (List.cons_ne_nil r table),
      series_eq _ mode expression hrows (List.cons_ne_nil r table)]
    exact runs_calculateRows emit mode expression (r :: table) s

theorem series_of_quiet {inputs : Datum} {s : CallState ε}
    (quiet : Quiet (seriesEmissions emit mode expression inputs s)) :
    (series emit mode expression inputs s).1 = seriesReference mode expression inputs := by
  obtain ⟨new, hruns, hquiet⟩ := runs_series emit mode expression inputs s
  exact hquiet (seriesEmissions_eq hruns ▸ quiet)

theorem mapM_reference {table table' : List (List (Datum × Datum))}
    (h : List.Forall₂ (fun r r' => SameVariables (.mapping r) (.mapping r')) table table') :
    (table.mapM fun r => reference mode expression (.mapping r)) =
      table'.mapM fun r => reference mode expression (.mapping r) := by
  induction h with
  | nil => rfl
  | cons hrow _ ih => rw [List.mapM_cons, List.mapM_cons, (hrow.reference mode expression).2, ih]

theorem seriesReference_perm (h : entries.Perm entries') (hkeys : (entries.map Prod.fst).Nodup)
    (haccepted : Accepted entries) :
    seriesReference mode expression (.mapping entries) =
      seriesReference mode expression (.mapping entries') := by
  rw [seriesReference, seriesReference]
  rcases rows_perm h with ⟨fault, hrows, hrows'⟩ | ⟨table, table', hrows, hrows', hsame⟩
  · rw [hrows, hrows']
  have hsame := forall₂_sameVariables hkeys hsame (haccepted table hrows)
  rw [hrows, hrows']
  cases hsame with
  | nil => simp only [Formula.parse_perm (keyNames_perm h)]
  | cons hrow hrest => exact mapM_reference (.cons hrow hrest)

/-- How the answers of two series go together whose tables differ in the order of their columns. -/
structure SameResults (entries : List (Datum × Datum))
    (a a' : Except CallFault (List (Outcome Double))) : Prop where
  /-- if one of them succeeds, so does the other, with the same results -/
  results : ∀ rs, a = .ok rs ↔ a' = .ok rs
  /-- if the rows are accepted, they fail for the same reason too -/
  answer : Accepted entries → a = a'

/-- As a success shows that the rows are accepted, it is enough to compare what comes of these. -/
theorem SameResults.of_accepted {a a' : Except CallFault (List (Outcome Double))}
    (hleft : ∀ rs, a = .ok rs → Accepted entries) (hright : ∀ rs, a' = .ok rs → Accepted entries')
    (h : Accepted entries → a = a') (h' : Accepted entries' → a' = a) :
    SameResults entries a a' where
  results rs := ⟨fun ha => (h (hleft rs ha)).symm.trans ha,
    fun ha' => (h' (hright rs ha')).symm.trans ha'⟩
  answer := h

end

theorem Together.eq {α : Type} {a b : Except CallFault α} (h : Together Eq a b) : a = b := by
  cases h with
  | ok h => rw [h]
  | error fault => rfl

/-- **The order of the variables** decides on nothing.

Let two maps be accepted that hold the same measurements under the same names.  Whatever listeners
do, the calls on them do the same once each has reported its arguments.  If no listener lets a fault
escape, both have the same answer, be it a result or a fault, and report the same slopes in the same
order.  And in a session, whose listeners may change the lists, make calls and fail, alike states
lead to the same answer and to alike states.

A series whose columns are put in another order has the same results; and the same fault, if each
row is accepted by itself. -/
theorem calculate_reordered (mode : Correlation) (expression : Datum) :
    (∀ inputs inputs' : Datum, SameVariables inputs inputs' →
      (∀ {ε : Type} (emit : Event → Call ε Unit), ∃ rest,
        calculate emit mode expression inputs = (do emit (.input expression inputs); rest) ∧
        calculate emit mode expression inputs' = (do emit (.input expression inputs'); rest)) ∧
      (∀ {ε ε' : Type} (emit : Event → Call ε Unit) (emit' : Event → Call ε' Unit)
        (s : CallState ε) (s' : CallState ε'),
        Quiet (emissions emit mode expression inputs s) →
        Quiet (emissions emit' mode expression inputs' s') →
        (calculate emit mode expression inputs s).1 =
          (calculate emit' mode expression inputs' s').1 ∧
        ∃ events,
          emissions emit mode expression inputs s =
            (.input expression inputs :: events).map told ∧
          emissions emit' mode expression inputs' s' =
            (.input expression inputs' :: events).map told) ∧
      (∀ (programs : Programs) (depth : Nat), Parallel Eq
        (calculate (Session.emitAt programs mode depth) mode expression inputs)
        (calculate (Session.emitAt programs mode depth) mode expression inputs'))) ∧
    (∀ entries entries' : List (Datum × Datum), entries.Perm entries' →
      (entries.map Prod.fst).Nodup →
      (∀ {ε ε' : Type} (emit : Event → Call ε Unit) (emit' : Event → Call ε' Unit)
        (s : CallState ε) (s' : CallState ε'),
        Quiet (seriesEmissions emit mode expression (.mapping entries) s) →
        Quiet (seriesEmissions emit' mode expression (.mapping entries') s') →
        SameResults entries (series emit mode expression (.mapping entries) s).1
          (series emit' mode expression (.mapping entries') s').1) ∧
      (∀ (programs : Programs) (depth : Nat) (s s' : CallState LogEntry), Alike s s' →
        SameResults entries
          (series (Session.emitAt programs mode depth) mode expression (.mapping entries) s).1
          (series (Session.emitAt programs mode depth) mode expression (.mapping entries') s').1)) := by
  refine ⟨fun inputs inputs' h => ⟨fun emit => ?_, fun emit emit' s s' quiet quiet' => ?_,
    fun programs depth => h.parallel (blind_emitAt programs mode depth) mode expression⟩,
    fun entries entries' h hkeys => ?_⟩
  · obtain ⟨vs, vs', hread, hread', hnames, hperm⟩ := h.exists_perm
    refine ⟨_, calculate_eq_bind emit mode expression hread, ?_⟩
    rw [calculate_eq_bind emit mode expression hread', proceed_perm emit mode expression hperm hnames]
  · obtain ⟨hslopes, hanswer⟩ := h.reference mode expression
    obtain ⟨hreports, hleft⟩ := emissions_calculate quiet
    obtain ⟨hreports', hright⟩ := emissions_calculate quiet'
    refine ⟨hleft.trans (hanswer.trans hright.symm), _, hreports, ?_⟩
    rw [hreports', reports, hslopes, hanswer]
  · have hkeys' : (entries'.map Prod.fst).Nodup := (h.map Prod.fst).nodup_iff.1 hkeys
    refine ⟨fun emit emit' s s' quiet quiet' => ?_, fun programs depth s s' halike => ?_⟩
    · refine .of_accepted (fun _ => accepted_of_series) (fun _ => accepted_of_series) ?_ ?_
      all_goals rw [series_of_quiet quiet, series_of_quiet quiet']
      · exact seriesReference_perm h hkeys
      · exact seriesReference_perm h.symm hkeys'
    · have hblind := blind_emitAt programs mode depth
      refine .of_accepted (fun _ => accepted_of_series) (fun _ => accepted_of_series) ?_ ?_
      · exact fun haccepted => (parallel_series hblind h hkeys haccepted s s' halike).1.eq
      · exact fun haccepted => (parallel_series hblind h.symm hkeys' haccepted s' s
          ⟨halike.1.symm, halike.2.symm⟩).1.eq

/-- Two sides of a rectangle. -/
def sides : List (Datum × Datum) := [(.text "x", about 2), (.text "y", about 3)]

/-- The sides are given in either order, and so are the columns of a table. -/
theorem calculate_reordered_sides :
    SameVariables (.mapping sides) (.mapping sides.reverse) ∧
      Quiet (emissions unheard .uncorrelated (.text "x*y") (.mapping sides) untouched) ∧
      Quiet (emissions unheard .uncorrelated (.text "x*y") (.mapping sides.reverse) untouched) ∧
      (calculate unheard .uncorrelated (.text "x*y") (.mapping sides) untouched).1 =
        (calculate unheard .uncorrelated (.text "x*y") (.mapping sides.reverse) untouched).1 ∧
      pairs.Perm pairs.reverse ∧ (pairs.map Prod.fst).Nodup ∧
      SameResults pairs
        (series (Session.emit meddlers .uncorrelated) .uncorrelated (.text "x*y") (.mapping pairs)
          disturbed).1
        (series (Session.emit meddlers .uncorrelated) .uncorrelated (.text "x*y")
          (.mapping pairs.reverse) disturbed).1 := by
  obtain ⟨hcalculate, hseries⟩ := calculate_reordered .uncorrelated (.text "x*y")
  have hsame : SameVariables (.mapping sides) (.mapping sides.reverse) :=
    ⟨_, _, rfl, rfl, by decide +kernel, List.Perm.swap _ _ _⟩
  have quiet := quiet_unheard .uncorrelated (.text "x*y") (.mapping sides)
  have quiet' := quiet_unheard .uncorrelated (.text "x*y") (.mapping sides.reverse)
  obtain ⟨-, hanswers, -⟩ := hcalculate _ _ hsame
  have hperm : pairs.Perm pairs.reverse := (List.reverse_perm pairs).symm
  have hkeys : (pairs.map Prod.fst).Nodup := by simp [pairs]
  obtain ⟨-, hsession⟩ := hseries _ _ hperm hkeys
  exact ⟨hsame, quiet, quiet', (hanswers _ _ _ _ quiet quiet').1, hperm, hkeys,
    hsession meddlers Session.nestingDepth disturbed disturbed ⟨rfl, rfl⟩⟩

end Propagator
end ErrorBars
