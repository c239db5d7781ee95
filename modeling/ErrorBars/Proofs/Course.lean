import ErrorBars.Proofs.Account
import ErrorBars.Proofs.Compatible
import ErrorBars.Proofs.Watched

/-!
# The course of a calculation

Listeners are told of the arguments, of each slope and of the result, and may do what they like each
time: change the lists of listeners, empty the registry in which the call keeps its expressions, or
make calls of their own on the same propagator.  None of that reaches the call, because nothing that
it still needs is ever read back from the state.

`runs_calculate` is the simulation behind this, for arbitrary listeners and an arbitrary state.
As long as no listener lets a fault escape,

* the answer is `Propagator.reference` of the arguments (`calculate_eq_reference`);
* the reports are those of `Propagator.reports`, one after the other (`emissions_calculate`), which
  begin with the arguments, go through the variables in order as far as slopes can be found, and end
  with the result exactly if there is one (`emissions_course`).
-/

set_option autoImplicit false

namespace ErrorBars
namespace Propagator

open Watched

variable {ε : Type}

/-- An emission from which no listener lets a fault escape. -/
def told (event : Event) : Emission := ⟨event, none⟩

/-- No listener lets a fault escape. -/
def Quiet (ms : List Emission) : Prop := ∀ m ∈ ms, m.fault? = none

instance (ms : List Emission) : Decidable (Quiet ms) :=
  decidable_of_iff (ms.all (·.fault?.isNone)) (by simp [Quiet])

theorem not_quiet_of_fault {event : Event} {fault : CallFault} {ms : List Emission} :
    ¬ Quiet (⟨event, some fault⟩ :: ms) :=
  fun h => absurd (h _ List.mem_cons_self) (by simp)

theorem Quiet.left {ms ns : List Emission} (h : Quiet (ms ++ ns)) : Quiet ms :=
  fun m hm => h m (List.mem_append_left ns hm)

theorem Quiet.right {ms ns : List Emission} (h : Quiet (ms ++ ns)) : Quiet ns :=
  fun m hm => h m (List.mem_append_right ms hm)

/-! ## The loop over the variables -/

/-- What a survey comes to: its slopes, if all could be found. -/
def surveyed (S : Setting) (names : List String) : Except CallFault (List Differential) :=
  match S.survey names with
  | (ds, none) => .ok ds
  | (_, some fault) => .error fault

theorem surveyed_of_error {S : Setting} {name : String} {names : List String} {fault : CallFault}
    (h : S.slopeAt name = .error fault) : surveyed S (name :: names) = .error fault := by
  rw [surveyed, Setting.survey, h]

theorem surveyed_of_ok {S : Setting} {name : String} {names : List String} {d : Differential}
    (h : S.slopeAt name = .ok d) :
    surveyed S (name :: names) = (surveyed S names).map (d :: ·) := by
  rw [surveyed, Setting.survey, h, surveyed]
  rcases S.survey names with ⟨ds, _ | fault⟩ <;> rfl

/-- The state with the derivative by a variable in the registry. -/
def holding (S : Setting) (name : String) (s : CallState ε) : CallState ε :=
  { s with registry := s.registry ++ [S.formula.differentiate name] }

/-- A step of the loop that fails keeps nothing. -/
theorem runs_slopes_error (emit : Event → Call ε Unit) {S : Setting} {name : String}
    {fault : CallFault} (names : List String) (h : S.slopeAt name = .error fault)
    (s : CallState ε) :
    Runs (slopes (watched emit) S.formula S.measured S.point (name :: names))
        (slopes emit S.formula S.measured S.point (name :: names)) s [] ∧
      (slopes emit S.formula S.measured S.point (name :: names) s).1 = .error fault := by
  simp only [Setting.slopeAt] at h
  cases hm : S.measured.find? name with
  | none =>
    simp only [hm, Except.error.injEq] at h
    simp only [slopes, hm, h]
    exact ⟨Runs.throw _ s, rfl⟩
  | some m =>
    simp only [slopes, hm]
    have hd : Call.differentiate S.formula name s = (.ok _, holding S name s) := rfl
    cases he : (S.formula.differentiate name).evaluate S.point with
    | ok value => simp only [hm, he, reduceCtorEq] at h
    | error reason =>
      simp only [hm, he, Except.error.injEq] at h
      have hv : Call.evaluate (S.formula.differentiate name) S.point (holding S name s)
          = (.error fault, holding S name s) := by
        rw [Call.evaluate_apply, he, ← h]
        rfl
      refine ⟨(Runs.differentiate _ _ s).bind hd ((Runs.evaluate _ _ _).bind_of_error hv), ?_⟩
      rw [Call.bind_ok hd, Call.bind_error hv]

/-- A step of the loop that succeeds tells the listeners of the slope, and goes on where they leave
off. -/
theorem slopes_cons_ok (emit : Event → Call ε Unit) {S : Setting} {name : String}
    {d : Differential} (names : List String) (h : S.slopeAt name = .ok d) :
    slopes emit S.formula S.measured S.point (name :: names) = (do
      let _ ← Call.differentiate S.formula name
      emit (.differential d)
      let rest ← slopes emit S.formula S.measured S.point names
      return d :: rest) := by
  funext s
  have hd : Call.differentiate S.formula name s = (.ok _, holding S name s) := rfl
  obtain ⟨hname, hm, hexpr, he, hc⟩ := S.slopeAt_eq_ok h
  rw [hexpr] at he
  have hv : Call.evaluate (S.formula.differentiate name) S.point (holding S name s)
      = (.ok d.value, holding S name s) := by
    rw [Call.evaluate_apply, he]
    rfl
  have hslope : slope d.value name d.measurement (S.formula.differentiate name) = d := by
    rw [slope, ← hc, ← hexpr, ← hname]
  simp only [slopes, hm]
  rw [Call.bind_ok hd, Call.bind_ok hv, Call.bind_ok hd, hslope]

/-- **The loop follows the survey.**  The listeners are told of one slope after the other.  The
induction carries an arbitrary state, since each of them may have left any state behind. -/
theorem runs_slopes (emit : Event → Call ε Unit) (S : Setting) (names : List String) :
    ∀ s, ∃ new,
      Runs (slopes (watched emit) S.formula S.measured S.point names)
        (slopes emit S.formula S.measured S.point names) s new ∧
      (Quiet new → new = (S.survey names).1.map (told ∘ .differential) ∧
        (slopes emit S.formula S.measured S.point names s).1 = surveyed S names) := by
  induction names with
  | nil => exact fun s => ⟨[], Runs.pure [] s, fun _ => ⟨rfl, rfl⟩⟩
  | cons name names ih =>
    intro s
    cases h : S.slopeAt name with
    | error fault =>
      obtain ⟨hruns, hanswer⟩ := runs_slopes_error emit names h s
      refine ⟨[], hruns, fun _ => ⟨?_, ?_⟩⟩
      · rw [Setting.survey, h]; rfl
      · rw [hanswer, surveyed_of_error h]
    | ok d =>
      have hd : Call.differentiate S.formula name s = (.ok _, holding S name s) := rfl
      rw [slopes_cons_ok emit names h, slopes_cons_ok (watched emit) names h, Call.bind_ok hd,
        Setting.survey, h, surveyed_of_ok h]
      have htell := Runs.emit emit (.differential d) (holding S name s)
      rcases he : emit (.differential d) (holding S name s) with ⟨fault | _, t⟩
      · refine ⟨_, (Runs.differentiate _ _ s).bind hd (htell.bind_of_error he), fun hq => ?_⟩
        rw [he] at hq
        exact absurd hq not_quiet_of_fault
      · obtain ⟨more, hruns, hquiet⟩ := ih t
        rw [he] at htell
        rw [Call.bind_ok he]
        refine ⟨told (.differential d) :: more, ?_, fun hq => ?_⟩
        · refine (Runs.differentiate _ _ s).bind hd (htell.bind he ?_)
          rcases hs : slopes emit S.formula S.measured S.point names t with ⟨fault | ds, u⟩
          · exact hruns.bind_of_error hs
          · exact List.append_nil more ▸ hruns.bind hs (Runs.pure (d :: ds) u)
        · obtain ⟨hmore, hanswer⟩ := hquiet fun m hm => hq m (List.mem_cons_of_mem _ hm)
          rw [hmore, ← hanswer, Call.bind_apply]
          refine ⟨rfl, ?_⟩
          rcases slopes emit S.formula S.measured S.point names t with ⟨fault | ds, u⟩ <;> rfl

/-! ## Inside the scope -/

/-- Without a setting nothing is told. -/
theorem runs_expand_error (emit : Event → Call ε Unit) {source : String} {vs : Variables}
    {fault : CallFault} (h : setting source vs = .error fault) (s : CallState ε) :
    Runs (expand (watched emit) source vs) (expand emit source vs) s [] ∧
      (expand emit source vs s).1 = .error fault := by
  rw [setting] at h
  rw [expand, expand, Call.scope_apply]
  cases hf : Formula.parse source (vs.map Prod.fst) with
  | error reason =>
    simp only [hf, Except.error.injEq] at h
    refine ⟨((Runs.parse _ _ s).bind_of_error (Call.parse_error hf s)).scope, ?_⟩
    rw [Call.bind_error (Call.parse_error hf s), ← h]
  | ok f =>
    simp only [hf] at h
    cases hm : unmeasured source vs f with
    | nil => simp only [hm, reduceCtorEq] at h
    | cons name names =>
      simp only [hm, Except.error.injEq] at h
      rw [Call.bind_ok (Call.parse_ok hf s)]
      rw [unmeasured] at hm
      simp only [hm]
      refine ⟨((Runs.parse _ _ s).bind (Call.parse_ok hf s) ?_).scope, ?_⟩
      · simp only [hm]
        exact Runs.throw _ _
      · rw [← h]
        rfl

/-- With a setting, the scope holds the loop over its variables and the value. -/
theorem expand_of_setting (emit : Event → Call ε Unit) {source : String} {vs : Variables}
    {S : Setting} (h : setting source vs = .ok S) :
    expand emit source vs = Call.scope (do
      let _ ← Call.parse source (vs.map Prod.fst)
      let ds ← slopes emit S.formula S.measured S.point S.names
      let value ← Call.evaluate S.formula S.point
      return (value, ds)) := by
  obtain ⟨hsource, rfl, hf, hm⟩ := setting_eq_ok h
  have hempty : unmeasured source S.measured S.formula = [] := by
    rw [unmeasured, List.filter_eq_nil_iff]
    intro name hname
    rw [← hsource] at hname
    simpa [Option.isSome_iff_ne_none] using hm name hname
  rw [unmeasured] at hempty
  rw [expand]
  congr 1
  funext s
  rw [Call.bind_ok (Call.parse_ok hf s), Call.bind_ok (Call.parse_ok hf s)]
  simp only [hempty]
  rw [Setting.names, hsource, Setting.point]

/-- What a setting comes to: its value and its slopes. -/
def expansion (S : Setting) : Except CallFault (Double × List Differential) := do
  let ds ← surveyed S S.names
  let value ← S.value
  return (value, ds)

/-- The scope tells the listeners of the slopes of the survey, and gives the expansion. -/
theorem runs_expand (emit : Event → Call ε Unit) {source : String} {vs : Variables} {S : Setting}
    (h : setting source vs = .ok S) (s : CallState ε) :
    ∃ new, Runs (expand (watched emit) source vs) (expand emit source vs) s new ∧
      (Quiet new → new = (S.survey S.names).1.map (told ∘ .differential) ∧
        (expand emit source vs s).1 = expansion S) := by
  have hf := Call.parse_ok (setting_eq_ok h).2.2.1 s
  rw [expand_of_setting emit h, expand_of_setting (watched emit) h, Call.scope_apply,
    Call.bind_ok hf]
  obtain ⟨new, hruns, hquiet⟩ :=
    runs_slopes emit S S.names { s with registry := s.registry ++ [S.formula] }
  refine ⟨new, ((Runs.parse _ _ s).bind hf ?_).scope, fun hq => ?_⟩
  · rcases hs : slopes emit S.formula S.measured S.point S.names
      { s with registry := s.registry ++ [S.formula] } with ⟨fault | ds, t⟩
    · exact hruns.bind_of_error hs
    · have hv : Runs (do let value ← Call.evaluate S.formula S.point; return (value, ds))
          (do let value ← Call.evaluate S.formula S.point; return (value, ds)) t ([] ++ []) := by
        rcases he : (Call.evaluate S.formula S.point : Call ε Double) t with ⟨fault | value, u⟩
        · exact (Runs.evaluate _ _ t).bind_of_error he
        · exact (Runs.evaluate _ _ t).bind he (Runs.pure _ u)
      exact List.append_nil new ▸ hruns.bind hs hv
  · obtain ⟨hnew, hanswer⟩ := hquiet hq
    refine ⟨hnew, ?_⟩
    rw [expansion, ← hanswer, Call.bind_apply]
    rcases slopes emit S.formula S.measured S.point S.names
      { s with registry := s.registry ++ [S.formula] } with ⟨fault | ds, t⟩
    · rfl
    · show _ = (S.value.bind fun value => .ok (value, ds))
      simp only [Call.bind_apply, Call.evaluate_apply]
      rw [Setting.value]
      cases S.formula.evaluate S.point <;> rfl

/-! ## The whole calculation -/

/-- The slopes that a calculation finds. -/
def slopesOf (expression inputs : Datum) : List Differential :=
  match opening expression inputs with
  | .error _ => []
  | .ok S => (S.survey S.names).1

/-- The report of a result, if there is one. -/
def resultReport : Except CallFault (Outcome Double) → List Event
  | .ok r => [.result r]
  | .error _ => []

/-- **The reports of a calculation** as a function of its arguments and the correlation mode. -/
def reports (mode : Correlation) (expression inputs : Datum) : List Event :=
  .input expression inputs :: ((slopesOf expression inputs).map Event.differential ++
    resultReport (reference mode expression inputs))

/-- The answer of a setting. -/
def conclusion (mode : Correlation) (S : Setting) : Except CallFault (Outcome Double) := do
  let (value, ds) ← expansion S
  let error ← totalError mode (ds.map term)
  return ⟨value, error⟩

theorem reference_eq_conclusion (mode : Correlation) {expression inputs : Datum} {S : Setting}
    (h : opening expression inputs = .ok S) :
    reference mode expression inputs = conclusion mode S := by
  rw [reference, h, conclusion, expansion]
  show (S.names.mapM S.slopeAt >>= _) = _
  rw [S.mapM_slopeAt, surveyed]
  rcases S.survey S.names with ⟨ds, _ | fault⟩
  · simp only [bind, Except.bind]
    cases S.value <;> rfl
  · rfl

theorem reference_eq_error (mode : Correlation) {expression inputs : Datum} {fault : CallFault}
    (h : opening expression inputs = .error fault) :
    reference mode expression inputs = .error fault := by
  rw [reference, h]
  rfl

/-- What is left of a calculation once its arguments have been read. -/
def settle (emit : Event → Call ε Unit) (mode : Correlation) (source : String) (vs : Variables) :
    Call ε (Outcome Double) := do
  let (value, ds) ← expand emit source vs
  match totalError mode (ds.map term) with
  | .error fault => throw fault
  | .ok error => do
    emit (.result ⟨value, error⟩)
    return ⟨value, error⟩

/-- With a setting, the slopes are told, and then the result, if there is one. -/
theorem runs_settle (emit : Event → Call ε Unit) (mode : Correlation) {source : String}
    {vs : Variables} {S : Setting} (h : setting source vs = .ok S) (s : CallState ε) :
    ∃ new, Runs (settle (watched emit) mode source vs) (settle emit mode source vs) s new ∧
      (Quiet new →
        new = ((S.survey S.names).1.map Event.differential ++
          resultReport (conclusion mode S)).map told ∧
        (settle emit mode source vs s).1 = conclusion mode S) := by
  obtain ⟨new, hruns, hquiet⟩ := runs_expand emit h s
  rw [settle, settle]
  rcases hx : expand emit source vs s with ⟨fault | ⟨value, ds⟩, t⟩
  · refine ⟨new, hruns.bind_of_error hx, fun hq => ?_⟩
    obtain ⟨hnew, hanswer⟩ := hquiet hq
    rw [hx] at hanswer
    have hc : conclusion mode S = .error fault := by
      rw [conclusion, ← hanswer]
      rfl
    rw [Call.bind_error hx, hc, hnew]
    simp [resultReport]
  · rw [Call.bind_ok hx]
    rw [hx] at hquiet
    simp only
    cases ht : totalError mode (ds.map term) with
    | error fault =>
      refine ⟨new ++ [], hruns.bind hx ?_, fun hq => ?_⟩
      · simp only [ht]
        exact Runs.throw fault t
      · obtain ⟨hnew, hanswer⟩ := hquiet hq.left
        have hc : conclusion mode S = .error fault := by
          rw [conclusion, ← hanswer]
          simp only [bind, Except.bind, ht]
        rw [hc, hnew]
        simp [resultReport]
    | ok error =>
      have htell := Runs.emit emit (.result ⟨value, error⟩) t
      rcases he : emit (.result ⟨value, error⟩) t with ⟨fault | _, u⟩
      · rw [he] at htell
        refine ⟨new ++ [⟨.result ⟨value, error⟩, some fault⟩], hruns.bind hx ?_, fun hq => ?_⟩
        · simp only [ht]
          exact htell.bind_of_error he
        · exact absurd hq.right not_quiet_of_fault
      · rw [he] at htell
        refine ⟨new ++ ([told (.result ⟨value, error⟩)] ++ []), hruns.bind hx ?_, fun hq => ?_⟩
        · simp only [ht]
          exact htell.bind he (Runs.pure _ u)
        · obtain ⟨hnew, hanswer⟩ := hquiet hq.left
          have hc : conclusion mode S = .ok ⟨value, error⟩ := by
            rw [conclusion, ← hanswer]
            simp only [bind, Except.bind, ht, pure, Except.pure]
          rw [hc, hnew]
          simp only
          rw [Call.bind_ok he]
          simp [resultReport]

/-- **The simulation.**  A watched calculation does what the calculation does, and as long as its
listeners are quiet, the answer and the reports are those that the arguments alone determine. -/
theorem runs_calculate (emit : Event → Call ε Unit) (mode : Correlation)
    (expression inputs : Datum) (s : CallState ε) :
    ∃ new,
      Runs (calculate (watched emit) mode expression inputs)
        (calculate emit mode expression inputs) s new ∧
      (Quiet new → new = (reports mode expression inputs).map told ∧
        (calculate emit mode expression inputs s).1 = reference mode expression inputs) := by
  have htell := Runs.emit emit (.input expression inputs) s
  rw [calculate, calculate]
  rcases he : emit (.input expression inputs) s with ⟨fault | _, t⟩
  · refine ⟨_, htell.bind_of_error he, fun hq => ?_⟩
    rw [he] at hq
    exact absurd hq not_quiet_of_fault
  · rw [he] at htell
    rw [Call.bind_ok he]
    cases hs : readFormula expression with
    | error reason =>
      have hopen : opening expression inputs = .error (.input reason) := by
        rw [opening, hs]
        rfl
      refine ⟨[told (.input expression inputs)] ++ [], htell.bind he ?_, fun _ => ?_⟩
      · exact Runs.throw _ t
      · rw [reports, slopesOf, reference_eq_error mode hopen, hopen]
        exact ⟨rfl, rfl⟩
    | ok source =>
      cases hv : readVariables inputs with
      | error reason =>
        have hopen : opening expression inputs = .error (ofVariablesFault reason) := by
          rw [opening, hs, hv]
          rfl
        refine ⟨[told (.input expression inputs)] ++ [], htell.bind he ?_, fun _ => ?_⟩
        · exact Runs.throw _ t
        · rw [reports, slopesOf, reference_eq_error mode hopen, hopen]
          exact ⟨rfl, rfl⟩
      | ok vs =>
        have hsetting : opening expression inputs = setting source vs := by
          rw [opening, hs, hv]
          rfl
        simp only
        cases hS : setting source vs with
        | error fault =>
          rw [hS] at hsetting
          obtain ⟨hruns, hanswer⟩ := runs_expand_error emit hS t
          rcases hx : expand emit source vs t with ⟨other | p, u⟩
          · rw [hx] at hanswer
            refine ⟨[told (.input expression inputs)] ++ [],
              htell.bind he (hruns.bind_of_error hx), fun _ => ?_⟩
            rw [reports, slopesOf, reference_eq_error mode hsetting, hsetting,
              Call.bind_error hx, ← Except.error.inj hanswer]
            exact ⟨rfl, rfl⟩
          · rw [hx] at hanswer
            exact absurd hanswer (by simp)
        | ok S =>
          rw [hS] at hsetting
          obtain ⟨more, hruns, hquiet⟩ := runs_settle emit mode hS t
          refine ⟨told (.input expression inputs) :: more, htell.bind he hruns, fun hq => ?_⟩
          obtain ⟨hmore, hanswer⟩ := hquiet fun m hm => hq m (List.mem_cons_of_mem _ hm)
          rw [reports, slopesOf, reference_eq_conclusion mode hsetting, hsetting, hmore]
          exact ⟨rfl, hanswer⟩

/-- A watched calculation keeps what it hands over, and answers as the calculation does. -/
theorem emissions_eq {emit : Event → Call ε Unit} {mode : Correlation} {expression inputs : Datum}
    {s : CallState ε} {new : List Emission}
    (h : Runs (calculate (watched emit) mode expression inputs)
      (calculate emit mode expression inputs) s new) :
    emissions emit mode expression inputs s = new := by
  rw [emissions, h [], emissionsIn_frame, List.nil_append]

/-- As long as the listeners are quiet, the answer and the reports are functions of the arguments. -/
theorem emissions_calculate {emit : Event → Call ε Unit} {mode : Correlation}
    {expression inputs : Datum} {s : CallState ε}
    (quiet : Quiet (emissions emit mode expression inputs s)) :
    emissions emit mode expression inputs s = (reports mode expression inputs).map told ∧
      (calculate emit mode expression inputs s).1 = reference mode expression inputs := by
  obtain ⟨new, hruns, hquiet⟩ := runs_calculate emit mode expression inputs s
  rw [emissions_eq hruns] at quiet ⊢
  exact hquiet quiet

/-- What quiet listeners are told of. -/
theorem map_event_emissions {emit : Event → Call ε Unit} {mode : Correlation}
    {expression inputs : Datum} {s : CallState ε}
    (quiet : Quiet (emissions emit mode expression inputs s)) :
    (emissions emit mode expression inputs s).map (·.event) = reports mode expression inputs := by
  rw [(emissions_calculate quiet).1, List.map_map]
  exact List.map_id _

/-! ## Faults that listeners let escape -/

/-- A watched call that stays quiet, or ends with a fault that a listener lets escape. -/
def QuietOrFails {α : Type} (emit : Event → Call ε Unit) (a : Call (Emission ⊕ ε) α) : Prop :=
  ∀ s, Quiet (emissionsIn s) → Quiet (emissionsIn (a s).2) ∨
    ∃ event t fault, (emit event t).1 = .error fault ∧ (a s).1 = .error fault

theorem compatible_quietOrFails (emit : Event → Call ε Unit) :
    @Compatible (Emission ⊕ ε) (Emission ⊕ ε) fun a _ => QuietOrFails emit a where
  pure _ := fun _ h => .inl h
  throw _ := fun _ h => .inl h
  bind {_ _ a _ f _} ha hf := by
    intro s h
    have ht := ha s h
    rcases hs : a s with ⟨fault | x, t⟩
    · rw [Call.bind_error hs]
      rw [hs] at ht
      refine ht.imp_right ?_
      rintro ⟨event, u, _, he, ⟨rfl⟩⟩
      exact ⟨event, u, fault, he, rfl⟩
    · rw [Call.bind_ok hs]
      rw [hs] at ht
      rcases ht with hquiet | ⟨_, _, _, -, hfault⟩
      · exact hf x t hquiet
      · cases hfault
  scope ha := fun s h => ha s h
  parse source names := by
    intro s h
    cases hf : Formula.parse source names with
    | error fault => rw [Call.parse_error hf]; exact .inl h
    | ok e => rw [Call.parse_ok hf]; exact .inl h
  differentiate _ _ := fun _ h => .inl h

/-- The only faults among the reports of a calculation are those with which it ends. -/
theorem quiet_or_fails (emit : Event → Call ε Unit) (mode : Correlation)
    (expression inputs : Datum) (s : CallState ε) :
    Quiet (emissions emit mode expression inputs s) ∨ ∃ event t fault,
      (emit event t).1 = .error fault ∧
        (calculate emit mode expression inputs s).1 = .error fault := by
  have hemit : ∀ event, QuietOrFails emit (watched emit event) := by
    intro event t ht
    cases he : (emit event (bare t)).1 with
    | error fault => exact .inr ⟨event, bare t, fault, he, he⟩
    | ok _ =>
      refine .inl ?_
      rw [watched, emissionsIn_frame, he]
      intro m hm
      rcases List.mem_append.1 hm with hm | hm
      · exact ht m hm
      · rw [List.mem_singleton.1 hm]
        rfl
  obtain ⟨new, hruns, -⟩ := runs_calculate emit mode expression inputs s
  have hnothing : Quiet (emissionsIn (frame [] s)) := by
    rw [emissionsIn_frame]
    exact fun m hm => absurd hm List.not_mem_nil
  have h := @Compatible.calculate _ _ _ (watched emit) (watched emit) (compatible_quietOrFails emit)
    hemit mode expression inputs (frame [] s) hnothing
  rwa [hruns [], emissionsIn_frame, List.nil_append, ← emissions_eq hruns] at h

/-- Where a calculation succeeds, no listener has let a fault escape. -/
theorem quiet_of_ok {emit : Event → Call ε Unit} {mode : Correlation} {expression inputs : Datum}
    {s : CallState ε} {r : Outcome Double}
    (h : (calculate emit mode expression inputs s).1 = .ok r) :
    Quiet (emissions emit mode expression inputs s) := by
  refine (quiet_or_fails emit mode expression inputs s).resolve_right ?_
  rintro ⟨_, _, _, -, hfault⟩
  rw [h] at hfault
  cases hfault

/-- A calculation that succeeds has the result that its arguments determine. -/
theorem reference_of_ok {emit : Event → Call ε Unit} {mode : Correlation}
    {expression inputs : Datum} {s : CallState ε} {r : Outcome Double}
    (h : (calculate emit mode expression inputs s).1 = .ok r) :
    reference mode expression inputs = .ok r :=
  (emissions_calculate (quiet_of_ok h)).2.symm.trans h

end Propagator
end ErrorBars
