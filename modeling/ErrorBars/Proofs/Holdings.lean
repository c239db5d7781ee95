import ErrorBars.Engine.Script
import Mathlib.Data.List.DropRight
import Mathlib.Data.List.Infix

/-!
# What an engine holds

A script is carried out operation by operation, in scopes that stand inside each other to any depth
and are left at their ends or by a fault.  `momentsOf` lists the moments of such a run, one behind
each operation and one behind each scope, in the order in which they come: what the operation meant
for the registry (`Mark`), and the registry at that moment.

The marks are read off the answers of the engine, not off its registry.  `registry_moments` says
that they account for it all the same: at each moment the registry holds what was given back since
it was last emptied (`heldAfter`).  It also says that a scope passes on the faults that leave it as
they are.
-/

set_option autoImplicit false

namespace ErrorBars.Engine

/-! ## Moments -/

/-- What an operation means for the registry. -/
inductive Mark where
  /-- an expression has been read or derived, and was given back -/
  | gave (e : Expr)
  /-- the registry was to be emptied, or a scope has ended -/
  | emptied
  /-- the operation has failed, or it only looks -/
  | idle

namespace Mark

/-- Whether a mark stands for an emptied registry. -/
def isEmptied : Mark → Bool
  | .emptied => true
  | _ => false

/-- The expression that was given back. -/
def given? : Mark → Option Expr
  | .gave e => some e
  | _ => none

end Mark

/-- A moment of a run, right behind an operation. -/
structure Moment where
  /-- what the operation meant for the registry -/
  mark : Mark
  /-- the registry -/
  registry : Registry

/-- What a step means for the registry when all inside it is done. -/
def Step.mark (b : Bench) : Step → Mark
  | .parse source names =>
    match (Engine.parse source names b.registry).1 with
    | .ok e => .gave e
    | .error _ => .idle
  | .differentiate target name =>
    match b.history[target]? with
    | some e => .gave (Engine.differentiate e name b.registry).1
    | none => .idle
  | .evaluate .. => .idle
  | .freeVariables .. => .idle
  | .expressions => .idle
  | .clear => .emptied
  | .scope .. => .emptied

mutual

/-- The moments of a step. -/
def moments : Step → Bench → List Moment
  | .scope steps gathers failure, b =>
    momentsOf gathers steps b ++ [⟨.emptied, (run (.scope steps gathers failure) b).2.registry⟩]
  | step, b => [⟨step.mark b, (run step b).2.registry⟩]

/-- The moments of several steps, which go on behind a fault if faults are gathered. -/
def momentsOf (gathers : Bool) : List Step → Bench → List Moment
  | [], _ => []
  | step :: rest, b =>
    moments step b ++
      if gathers || (run step b).1.isOk then momentsOf gathers rest (run step b).2 else []

end

/-- What several steps leave behind. -/
def finish (gathers : Bool) (steps : List Step) (b : Bench) : Bench :=
  if gathers then (runAll steps b).2 else (runUntilFault steps b).2

/-- What was given back since the registry was last emptied, with repetitions. -/
def heldAfter (marks : List Mark) : Registry :=
  (marks.rtakeWhile fun m => !m.isEmptied).filterMap Mark.given?

/-! ## What marks account for -/

@[simp] theorem heldAfter_nil : heldAfter [] = [] := rfl

@[simp] theorem heldAfter_gave (marks : List Mark) (e : Expr) :
    heldAfter (marks ++ [.gave e]) = heldAfter marks ++ [e] := by
  simp [heldAfter, Mark.isEmptied, Mark.given?]

@[simp] theorem heldAfter_idle (marks : List Mark) :
    heldAfter (marks ++ [.idle]) = heldAfter marks := by
  simp [heldAfter, Mark.isEmptied, Mark.given?]

@[simp] theorem heldAfter_emptied (marks : List Mark) : heldAfter (marks ++ [.emptied]) = [] := by
  simp [heldAfter, Mark.isEmptied]

/-- At each of some moments, the registry is what the marks up to it account for, where others have
come before. -/
def Accounted (marks : List Mark) : List Moment → Prop
  | [] => True
  | m :: ms => m.registry = heldAfter (marks ++ [m.mark]) ∧ Accounted (marks ++ [m.mark]) ms

theorem accounted_append {marks : List Mark} {ms ns : List Moment} :
    Accounted marks (ms ++ ns) ↔ Accounted marks ms ∧ Accounted (marks ++ ms.map (·.mark)) ns := by
  induction ms generalizing marks with
  | nil => simp [Accounted]
  | cons m ms ih => simp [Accounted, ih, and_assoc]

/-- What is accounted for, moment by moment. -/
theorem Accounted.map_registry {marks : List Mark} {ms : List Moment} (h : Accounted marks ms) :
    ms.map (·.registry) =
      (ms.map (·.mark)).inits.tail.map fun beginning => heldAfter (marks ++ beginning) := by
  induction ms generalizing marks with
  | nil => rfl
  | cons m ms ih =>
    obtain ⟨hm, hms⟩ := h
    cases ms with
    | nil => simp [hm]
    | cons n ns =>
      rw [List.map_cons, ih hms, hm]
      simp

/-! ## Single steps -/

/-- An operation leaves in the registry what its mark says. -/
theorem registry_run_of_mark {marks : List Mark} {b : Bench} (h : b.registry = heldAfter marks)
    (step : Step) : (run step b).2.registry = heldAfter (marks ++ [step.mark b]) := by
  cases step with
  | parse source names =>
    rw [run, Step.mark, Engine.parse]
    cases Formula.parse source names with
    | error fault => simpa using h
    | ok e => simp [giveBack, h]
  | differentiate target name =>
    rw [run, onHistory, Step.mark]
    cases b.history[target]? with
    | none => simpa using h
    | some e => simp [giveBack, Engine.differentiate, h]
  | evaluate target bindings =>
    rw [run, onHistory, Step.mark, heldAfter_idle, ← h]
    cases b.history[target]? with
    | none => rfl
    | some e =>
      simp only
      cases e.evaluate bindings <;> rfl
  | freeVariables target source =>
    rw [run, onHistory, Step.mark, heldAfter_idle, ← h]
    cases b.history[target]? <;> rfl
  | expressions => rw [run, Step.mark, heldAfter_idle, ← h]
  | clear => rw [run, Step.mark, heldAfter_emptied]
  | scope steps gathers failure =>
    rw [run, Step.mark, heldAfter_emptied]
    cases gathers with
    | true =>
      simp only [if_true]
      cases written (runAll steps b).1 <;> rfl
    | false =>
      simp only [Bool.false_eq_true, if_false]
      cases (runUntilFault steps b).1 <;> rfl

/-- What fails or only looks changes nothing.  Any registry is accounted for by some marks, one for
each expression. -/
theorem registry_run_of_idle {step : Step} {b : Bench} (h : step.mark b = .idle) :
    (run step b).2.registry = b.registry := by
  have hgiven : b.registry = heldAfter (b.registry.map .gave) := by
    induction b.registry using List.reverseRecOn with
    | nil => rfl
    | append_singleton es e ih => rw [List.map_append, List.map_singleton, heldAfter_gave, ← ih]
  rw [registry_run_of_mark hgiven, h, heldAfter_idle, ← hgiven]

/-- The last moment of a step is the one that its mark stands for; what comes before it, in a scope,
makes no difference. -/
theorem heldAfter_moments (marks : List Mark) (step : Step) (b : Bench) :
    heldAfter (marks ++ (moments step b).map (·.mark)) = heldAfter (marks ++ [step.mark b]) := by
  cases step with
  | scope steps gathers failure =>
    rw [moments, List.map_append, ← List.append_assoc, List.map_singleton, Step.mark,
      heldAfter_emptied, heldAfter_emptied]
  | _ => rfl

/-! ## Whole runs -/

mutual

/-- The moments of a step are accounted for, whatever the engine held before it. -/
theorem accounted_moments (step : Step) {marks : List Mark} {b : Bench}
    (h : b.registry = heldAfter marks) : Accounted marks (moments step b) := by
  match step with
  | .scope steps gathers failure =>
    rw [moments, accounted_append]
    refine ⟨accounted_momentsOf gathers steps h, ?_, trivial⟩
    rw [registry_run_of_mark h, Step.mark, heldAfter_emptied, heldAfter_emptied]
  | .parse .. => exact ⟨registry_run_of_mark h _, trivial⟩
  | .differentiate .. => exact ⟨registry_run_of_mark h _, trivial⟩
  | .evaluate .. => exact ⟨registry_run_of_mark h _, trivial⟩
  | .freeVariables .. => exact ⟨registry_run_of_mark h _, trivial⟩
  | .expressions => exact ⟨registry_run_of_mark h _, trivial⟩
  | .clear => exact ⟨registry_run_of_mark h _, trivial⟩

/-- The moments of several steps are accounted for. -/
theorem accounted_momentsOf (gathers : Bool) (steps : List Step) {marks : List Mark} {b : Bench}
    (h : b.registry = heldAfter marks) : Accounted marks (momentsOf gathers steps b) := by
  match steps with
  | [] => trivial
  | step :: rest =>
    rw [momentsOf, accounted_append]
    refine ⟨accounted_moments step h, ?_⟩
    split
    · refine accounted_momentsOf gathers rest ?_
      rw [registry_run_of_mark h, heldAfter_moments]
    · trivial

end

/-- What is left of the steps behind the first one. -/
theorem finish_cons (gathers : Bool) (step : Step) (rest : List Step) (b : Bench) :
    finish gathers (step :: rest) b =
      if gathers || (run step b).1.isOk then finish gathers rest (run step b).2
      else (run step b).2 := by
  cases gathers with
  | true => rfl
  | false =>
    rw [finish, finish, runUntilFault]
    rcases run step b with ⟨fault | answer, b'⟩
    · rfl
    · simp only [Bool.false_eq_true, if_false, Bool.false_or]
      rcases runUntilFault rest b' with ⟨fault | answers, b''⟩ <;> rfl

/-- Several steps leave in the registry what all their marks account for. -/
theorem registry_finish (gathers : Bool) (steps : List Step) {marks : List Mark} {b : Bench}
    (h : b.registry = heldAfter marks) :
    (finish gathers steps b).registry =
      heldAfter (marks ++ (momentsOf gathers steps b).map (·.mark)) := by
  induction steps generalizing marks b with
  | nil =>
    rw [momentsOf, List.map_nil, List.append_nil, ← h]
    cases gathers <;> rfl
  | cons step rest ih =>
    have hstep : (run step b).2.registry =
        heldAfter (marks ++ (moments step b).map (·.mark)) := by
      rw [registry_run_of_mark h, heldAfter_moments]
    rw [finish_cons, momentsOf]
    split
    · rw [ih hstep, List.map_append, List.append_assoc]
    · rw [hstep, List.append_nil]

/-! ## Faults that leave a scope -/

theorem runUntilFault_of_error {step : Step} {b b' : Bench} {fault : StepFault}
    (h : run step b = (.error fault, b')) (rest : List Step) :
    runUntilFault (step :: rest) b = (.error fault, b') := by
  rw [runUntilFault, h]

theorem runUntilFault_of_ok {step : Step} {b b' : Bench} {answer : Answer}
    (h : run step b = (.ok answer, b')) (rest : List Step) :
    runUntilFault (step :: rest) b =
      ((runUntilFault rest b').1.map (answer :: ·), (runUntilFault rest b').2) := by
  rw [runUntilFault, h]
  rcases hr : runUntilFault rest b' with ⟨fault | answers, b''⟩ <;> simp [hr, Except.map]

/-- Steps that are carried out up to the first fault fail if all before one of them succeed and that
one fails; and the fault is that one's. -/
theorem runUntilFault_eq_error_iff {steps : List Step} {b : Bench} {fault : StepFault} :
    (runUntilFault steps b).1 = .error fault ↔
      ∃ before step rest answers, steps = before ++ step :: rest ∧
        (runUntilFault before b).1 = .ok answers ∧
        (run step (runUntilFault before b).2).1 = .error fault := by
  constructor
  · intro h
    induction steps generalizing b with
    | nil => exact absurd h nofun
    | cons first others ih =>
      rcases hr : run first b with ⟨other | answer, b'⟩
      · rw [runUntilFault_of_error hr] at h
        obtain rfl := Except.error.inj h
        exact ⟨[], first, others, [], rfl, rfl, congrArg Prod.fst hr⟩
      · rw [runUntilFault_of_ok hr] at h
        have hothers : (runUntilFault others b').1 = .error fault := by
          cases ho : (runUntilFault others b').1 with
          | error other => rwa [ho] at h
          | ok answers =>
            rw [ho] at h
            exact absurd h nofun
        obtain ⟨before, step, rest, answers, rfl, hbefore, hstep⟩ := ih hothers
        refine ⟨first :: before, step, rest, answer :: answers, rfl, ?_, ?_⟩
        · rw [runUntilFault_of_ok hr, hbefore]
          rfl
        · rwa [runUntilFault_of_ok hr]
  · rintro ⟨before, step, rest, answers, rfl, hbefore, hstep⟩
    induction before generalizing b answers with
    | nil =>
      rcases hr : run step b with ⟨other | answer, b'⟩
      · rw [List.nil_append, runUntilFault_of_error hr]
        obtain rfl := Except.error.inj ((congrArg Prod.fst hr).symm.trans hstep)
        rfl
      · exact absurd ((congrArg Prod.fst hr).symm.trans hstep) nofun
    | cons first before ih =>
      rcases hr : run first b with ⟨other | answer, b'⟩
      · rw [runUntilFault_of_error hr] at hbefore
        exact absurd hbefore nofun
      · rw [runUntilFault_of_ok hr] at hbefore hstep
        cases hb : (runUntilFault before b').1 with
        | error other =>
          rw [hb] at hbefore
          exact absurd hbefore nofun
        | ok others =>
          rw [List.cons_append, runUntilFault_of_ok hr, ih others hb hstep]
          rfl

/-- The fault with which a scope ends is that of its first step that fails, or the one with which it
is told to fail at its end. -/
theorem run_scope_eq_error_iff {steps : List Step} {failure : Option String} {b : Bench}
    {fault : StepFault} :
    (run (.scope steps false failure) b).1 = .error fault ↔
      (∃ before step rest answers, steps = before ++ step :: rest ∧
        (runUntilFault before b).1 = .ok answers ∧
        (run step (runUntilFault before b).2).1 = .error fault) ∨
      ∃ answers message, (runUntilFault steps b).1 = .ok answers ∧ failure = some message ∧
        fault = .failed message := by
  rw [← runUntilFault_eq_error_iff]
  have hrun : (run (.scope steps false failure) b).1 =
      (close failure ((runUntilFault steps b).1.map .scope) (runUntilFault steps b).2).1 := by
    rw [run]
    rfl
  rw [hrun]
  cases (runUntilFault steps b).1 with
  | error other => simp [close, Except.map]
  | ok answers => cases failure <;> simp [close, Except.map, eq_comm]

end ErrorBars.Engine
