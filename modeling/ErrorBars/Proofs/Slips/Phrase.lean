import ErrorBars.Formula.Meaning
import ErrorBars.Proofs.Slips.Application

/-!
# Where a phrase slips

A phrase is calculated operand by operand, and only three kinds of operations can slip: those of two
operands, parts by position or key, and applications.  `ComesTo` follows a phrase in the order of its
calculation up to an operation of which something holds; what stands behind an operand is reached
only if that operand has a value, and a branch only if its condition says so.

`calculate_eq_error` says that a phrase fails, other than as unreadable, if and only if it comes to
an operation that slips.
-/

set_option autoImplicit false

namespace ErrorBars.Formula

/-! ## Operations -/

/-- An operation that can slip, with the values it is applied to. -/
inductive Operation where
  /-- an operation of two operands -/
  | binary (op : BinaryOp) (a b : Value)
  /-- a part by position or key -/
  | index (a i : Value)
  /-- an application -/
  | call (f : Value) (a : Arguments)

namespace Operation

/-- What an operation gives. -/
def result (read : TextReader) : Operation → Calculated Value
  | .binary op a b => Value.binary op a b
  | .index a i => Value.index a i
  | .call f a => Value.call read f a

/-- The ways in which an operation slips; `fails` says how the reading of a text does. -/
inductive Slips (read : TextReader) (fails : String → ParseFault → Prop) :
    Operation → ParseFault → Prop where
  /-- a division by zero -/
  | binary {op : BinaryOp} {a b : Value} (h : Value.DividesByZero op a b) :
    Slips read fails (.binary op a b) .divisionByZero
  /-- a part that is not there -/
  | index {a i : Value} {fault : ParseFault} (h : a.LacksPart i fault) :
    Slips read fails (.index a i) fault
  /-- an application that slips -/
  | call {f : Value} {a : Arguments} {fault : ParseFault} (h : Value.CallSlips read fails f a fault) :
    Slips read fails (.call f a) fault

/-- **An operation fails, other than as unreadable, in one of these ways.** -/
theorem result_eq_error {read : TextReader} {fails : String → ParseFault → Prop} {o : Operation}
    {fault : ParseFault} (hf : fault.escapes) (hfails : ∀ s, fails s fault ↔ read s = .error fault) :
    o.result read = .error fault ↔ o.Slips read fails fault := by
  cases o with
  | binary op a b =>
    refine (Value.binary_eq_error hf).trans ⟨fun ⟨hfault, h⟩ => hfault ▸ .binary h, fun h => ?_⟩
    cases h with
    | binary h => exact ⟨rfl, h⟩
  | index a i =>
    refine (Value.index_eq_error hf).trans ⟨.index, fun h => ?_⟩
    cases h with
    | index h => exact h
  | call f a =>
    refine (Value.call_eq_error hf hfails).trans ⟨.call, fun h => ?_⟩
    cases h with
    | call h => exact h

end Operation

/-! ## Calculations that fail -/

section

variable {α β : Type} {fault : ParseFault} {s : Assignments}

/-- The calculation gives a value, of which, together with the names given so far, this holds. -/
def Leads (c : Calculation α) (s : Assignments) (P : α → Assignments → Prop) : Prop :=
  ∃ x t, c s = .ok (x, t) ∧ P x t

theorem bind_fails {c : Calculation α} {k : α → Calculation β} :
    (c >>= k) s = .error fault ↔
      c s = .error fault ∨ Leads c s fun x t => k x t = .error fault := by
  show (c s >>= fun p => k p.1 p.2) = _ ↔ _
  rw [bind_eq_error]
  simp [Leads]

theorem lift_fails {c : Calculated α} :
    (liftM c : Calculation α) s = .error fault ↔ c = .error fault := by
  cases c <;> simp [liftM, monadLift, MonadLift.monadLift, StateT.lift, bind, Except.bind, pure,
    Except.pure]

theorem lift_leads {c : Calculated α} {P : α → Assignments → Prop} :
    Leads (liftM c : Calculation α) s P ↔ ∃ x, c = .ok x ∧ P x s := by
  cases c <;> simp [Leads, liftM, monadLift, MonadLift.monadLift, StateT.lift, bind, Except.bind,
    pure, Except.pure, and_assoc]

theorem leads_congr {c : Calculation α} {P Q : α → Assignments → Prop} (h : ∀ x t, P x t ↔ Q x t) :
    Leads c s P ↔ Leads c s Q :=
  exists_congr fun x => exists_congr fun t => and_congr_right fun _ => h x t

theorem leads_false {c : Calculation α} : ¬ Leads c s fun _ _ => False := by
  rintro ⟨_, _, _, h⟩
  exact h

theorem pure_fails {x : α} : (pure x : Calculation α) s ≠ .error fault := nofun

theorem throw_fails (hf : fault.escapes) :
    (throw .unreadable : Calculation α) s ≠ .error fault := by
  intro h
  exact unreadable_ne hf (Except.error.inj h)

theorem refuse_fails (hf : fault.escapes) {p : Prop} [Decidable p] {x : α} :
    (if p then throw .unreadable else pure x : Calculation α) s ≠ .error fault := by
  split
  · exact throw_fails hf
  · exact pure_fails

theorem guard_fails (hf : fault.escapes) {p : Prop} [Decidable p] {x : α} :
    (if p then pure x else throw .unreadable : Calculation α) s ≠ .error fault := by
  split
  · exact pure_fails
  · exact throw_fails hf

end

/-! ## Phrases -/

mutual

/-- A phrase comes to an operation of which this holds, where some names have got values. -/
def ComesTo (around : Surroundings) (P : Operation → Prop) : Phrase → Assignments → Prop
  | .value _, _ => False
  | .whole _, _ => False
  | .text _, _ => False
  | .name _, _ => False
  | .ellipsis, _ => False
  | .unary _ a, s => ComesTo around P a s
  | .binary op a b, s =>
    ComesTo around P a s ∨ Leads (calculate around a) s fun x s =>
      ComesTo around P b s ∨ Leads (calculate around b) s fun y _ => P (.binary op x y)
  | .both a b, s =>
    ComesTo around P a s ∨ Leads (calculate around a) s fun x s =>
      x.truth = .ok true ∧ ComesTo around P b s
  | .either a b, s =>
    ComesTo around P a s ∨ Leads (calculate around a) s fun x s =>
      x.truth = .ok false ∧ ComesTo around P b s
  | .choice condition a b, s =>
    ComesTo around P condition s ∨ Leads (calculate around condition) s fun c s =>
      c.truth = .ok true ∧ ComesTo around P a s ∨ c.truth = .ok false ∧ ComesTo around P b s
  | .compare a rest, s =>
    ComesTo around P a s ∨ Leads (calculate around a) s fun x s => ComesToInChain around P x rest s
  | .call f args, s =>
    ComesTo around P f s ∨ Leads (calculate around f) s fun f s =>
      ComesToInArguments around P args s ∨ Leads (calculateArguments around args) s fun args _ =>
        P (.call f args)
  | .spread _, _ => False
  | .keyword _ _, _ => False
  | .index a i, s =>
    ComesTo around P a s ∨ Leads (calculate around a) s fun x s =>
      ComesTo around P i s ∨ Leads (calculate around i) s fun y _ => P (.index x y)
  | .range first stop step, s =>
    ComesTo around P first s ∨ Leads (calculate around first) s fun _ s =>
      ComesTo around P stop s ∨ Leads (calculate around stop) s fun _ s => ComesTo around P step s
  | .part a _, s => ComesTo around P a s
  | .items _ xs, s => ComesToInAll around P xs s
  | .collection xs, s => ComesToInAll around P xs s
  | .mapping xs, s => ComesToInAll around P xs s
  | .assign _ a, s => ComesTo around P a s

/-- Phrases, calculated one after the other, come to such an operation. -/
def ComesToInAll (around : Surroundings) (P : Operation → Prop) :
    List Phrase → Assignments → Prop
  | [], _ => False
  | .spread a :: rest, s =>
    ComesTo around P a s ∨ Leads (calculate around a) s fun v s =>
      (∃ k xs, v = .items k xs) ∧ ComesToInAll around P rest s
  | x :: rest, s =>
    ComesTo around P x s ∨ Leads (calculate around x) s fun _ s => ComesToInAll around P rest s

/-- Arguments come to such an operation. -/
def ComesToInArguments (around : Surroundings) (P : Operation → Prop) :
    List Phrase → Assignments → Prop
  | [], _ => False
  | .spread a :: rest, s =>
    ComesTo around P a s ∨ Leads (calculate around a) s fun v s =>
      (∃ k xs, v = .items k xs) ∧ ComesToInArguments around P rest s
  | .keyword _ a :: rest, s =>
    ComesTo around P a s ∨ Leads (calculate around a) s fun _ s =>
      ComesToInArguments around P rest s
  | x :: rest, s =>
    ComesTo around P x s ∨ Leads (calculate around x) s fun _ s =>
      ComesToInArguments around P rest s

/-- The right operands of comparisons come to such an operation: each one is reached only if the
comparison before it is true. -/
def ComesToInChain (around : Surroundings) (P : Operation → Prop) (a : Value) :
    List (Comparison × Phrase) → Assignments → Prop
  | [], _ => False
  | (c, x) :: rest, s =>
    ComesTo around P x s ∨ Leads (calculate around x) s fun b s =>
      (∃ v, Value.compare c a b = .ok v ∧ v.truth = .ok true) ∧ ComesToInChain around P b rest s

end

section

variable {fault : ParseFault} {around : Surroundings}

theorem contained_knownValue (word : String) : Contained (knownValue word) := by
  rw [knownValue]
  split <;> simp

theorem contained_wordValue (names : List String) (word : String) :
    Contained (wordValue names word) := by
  simp [wordValue, contained_knownValue]

/-- Words do not slip. -/
theorem currentValue_fails (hf : fault.escapes) (names : List String) (word : String)
    (s : Assignments) : currentValue names word s ≠ .error fault := by
  have hword := (contained_wordValue names word).ne_error hf
  rw [currentValue, ne_eq, bind_fails]
  rintro (h | ⟨t, s', -, h⟩)
  · exact absurd h nofun
  · cases hfound : t.lookup (Text.compatibilityForm word) with
    | some v =>
      rw [hfound] at h
      exact pure_fails h
    | none =>
      rw [hfound] at h
      exact hword (lift_fails.1 h)

/-- Quoted texts do not slip. -/
theorem textValue_fails (hf : fault.escapes) (names : List String) (q : Quotation)
    (s : Assignments) : textValue names q s ≠ .error fault := by
  have hloop : ∀ (words : List String) (s : Assignments),
      (forIn words PUnit.unit fun word _ => do
        let _ ← currentValue names word
        pure (ForInStep.yield PUnit.unit) : Calculation PUnit) s ≠ .error fault := by
    intro words
    induction words with
    | nil => exact fun s => pure_fails
    | cons word words ih =>
      intro s
      simp only [List.forIn_cons, ne_eq, bind_assoc, pure_bind, bind_fails,
        currentValue_fails hf, ih, leads_false, or_false, not_false_eq_true]
  rw [textValue]
  split
  · cases q.fieldWords? with
    | none => exact throw_fails hf
    | some words =>
      rw [ne_eq, bind_fails]
      rintro (h | ⟨_, _, _, h⟩)
      · exact hloop words s h
      · exact pure_fails h
  · exact pure_fails

mutual

/-- **A phrase fails, other than as unreadable, where it comes to an operation that does.**  The
induction follows the phrase. -/
theorem calculate_eq_error (hf : fault.escapes) (p : Phrase) (s : Assignments) :
    calculate around p s = .error fault ↔
      ComesTo around (fun o => o.result around.read = .error fault) p s := by
  have htruth := fun v => (Value.contained_truth v).ne_error hf
  cases p with
  | value e => simp only [calculate, ComesTo, pure_fails]
  | whole n => simp only [calculate, ComesTo, pure_fails]
  | text q => simp only [calculate, ComesTo, textValue_fails hf]
  | name word => simp only [calculate, ComesTo, currentValue_fails hf]
  | ellipsis => simp only [calculate, ComesTo, pure_fails]
  | unary op a =>
    have hunary := fun x => (Value.contained_unary op x).ne_error hf
    simp only [calculate, ComesTo, bind_fails, lift_fails, hunary, leads_false, or_false,
      calculate_eq_error hf a]
  | binary op a b =>
    simp only [calculate, ComesTo, bind_fails, lift_fails, Operation.result,
      calculate_eq_error hf a, calculate_eq_error hf b]
  | both a b =>
    simp only [calculate, ComesTo, bind_fails, lift_fails, lift_leads, htruth, false_or,
      Bool.exists_bool, Bool.false_eq_true, if_false, if_true, pure_fails, and_false,
      calculate_eq_error hf a, calculate_eq_error hf b]
  | either a b =>
    simp only [calculate, ComesTo, bind_fails, lift_fails, lift_leads, htruth, false_or,
      Bool.exists_bool, Bool.false_eq_true, if_false, if_true, pure_fails, and_false, or_false,
      calculate_eq_error hf a, calculate_eq_error hf b]
  | choice c a b =>
    simp only [calculate, ComesTo, bind_fails, lift_fails, lift_leads, htruth, false_or,
      Bool.exists_bool, Bool.false_eq_true, if_false, if_true, or_comm,
      calculate_eq_error hf a, calculate_eq_error hf b, calculate_eq_error hf c]
  | compare a rest =>
    simp only [calculate, ComesTo, bind_fails, calculate_eq_error hf a,
      calculateChain_eq_error hf rest]
  | call f args =>
    simp only [calculate, ComesTo, bind_fails, lift_fails, Operation.result,
      calculate_eq_error hf f, calculateArguments_eq_error hf args]
  | spread a => simp only [calculate, ComesTo, throw_fails hf]
  | keyword name a => simp only [calculate, ComesTo, throw_fails hf]
  | index a i =>
    simp only [calculate, ComesTo, bind_fails, lift_fails, Operation.result,
      calculate_eq_error hf a, calculate_eq_error hf i]
  | range first stop step =>
    have hbound := fun x => (Value.contained_bound? x).ne_error hf
    simp only [calculate, ComesTo, bind_fails, lift_fails, hbound, pure_fails, or_false, leads_false,
      calculate_eq_error hf first, calculate_eq_error hf stop, calculate_eq_error hf step]
  | part a name =>
    have hpart := fun x => (Value.contained_part x name).ne_error hf
    simp only [calculate, ComesTo, bind_fails, lift_fails, hpart, leads_false, or_false,
      calculate_eq_error hf a]
  | items isList xs =>
    simp only [calculate, ComesTo, bind_fails, pure_fails, leads_false, or_false,
      calculateAll_eq_error hf xs]
  | collection xs =>
    simp only [calculate, ComesTo, bind_fails, guard_fails hf, leads_false, or_false,
      calculateAll_eq_error hf xs]
  | mapping xs =>
    simp only [calculate, ComesTo, bind_fails, guard_fails hf, leads_false, or_false,
      calculateAll_eq_error hf xs]
  | assign name a =>
    have hassign : ∀ v t, assign name v t ≠ .error fault := nofun
    simp only [calculate, ComesTo, bind_fails, hassign, leads_false, or_false,
      calculate_eq_error hf a]

theorem calculateAll_eq_error (hf : fault.escapes) (ps : List Phrase) (s : Assignments) :
    calculateAll around ps s = .error fault ↔
      ComesToInAll around (fun o => o.result around.read = .error fault) ps s := by
  cases ps with
  | nil => simp only [calculateAll, ComesToInAll, pure_fails]
  | cons p rest =>
    cases p with
    | spread a =>
      simp only [calculateAll, ComesToInAll, bind_fails, calculate_eq_error hf a]
      refine or_congr_right (leads_congr fun v t => ?_)
      cases v with
      | items k xs =>
        simp only [bind_fails, pure_fails, leads_false, or_false, calculateAll_eq_error hf rest,
          Value.items.injEq, exists_and_left, exists_eq', true_and, and_true]
      | _ => simp only [throw_fails hf, reduceCtorEq, exists_false, false_and]
    | _ =>
      simp only [calculateAll, ComesToInAll, bind_fails, pure_fails, leads_false, or_false,
        calculate_eq_error hf, calculateAll_eq_error hf rest]

theorem calculateArguments_eq_error (hf : fault.escapes) (ps : List Phrase) (s : Assignments) :
    calculateArguments around ps s = .error fault ↔
      ComesToInArguments around (fun o => o.result around.read = .error fault) ps s := by
  cases ps with
  | nil => simp only [calculateArguments, ComesToInArguments, pure_fails]
  | cons p rest =>
    cases p with
    | spread a =>
      simp only [calculateArguments, ComesToInArguments, bind_fails, calculate_eq_error hf a]
      refine or_congr_right (leads_congr fun v t => ?_)
      cases v with
      | items k xs =>
        simp only [bind_fails, pure_fails, leads_false, or_false, calculateArguments_eq_error hf rest,
          Value.items.injEq, exists_and_left, exists_eq', true_and, and_true]
      | _ => simp only [throw_fails hf, reduceCtorEq, exists_false, false_and]
    | keyword name a =>
      simp only [calculateArguments, ComesToInArguments, bind_fails, refuse_fails hf, leads_false,
        or_false, calculate_eq_error hf a, calculateArguments_eq_error hf rest]
    | _ =>
      simp only [calculateArguments, ComesToInArguments, bind_fails, pure_fails, leads_false, or_false,
        calculate_eq_error hf, calculateArguments_eq_error hf rest]

theorem calculateChain_eq_error (hf : fault.escapes) (rest : List (Comparison × Phrase)) (a : Value)
    (s : Assignments) :
    calculateChain around a rest s = .error fault ↔
      ComesToInChain around (fun o => o.result around.read = .error fault) a rest s := by
  have htruth := fun v => (Value.contained_truth v).ne_error hf
  cases rest with
  | nil => simp only [calculateChain, ComesToInChain, pure_fails]
  | cons c rest =>
    obtain ⟨c, x⟩ := c
    have hcompare := fun b => (Value.contained_compare c a b).ne_error hf
    rw [calculateChain, ComesToInChain]
    simp only [bind_fails, lift_fails, lift_leads, calculate_eq_error hf x, hcompare, false_or]
    refine or_congr_right (leads_congr fun b t => ?_)
    cases rest with
    | nil => simp only [ComesToInChain, pure_fails, and_false, exists_false]
    | cons d rest =>
      simp only [bind_fails, lift_fails, lift_leads, htruth, false_or, Bool.exists_bool,
        Bool.false_eq_true, if_false, if_true, pure_fails, and_false,
        calculateChain_eq_error hf (d :: rest), ← and_assoc, exists_and_right]

end

end

end ErrorBars.Formula
