import ErrorBars.Expr.Evaluate.Function
import Mathlib.Data.List.Forall2

/-!
# Evaluations that differ in whether integer parts are settled

An integer part is settled at once only where it is odd; otherwise the evaluation gives up with
`EvalFault.unsettledInteger` if some variable, whichever it is, has a value that is not whole.  So a
variable that an expression does not hold can make a difference after all.  This file shows that it
can make no other.

`Settles p r r'` compares two results, the second one of an evaluation with more variables: they are
the same, or, provided that `p`, the second one gives up.  Nothing that is built from evaluations
looks into the fault of giving up, so `Settles` goes through all of it, one lemma for each evaluator
that takes others.
-/

set_option autoImplicit false

namespace ErrorBars

/-- A result is that of another computation, unless that one gives up with a fault; and it does not
give up itself where the other one might. -/
structure Settles {ε α : Type} (fault : ε) (p : Prop) (r r' : Except ε α) : Prop where
  /-- the first result is not one of giving up -/
  settled : p → r ≠ .error fault
  /-- the second result is the first one, or one of giving up -/
  same : r' = r ∨ p ∧ r' = .error fault

namespace Settles

variable {ε α β : Type} {fault : ε} {p : Prop} {r r' : Except ε α}

/-- Computations that have nothing to do with what is compared come to the same. -/
theorem of_ne (h : r ≠ .error fault) : Settles fault p r r := ⟨fun _ => h, .inl rfl⟩

theorem bind {f f' : α → Except ε β} (h : Settles fault p r r')
    (hf : ∀ x, Settles fault p (f x) (f' x)) : Settles fault p (r >>= f) (r' >>= f') := by
  obtain ⟨hsettled, hsame⟩ := h
  cases r with
  | ok x =>
    obtain rfl | ⟨hp, rfl⟩ := hsame
    · exact hf x
    · exact ⟨(hf x).settled, .inr ⟨hp, rfl⟩⟩
  | error other =>
    have hother : p → (Except.error other : Except ε β) ≠ .error fault :=
      fun hp heq => hsettled hp (by rw [Except.error.inj heq])
    obtain rfl | ⟨hp, rfl⟩ := hsame
    · exact ⟨hother, .inl rfl⟩
    · exact ⟨hother, .inr ⟨hp, rfl⟩⟩

/-- Faults may be read in another way, as long as giving up is not mistaken. -/
theorem mapError {δ : Type} {g : ε → δ} (hg : ∀ other, g other = g fault → other = fault)
    (h : Settles fault p r r') : Settles (g fault) p (r.mapError g) (r'.mapError g) := by
  obtain ⟨hsettled, hsame⟩ := h
  refine ⟨fun hp => ?_, ?_⟩
  · cases r with
    | ok x => exact nofun
    | error other => exact fun heq => hsettled hp (by rw [hg other (Except.error.inj heq)])
  · rcases hsame with rfl | ⟨hp, rfl⟩
    · exact .inl rfl
    · exact .inr ⟨hp, rfl⟩

end Settles

/-- A result other than giving up on an integer part. -/
def Settled {α : Type} (r : Except EvalFault α) : Prop := r ≠ .error .unsettledInteger

section

variable {α β : Type} {r : Except EvalFault α}

@[simp] theorem settled_ok (x : α) : Settled (.ok x : Except EvalFault α) := nofun

@[simp] theorem settled_pure (x : α) : Settled (pure x : Except EvalFault α) := nofun

@[simp] theorem settled_error (fault : EvalFault) :
    Settled (.error fault : Except EvalFault α) ↔ fault ≠ .unsettledInteger := by
  simp [Settled]

@[simp] theorem settled_throw (fault : EvalFault) :
    Settled (throw fault : Except EvalFault α) ↔ fault ≠ .unsettledInteger :=
  settled_error fault

theorem Settled.bind {f : α → Except EvalFault β} (h : Settled r) (hf : ∀ x, Settled (f x)) :
    Settled (r >>= f) := by
  cases r with
  | ok x => exact hf x
  | error fault => exact (settled_error fault).2 ((settled_error fault).1 h)

theorem Settled.map {f : α → β} (h : Settled r) : Settled (r.map f) := by
  cases r with
  | ok x => exact settled_ok _
  | error fault => exact (settled_error fault).2 ((settled_error fault).1 h)

@[simp] theorem settled_guarded (r : Except DivisionByZero α) : Settled (Evaluation.guarded r) := by
  cases r <;> simp [Evaluation.guarded]

/-- An evaluation without variables comes to the same. -/
theorem Settles.refl {p : Prop} (h : Settled r) : Settles .unsettledInteger p r r := .of_ne h

end

/-- Two evaluators settle alike, to whatever number of bits. -/
def SettleAlike (p : Prop) (ev ev' : Evaluator) : Prop :=
  ∀ bits limit, Settles .unsettledInteger p (ev bits limit) (ev' bits limit)

namespace Evaluation

variable {p : Prop} {ev ev' fv fv' : Evaluator} {evs evs' : List Evaluator}

/-! ## Sums and products -/

theorem settles_runAll (h : List.Forall₂ (SettleAlike p) evs evs') (bits limit : Nat) :
    Settles .unsettledInteger p (runAll bits limit evs) (runAll bits limit evs') := by
  induction h with
  | nil => exact .refl (by simp [runAll])
  | cons hfirst _ ih =>
    exact (hfirst bits limit).bind fun x => ih.bind fun xs => .refl (settled_pure _)

theorem settles_sumFrom (h : List.Forall₂ (SettleAlike p) evs evs') (target limit : Nat) :
    ∀ fuel bits round, Settles .unsettledInteger p (sumFrom evs target limit fuel bits round)
      (sumFrom evs' target limit fuel bits round)
  | 0, bits, round => (settles_runAll h _ _).bind fun xs => .refl (settled_pure _)
  | fuel + 1, bits, round => by
    refine (settles_runAll h _ _).bind fun xs => ?_
    simp only
    split
    · exact .refl (settled_pure _)
    · split
      · exact .refl (settled_pure _)
      · exact settles_sumFrom h target limit fuel _ _

theorem settleAlike_sum (h : List.Forall₂ (SettleAlike p) evs evs') :
    SettleAlike p (sum evs) (sum evs') := fun bits limit =>
  settles_sumFrom h bits limit 12 bits 0

theorem settleAlike_product (h : List.Forall₂ (SettleAlike p) evs evs') :
    SettleAlike p (product evs) (product evs') := by
  intro bits limit
  refine (settles_runAll h _ _).bind fun first => ?_
  simp only
  split
  · exact .refl (settled_pure _)
  · rw [← h.length_eq]
    refine (settles_runAll h _ _).bind fun xs => ?_
    split
    · exact .refl (settled_pure _)
    · exact .refl (settled_pure _)

/-! ## Powers -/

theorem settleAlike_powerInt (h : SettleAlike p ev ev') (n : Int) :
    SettleAlike p (powerInt ev n) (powerInt ev' n) := by
  intro bits limit
  unfold powerInt
  split
  · exact .refl (settled_pure _)
  · refine (h _ _).bind fun x => .refl ?_
    split
    · simp
    · exact (settled_guarded _).bind fun z => settled_pure _
    · exact (settled_guarded _).bind fun z => settled_pure _
    · simp
    · exact (settled_guarded _).bind fun z => settled_pure _

theorem settleAlike_squareRoot (h : SettleAlike p ev ev') :
    SettleAlike p (squareRoot ev) (squareRoot ev') := fun bits limit =>
  (h _ _).bind fun x => .refl (by split <;> simp)

theorem settleAlike_exponential (h : SettleAlike p ev ev') :
    SettleAlike p (exponential ev) (exponential ev') := by
  intro bits limit
  refine (h _ _).bind fun x => ?_
  split
  · exact .refl (settled_pure _)
  · exact .refl (settled_pure _)
  · extract_lets size jump
    have hjump : ∀ y, Settled (jump y) := fun y => by
      simp only [jump]
      split <;> simp
    split
    · exact (h _ _).bind fun y => .refl (hjump y)
    · exact .refl (hjump x)

theorem settleAlike_powerGeneral (h : SettleAlike p ev ev') (h' : SettleAlike p fv fv')
    (rational negative : Bool) :
    SettleAlike p (powerGeneral ev fv rational negative)
      (powerGeneral ev' fv' rational negative) := by
  intro bits limit
  refine (h _ _).bind fun x => ?_
  split
  · refine .refl ?_
    split
    · split <;> simp
    · simp
  · refine (h' _ _).bind fun y => ?_
    split
    · exact .refl (settled_pure _)
    · exact .refl (settled_pure _)
    · extract_lets size wide jump jump'
      have hjump : ∀ y, Settles .unsettledInteger p (jump y) (jump' y) := by
        intro y
        simp only [jump, jump']
        refine (h _ _).bind fun x => .refl ?_
        split
        · split <;> simp
        · split
          · simp
          · split
            · exact (settled_guarded _).bind fun z => settled_pure _
            · exact (settled_guarded _).bind fun z => settled_pure _
      split
      · exact (h' _ _).bind hjump
      · exact hjump y

/-! ## Functions that are followed -/

theorem settleAlike_logarithm (h : SettleAlike p ev ev') :
    SettleAlike p (logarithm ev) (logarithm ev') := by
  intro bits limit
  refine (h _ _).bind fun x => ?_
  split
  · exact .refl (settled_pure _)
  · extract_lets y l jump minusOne
    have hjump : ∀ z, Settled (jump z) := fun z => by
      simp only [jump]
      split <;> simp
    clear_value l
    split
    · split
      · refine (settleAlike_sum ?_ _ _).bind fun d => .refl (hjump _)
        exact .cons (fun _ _ => .refl (settled_ok _)) (.cons h .nil)
      · exact .refl (hjump _)
    · exact .refl (hjump _)
  · exact .refl (settled_pure _)

theorem settles_circularFrom (f : Nat → Binary → Binary) (h : SettleAlike p ev ev')
    (bits limit : Nat) (size : Int) : ∀ fuel wide x,
      Settles .unsettledInteger p (circularFrom f ev bits limit size fuel wide x)
        (circularFrom f ev' bits limit size fuel wide x)
  | 0, _, _ => .refl (settled_ok _)
  | fuel + 1, wide, x => by
    unfold circularFrom
    extract_lets y gap accuracy
    split
    · exact .refl (settled_pure _)
    · split
      · exact .refl (settled_pure _)
      · refine (h _ _).bind fun z => ?_
        split
        · exact settles_circularFrom f h bits limit size fuel _ _
        · exact .refl (settled_pure _)

theorem settleAlike_circular (wantCosine : Bool) (h : SettleAlike p ev ev') :
    SettleAlike p (circular wantCosine ev) (circular wantCosine ev') := by
  intro bits limit
  refine (h _ _).bind fun x => ?_
  split
  · exact .refl (settled_pure _)
  · exact .refl (settled_pure _)
  · split
    · simp only
      split
      · exact .refl (settled_pure _)
      · split
        · refine (h _ _).bind fun y => ?_
          split
          · exact settles_circularFrom _ h _ _ _ _ _ _
          · exact .refl (settled_pure _)
        · exact settles_circularFrom _ h _ _ _ _ _ _
    · exact .refl (settled_pure _)
  · exact .refl (settled_pure _)

theorem settleAlike_arcTangent (h : SettleAlike p ev ev') :
    SettleAlike p (arcTangent ev) (arcTangent ev') := fun bits limit =>
  (h _ _).bind fun x => .refl (by split <;> simp)

theorem settles_partFrom (wanted : Evaluated → Option Part) (h : SettleAlike p ev ev')
    (bits limit : Nat) : ∀ fuel wide,
      Settles .unsettledInteger p (partFrom wanted ev bits limit fuel wide) (partFrom wanted ev' bits limit fuel wide)
  | 0, _ => (h _ _).bind fun x => .refl (settled_pure _)
  | fuel + 1, wide => by
    refine (h _ _).bind fun x => ?_
    split
    · exact .refl (settled_pure _)
    · split
      · exact .refl (settled_pure _)
      · split
        · exact .refl (settled_pure _)
        · exact settles_partFrom wanted h bits limit fuel _

theorem settleAlike_absolute (h : SettleAlike p ev ev') :
    SettleAlike p (absolute ev) (absolute ev') := fun bits limit =>
  (h _ _).bind fun x => .refl (by split <;> simp)

/-! ## Integer parts

This is the only place where it matters whether some variable has a value that is not whole. -/

variable {fractional fractional' : Bool}

theorem settles_settledPart (hp : p → fractional = false) (hsame : fractional' = fractional ∨ p)
    (up : Bool) (bits : Nat) (part : Option Part) :
    Settles .unsettledInteger p (settledPart up fractional bits part) (settledPart up fractional' bits part) := by
  cases part with
  | none => exact .refl (settled_ok _)
  | some x =>
    have hsettled : ∀ c : Bool, c = false → Settled (settledPart up c bits (some x)) := by
      intro c hc
      rw [settledPart, hc, Bool.false_and, Bool.false_and, if_neg Bool.false_ne_true]
      split <;> simp
    refine ⟨fun h => hsettled _ (hp h), ?_⟩
    rcases hsame with rfl | h
    · exact .inl rfl
    · by_cases hx : (!isOdd x.value && !x.value.isZero) = true
      · cases fractional' with
        | false => exact .inl (by rw [hp h])
        | true =>
          refine .inr ⟨h, ?_⟩
          rw [settledPart, Bool.true_and, if_pos hx]
      · refine .inl ?_
        rw [settledPart, settledPart, Bool.and_assoc, Bool.and_assoc,
          Bool.eq_false_iff.2 hx, Bool.and_false, Bool.and_false]

theorem settleAlike_integerPart (hp : p → fractional = false)
    (hsame : fractional' = fractional ∨ p) (up : Bool) (h : SettleAlike p ev ev') :
    SettleAlike p (integerPart up fractional ev) (integerPart up fractional' ev') := by
  intro bits limit
  refine (h _ _).bind fun x => ?_
  split
  · exact .refl (by simp)
  · exact .refl (settled_pure _)
  · extract_lets size jump jump'
    have hjump : ∀ y, Settles .unsettledInteger p (jump y) (jump' y) := by
      intro y
      simp only [jump, jump']
      split
      · exact .refl (by simp)
      · refine (settles_settledPart hp hsame up bits _).bind fun re => ?_
        exact (settles_settledPart hp hsame up bits _).bind fun im => .refl (settled_pure _)
    split
    · exact (h _ _).bind hjump
    · exact hjump x

/-- Two evaluators, if there are any, settle alike. -/
def SettleAlike? (p : Prop) : Option Evaluator → Option Evaluator → Prop
  | none, none => True
  | some ev, some ev' => SettleAlike p ev ev'
  | _, _ => False

theorem settleAlike_followed (hp : p → fractional = false)
    (hsame : fractional' = fractional ∨ p) (f : Func)
    (h : List.Forall₂ (SettleAlike p) evs evs') :
    SettleAlike? p (followed? fractional f evs) (followed? fractional' f evs') := by
  cases h with
  | nil => cases f <;> exact trivial
  | cons h hrest =>
    cases hrest with
    | cons h' hrest => cases f <;> exact trivial
    | nil =>
      cases f
      case exp => exact settleAlike_exponential h
      case log => exact settleAlike_logarithm h
      case sin => exact settleAlike_circular false h
      case cos => exact settleAlike_circular true h
      case atan => exact settleAlike_arcTangent h
      case abs => exact settleAlike_absolute h
      case re => exact fun bits limit => settles_partFrom _ h bits limit 8 bits
      case im => exact fun bits limit => settles_partFrom _ h bits limit 8 bits
      case floor => exact settleAlike_integerPart hp hsame false h
      case ceiling => exact settleAlike_integerPart hp hsame true h
      all_goals exact trivial

/-! ## Functions of plain numbers -/

theorem settled_basicValue (f : Func) (bits : Nat) (x : Binary) : Settled (basicValue f bits x) := by
  unfold basicValue gammaValue
  cases f <;> grind [Settled]

theorem settled_unaryValue (f : Func) (bits : Nat) (x : Binary) : Settled (unaryValue f bits x) := by
  unfold unaryValue
  split
  · split
    · simp
    · exact settled_basicValue _ _ _
  · exact settled_basicValue _ _ _

theorem settled_binaryValue (f : Func) (bits : Nat) (x y : Binary) :
    Settled (binaryValue f bits x y) := by
  unfold binaryValue
  cases f <;> grind [Settled]

theorem settled_imaginaryValue {f : Func} {bits : Nat} {y : Binary}
    {r : Except EvalFault Evaluated} (h : imaginaryValue? f bits y = some r) : Settled r := by
  have hunary : ∀ (g : Func) (turn : Evaluated → Evaluated),
      Settled ((unaryValue g bits y).map turn) := fun g _ => (settled_unaryValue g bits y).map
  unfold imaginaryValue? at h
  cases f
  all_goals cases h
  all_goals first
    | exact hunary _ _
    | exact settled_unaryValue _ _ _
    | exact settled_ok _

theorem settled_basicComplexValue (f : Func) (bits : Nat) (x : Pair) :
    Settled (basicComplexValue f bits x) := by
  have hquotient : ∀ (y z : Pair) (g : Pair → Evaluated),
      Settled ((guarded (divPair (bits + 20) y z)).map g) := fun _ _ _ => (settled_guarded _).map
  unfold basicComplexValue
  cases f
  all_goals first
    | exact hquotient _ _ _
    | exact settled_pure _
    | exact (settled_throw _).2 nofun

theorem settled_complexValue (f : Func) (bits : Nat) (x : Pair) :
    Settled (complexValue f bits x) := by
  unfold complexValue
  split
  · exact (settled_guarded _).bind fun y => settled_basicComplexValue _ _ _
  · exact settled_basicComplexValue _ _ _

theorem settleAlike_plainFunction (f : Func) (h : List.Forall₂ (SettleAlike p) evs evs') :
    SettleAlike p (plainFunction f evs) (plainFunction f evs') := by
  intro bits limit
  refine (settles_runAll h _ _).bind fun xs => .refl ?_
  split
  · simp
  · split
    · rename_i heq
      split at heq
      · exact settled_imaginaryValue heq
      · exact absurd heq (by simp)
    · exact settled_complexValue _ _ _
  · split
    · simp
    · split
      · simp
      · simp
      · exact settled_unaryValue _ _ _
      · exact settled_binaryValue _ _ _ _
      · simp

/-- The arc tangent is computed from a plain number where it cannot be followed. -/
theorem settles_unlessArcTangent {f : Func} {r r' v v' : Except EvalFault Evaluated} :
    Settles .unsettledInteger p r r' → Settles .unsettledInteger p v v' → Settles .unsettledInteger p
      (match f, r with
        | .atan, .error .unsupported => v
        | _, x => x)
      (match f, r' with
        | .atan, .error .unsupported => v'
        | _, x => x) := by
  rintro ⟨hsettled, rfl | ⟨hp, rfl⟩⟩ hv
  · split
    · exact hv
    · exact ⟨hsettled, .inl rfl⟩
  · refine ⟨fun _ => ?_, .inr ⟨hp, ?_⟩⟩
    · split
      · exact hv.settled hp
      · exact hsettled hp
    · cases f <;> rfl

theorem settleAlike_function (f : Func) (h : List.Forall₂ (SettleAlike p) evs evs') :
    SettleAlike p (function f evs) (function f evs') := by
  have hplain := settleAlike_plainFunction f h
  have hfollowed := settleAlike_followed (p := p) (fun _ => rfl) (.inl rfl) f h
  unfold function
  cases hev : followed? false f evs with
  | none =>
    cases hev' : followed? false f evs' with
    | none => exact hplain
    | some ev' => simp [hev, hev', SettleAlike?] at hfollowed
  | some ev =>
    cases hev' : followed? false f evs' with
    | none => simp [hev, hev', SettleAlike?] at hfollowed
    | some ev' =>
      rw [hev, hev'] at hfollowed
      exact fun bits limit => settles_unlessArcTangent (hfollowed bits limit) (hplain bits limit)

end Evaluation
end ErrorBars
