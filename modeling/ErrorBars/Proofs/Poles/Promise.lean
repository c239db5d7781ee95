import ErrorBars.Engine
import ErrorBars.Proofs.Calculate
import ErrorBars.Proofs.Poles.PoleFree
import ErrorBars.Proofs.Products

/-!
# What the engine promises

The engine promises a finite real number for an expression at a point, or a fault that says that the
expression has none.  It keeps to this (`promised_iff`) but for the ways that `Breaks` lists; and
away from poles only one of these is left, a number that is too large for a double
(`PoleFree.answer`).

At a pole it depends.  The logarithm of zero is an infinity (`evaluate_log_of_vanishes`).  A
negative power of zero has no value, and that is said (`evaluate_power_of_zero`) unless the zero is
a double, which makes the evaluation fail with a division by zero
(`evaluate_power_of_double_zero`).
-/

set_option autoImplicit false

namespace ErrorBars

open Evaluation Evaluated Extended

namespace Expr

variable {bs : Bindings} {e : Expr}

/-! ## Away from poles -/

/-- The value of a number as a double: finite below the threshold, infinite from there on. -/
theorem toDouble_cases (x : Binary) :
    (x.toDouble.isFinite = true ↔ (x.mantissa.natAbs : ℚ) * 2 ^ x.exponent < Double.threshold) ∧
      (x.toDouble.isFinite = true ∨ ∃ s, x.toDouble = .infinite s) :=
  ⟨Double.ofScaled_isFinite_iff, (Double.ofScaled_cases _ _ _).imp_right fun h => ⟨_, h⟩⟩

/-- The real value of two parts, an absent one standing for zero. -/
theorem realValue?_parts (re im : Option Part) :
    realValue? (.parts re im) =
      if (valueOr im).isZero = true then some (valueOr re).toDouble else none := by
  cases re <;> cases im <;> rfl

/-- Without an imaginary part there is a real value. -/
theorem realValue?_of_isZero {re im : Option Part} (him : (valueOr im).isZero = true) :
    realValue? (.parts re im) = some (valueOr re).toDouble := by
  rw [realValue?_parts, if_pos him]

/-- The real value of a number, if it has one, is that of a binary number. -/
theorem realValue?_of_isNumber {v : Evaluated} (h : v.IsNumber) :
    realValue? v = none ∨ ∃ x : Binary, realValue? v = some x.toDouble := by
  cases v with
  | complexInfinity => exact h.elim
  | parts re im =>
    rw [realValue?_parts]
    split
    · obtain ⟨x, hx⟩ := isNumber_iff.1 h.1.valueOr
      exact .inr ⟨x, by rw [hx]; rfl⟩
    · exact .inl rfl

/-- How an evaluation may end that keeps away from all poles. -/
inductive PoleFreeAnswer (e : Expr) : Except EngineFault Double → Prop where
  /-- a finite real number -/
  | real {x : Binary} (h : (x.mantissa.natAbs : ℚ) * 2 ^ x.exponent < Double.threshold)
      (finite : x.toDouble.isFinite = true) : PoleFreeAnswer e (.ok x.toDouble)
  /-- an infinity, for a real number that is too large -/
  | overflow {x : Binary} {s : Bool}
      (h : Double.threshold ≤ (x.mantissa.natAbs : ℚ) * 2 ^ x.exponent)
      (infinite : x.toDouble = .infinite s) : PoleFreeAnswer e (.ok x.toDouble)
  /-- the fault that there is no real value -/
  | notReal (writable : e.isWritable = true) : PoleFreeAnswer e (.error (.notReal e))
  /-- the fault that the expression is too long for this to be said -/
  | tooLong (unwritable : e.isWritable = false) : PoleFreeAnswer e (.error .tooLong)

theorem poleFreeAnswer_toDouble (e : Expr) (x : Binary) : PoleFreeAnswer e (.ok x.toDouble) := by
  obtain ⟨hfinite, hcases⟩ := toDouble_cases x
  by_cases h : (x.mantissa.natAbs : ℚ) * 2 ^ x.exponent < Double.threshold
  · exact .real h (hfinite.2 h)
  · obtain ⟨s, hs⟩ := hcases.resolve_left fun hx => h (hfinite.1 hx)
    exact .overflow (not_lt.1 h) hs

theorem poleFreeAnswer_valueFault (e : Expr) : PoleFreeAnswer e (.error (valueFault e [])) := by
  rw [valueFault]
  cases hw : e.isWritable with
  | true => exact .notReal hw
  | false => exact .tooLong hw

/-- **An expression without poles** has a real value, finite unless it is too large, or the engine
says that it has none. -/
theorem PoleFree.answer (h : PoleFree bs e) : PoleFreeAnswer e (e.evaluate bs) := by
  obtain ⟨v, hreach, hnumber⟩ := h.reach
  rw [evaluate, hreach]
  dsimp only
  rcases realValue?_of_isNumber hnumber with hnone | ⟨x, hx⟩
  · rw [hnone]
    exact poleFreeAnswer_valueFault e
  · rw [hx]
    exact poleFreeAnswer_toDouble e x

/-! ## Poles -/

/-- The evaluator gives zero, exactly or as a double. -/
def Vanishes (ev : Evaluator) : Prop :=
  ∀ bits limit, ∃ re, ev bits limit = .ok (.parts re none) ∧ valueOr re = .zero

/-- **The logarithm of zero** is an infinity. -/
theorem evaluate_log_of_vanishes {a : Expr} (h : Vanishes (evaluatorAt bs a)) :
    (app (.fn .log) [a]).evaluate bs = .ok (.infinite true) := by
  obtain ⟨re, hev, hzero⟩ := h (pointBits.1 + 10) pointBits.2
  have hlog : evaluatorAt bs (app (.fn .log) [a]) pointBits.1 pointBits.2 =
      .ok (.real pointBits.1 (.infinite true)) := by
    show logarithm (evaluatorAt bs a) pointBits.1 pointBits.2 = _
    rw [logarithm, hev]
    simp only [bind, Except.bind, hzero]
    rfl
  have hreach : (app (.fn .log) [a]).reach bs =
      .ok (.value (.real pointBits.1 (.infinite true))) := reachPlainly_of_ok hlog
  rw [evaluate, hreach]
  rfl

variable {b : Expr} {n : ℤ}

/-- **A negative power of zero** has no real value, and the engine says so. -/
theorem evaluate_power_of_zero (he : e.int? = some n) (hn : n < 0)
    (h : ∀ bits limit, evaluatorAt bs b bits limit = .ok .zero) :
    (app .pow [b, e]).evaluate bs = .error (valueFault (app .pow [b, e]) []) := by
  have hpower :
      evaluatorAt bs (app .pow [b, e]) pointBits.1 pointBits.2 = .ok .complexInfinity := by
    rw [evaluatorAt_power he, powerInt, if_neg hn.ne]
    simp only [h, bind, Except.bind, Evaluated.zero, if_pos hn]
    rfl
  have hreach : (app .pow [b, e]).reach bs = .ok (.value .complexInfinity) :=
    reachPlainly_of_ok hpower
  rw [evaluate, hreach]
  rfl

/-- **A negative power of a double that is zero** makes the evaluation fail. -/
theorem evaluate_power_of_double_zero (he : e.int? = some n) (hn : n < 0)
    (h : HasNumberAs (fun x => x.mantissa = 0) (evaluatorAt bs b)) :
    (app .pow [b, e]).evaluate bs = .error .divisionByZero := by
  have hpower : (app .pow [b, e]).evaluatorIn (environmentAt bs) pointBits.1 pointBits.2 =
      .error .divisionByZero := by
    obtain ⟨_, hev, p, x, rfl, hp, hx⟩ := h
      (pointBits.1 + (bitLength n.natAbs - 1) + 5) pointBits.2 (by omega)
    rw [← evaluatorAt, evaluatorAt_power he, powerInt, if_neg hn.ne]
    simp only [hev, bind, Except.bind, hp, powInt_of_zero _ hx hn]
    rfl
  have hreach : (app .pow [b, e]).reach bs = .error .divisionByZero := by
    show reachPlainly bs (app .pow [b, e]) = _
    rw [reachPlainly, hpower]
  rw [evaluate, hreach]
  rfl

end Expr

/-! ## The promise -/

/-- Whether a fault says that an expression cannot be read or has no real value. -/
def EngineFault.isExpressionFault : EngineFault → Bool
  | .unreadable _ => true
  | .notScalar _ => true
  | .unbound .. => true
  | .notReal _ => true
  | _ => false

namespace Expr

variable {bs : Bindings} {e : Expr}

/-- A finite real number, or a fault of the expression. -/
def Promised : Except EngineFault Double → Prop
  | .ok x => x.isFinite = true
  | .error fault => fault.isExpressionFault = true

instance : DecidablePred Promised
  | .ok x => inferInstanceAs (Decidable (x.isFinite = true))
  | .error fault => inferInstanceAs (Decidable (fault.isExpressionFault = true))

/-- All ways in which an evaluation does not keep to what is promised. -/
inductive Breaks (bs : Bindings) (e : Expr) : Prop where
  /-- a fault of the evaluation gets out: a division by zero, an integer part that is not settled or
  is that of infinity, or an argument that a function refuses -/
  | fault {fault : EvalFault} (h : e.reach bs = .error fault) (hf : fault ≠ .unsupported)
  /-- the value is infinite or no number -/
  | special {p : Part} {im : Option Part} (h : e.reach bs = .ok (.value (.parts (some p) im)))
      (hreal : (valueOr im).isZero = true) (hp : p.value.isNumber = false)
  /-- the value is too large for a double -/
  | tooLarge {p : Part} {im : Option Part} {x : Binary}
      (h : e.reach bs = .ok (.value (.parts (some p) im))) (hreal : (valueOr im).isZero = true)
      (hp : p.value = .number x)
      (hx : Double.threshold ≤ (x.mantissa.natAbs : ℚ) * 2 ^ x.exponent)
  /-- there is no value, and the expression is too long for this to be said -/
  | tooLong (h : e.reach bs = .error .unsupported ∨ (∃ rest, e.reach bs = .ok (.stuck rest)) ∨
      ∃ v, e.reach bs = .ok (.value v) ∧ realValue? v = none) (hw : e.isWritable = false)

theorem promised_valueFault (e : Expr) (names : List String) :
    Promised (.error (valueFault e names)) ↔ e.isWritable = true := by
  unfold valueFault
  cases e.isWritable with
  | true => cases names <;> exact iff_of_true rfl rfl
  | false => exact iff_of_false Bool.false_ne_true Bool.false_ne_true

/-- Without a real value, the promise is kept by saying so. -/
theorem breaks_iff_of_no_value (h : e.reach bs = .error .unsupported ∨
    (∃ rest, e.reach bs = .ok (.stuck rest)) ∨
      ∃ v, e.reach bs = .ok (.value v) ∧ realValue? v = none) :
    Breaks bs e ↔ e.isWritable = false := by
  refine ⟨fun hbreaks => ?_, .tooLong h⟩
  have hreal {p : Part} {im : Option Part} (hv : e.reach bs = .ok (.value (.parts (some p) im)))
      (him : (valueOr im).isZero = true) : False := by
    rcases h with h | ⟨rest, h⟩ | ⟨v, h, hnone⟩ <;> rw [hv] at h <;> cases h
    rw [realValue?_of_isZero him] at hnone
    cases hnone
  cases hbreaks with
  | fault hfault hf =>
    rcases h with h | ⟨rest, h⟩ | ⟨v, h, -⟩ <;> rw [hfault] at h <;> cases h
    exact absurd rfl hf
  | special hv him _ => exact (hreal hv him).elim
  | tooLarge hv him _ _ => exact (hreal hv him).elim
  | tooLong _ hw => exact hw

/-- With a real value, the promise is kept if that is finite. -/
theorem breaks_iff_of_value {re im : Option Part}
    (h : e.reach bs = .ok (.value (.parts re im))) (him : (valueOr im).isZero = true) :
    Breaks bs e ↔ (valueOr re).toDouble.isFinite = false := by
  constructor
  · intro hbreaks
    cases hbreaks with
    | fault hfault _ =>
      rw [h] at hfault
      cases hfault
    | @special p _ hv _ hp =>
      rw [h] at hv
      cases hv
      rw [valueOr_some]
      cases hvalue : p.value with
      | number x =>
        rw [hvalue] at hp
        cases hp
      | infinite s => rfl
      | undefined => rfl
    | tooLarge hv _ hp hx =>
      rw [h] at hv
      cases hv
      rw [valueOr_some, hp, ← Bool.not_eq_true, Extended.toDouble, (toDouble_cases _).1]
      exact not_lt.2 hx
    | tooLong hno _ =>
      rcases hno with hno | ⟨rest, hno⟩ | ⟨v, hno, hnone⟩ <;> rw [h] at hno <;> cases hno
      rw [realValue?_of_isZero him] at hnone
      cases hnone
  · intro hinfinite
    cases re with
    | none => cases hinfinite
    | some p =>
      rw [valueOr_some] at hinfinite
      cases hvalue : p.value with
      | number x =>
        rw [hvalue, Extended.toDouble, ← Bool.not_eq_true, (toDouble_cases _).1] at hinfinite
        exact .tooLarge h him hvalue (not_lt.1 hinfinite)
      | infinite s => exact .special h him (by rw [hvalue]; rfl)
      | undefined => exact .special h him (by rw [hvalue]; rfl)

/-- **What is promised is kept exactly where none of this happens.** -/
theorem promised_iff (bs : Bindings) (e : Expr) : Promised (e.evaluate bs) ↔ ¬ Breaks bs e := by
  have hsilent (names : List String) (h : Breaks bs e ↔ e.isWritable = false) :
      Promised (.error (valueFault e names)) ↔ ¬ Breaks bs e := by
    rw [promised_valueFault, h, Bool.not_eq_false]
  rw [evaluate]
  cases h : e.reach bs with
  | error fault =>
    cases fault with
    | unsupported => exact hsilent [] (breaks_iff_of_no_value (.inl h))
    | _ => exact iff_of_false Bool.false_ne_true (not_not.2 (.fault h nofun))
  | ok r =>
    cases r with
    | stuck rest => exact hsilent _ (breaks_iff_of_no_value (.inr (.inl ⟨rest, h⟩)))
    | value v =>
      cases v with
      | complexInfinity => exact hsilent [] (breaks_iff_of_no_value (.inr (.inr ⟨_, h, rfl⟩)))
      | parts re im =>
        dsimp only
        by_cases him : (valueOr im).isZero = true
        · rw [realValue?_of_isZero him, breaks_iff_of_value h him, Bool.not_eq_false]
          rfl
        · have hnone : realValue? (.parts re im) = none := by rw [realValue?_parts, if_neg him]
          rw [hnone]
          exact hsilent [] (breaks_iff_of_no_value (.inr (.inr ⟨_, h, hnone⟩)))

end Expr
end ErrorBars
