import ErrorBars.Expr.Point
import ErrorBars.Proofs.Poles.Numbers

/-!
# Evaluators that succeed with a number

An evaluator is made from those of the parts of an expression.  If these succeed with numbers, to
whatever number of bits beyond a least one, so does the evaluator of a sum, a product, a natural
power, a root, an exponential, a sine, a cosine or an absolute value.  Those of other powers do too,
provided that what they are given keeps away from zero.

* `HasNumber` — an evaluator succeeds with a number.
* `Nonzero`, `Positive`, `OnLine` — what more may be known of the number.
-/

set_option autoImplicit false

namespace ErrorBars

open Evaluation Evaluated Extended Expr

/-- Whether a constant is a number. -/
def Const.isFinite (c : Const) : Bool := c.isReal || c == .i

/-- The evaluator succeeds with a number, to whatever bits. -/
def HasNumber (ev : Evaluator) : Prop :=
  ∀ bits limit, pointBits.1 ≤ bits → Yields IsNumber (ev bits limit)

/-- The evaluator succeeds with a real number of this kind. -/
def HasNumberAs (P : Binary → Prop) (ev : Evaluator) : Prop :=
  ∀ bits limit, pointBits.1 ≤ bits →
    Yields (fun v => ∃ p x, v = .parts (some p) none ∧ p.value = .number x ∧ P x) (ev bits limit)

/-- The evaluator succeeds with a real number other than zero. -/
def Nonzero (ev : Evaluator) : Prop := HasNumberAs (fun x => x.mantissa ≠ 0) ev

/-- The evaluator succeeds with a real number above zero. -/
def Positive (ev : Evaluator) : Prop := HasNumberAs (fun x => 0 < x.mantissa) ev

/-- The evaluator succeeds with a number that has no imaginary part. -/
def OnLine (ev : Evaluator) : Prop :=
  ∀ bits limit, pointBits.1 ≤ bits →
    Yields (fun v => ∃ re, v = .parts re none ∧ NumberPart re) (ev bits limit)

namespace Evaluation

variable {ev fv : Evaluator} {evs : List Evaluator}

/-! ## Leaves -/

theorem hasNumber_rational (q : Rat) : HasNumber (rational q) := by
  intro bits limit _
  refine .ok ?_
  split
  · exact isNumber_zero
  · exact isNumber_real rfl

theorem hasNumber_float (x : Binary) (b : ℕ) : HasNumber (leaf (.float x b)) :=
  fun _ _ _ => .ok (isNumber_real rfl)

/-- A double stands for itself, to whatever bits. -/
theorem hasNumberAs_float {P : Binary → Prop} {x : Binary} (b : ℕ) (h : P x) :
    HasNumberAs P (leaf (.float x b)) :=
  fun _ _ _ => .ok ⟨_, x, rfl, rfl, h⟩

theorem hasNumber_constant {c : Const} (h : c.isFinite = true) : HasNumber (constant c) := by
  intro bits limit _
  cases c
  case i => exact .ok (isNumber_imaginary rfl)
  case infinity | negInfinity | complexInfinity | undefined => cases h
  all_goals exact .ok (isNumber_real rfl)

/-! ## Sums -/

/-- Evaluators that succeed with numbers do so one after the other. -/
theorem yields_runAll (h : ∀ ev ∈ evs, HasNumber ev) {bits : ℕ} (limit : ℕ)
    (hbits : pointBits.1 ≤ bits) :
    Yields (fun vs => ∀ v ∈ vs, v.IsNumber) (runAll bits limit evs) := by
  induction evs with
  | nil => exact .ok fun v hv => absurd hv List.not_mem_nil
  | cons ev evs ih =>
    rw [List.forall_mem_cons] at h
    refine (h.1 bits limit hbits).bind fun v hv => (ih h.2).bind fun vs hvs => .pure ?_
    exact List.forall_mem_cons.2 ⟨hv, hvs⟩

theorem countInfinite_eq_zero {vs : List Evaluated} (h : ∀ v ∈ vs, v.IsNumber) :
    countInfinite vs = 0 := by
  refine List.countP_eq_zero.2 fun v hv => ?_
  cases v with
  | complexInfinity => exact (h _ hv).elim
  | parts re im => exact Bool.false_ne_true

/-- Numbers add up to a number, be it a residue. -/
theorem numberPart_addParts {ps : List Part} (bits target : ℕ)
    (h : ∀ p ∈ ps, p.value.isNumber = true) : NumberPart (addParts ps bits target) := by
  rw [addParts]
  split
  · exact numberPart_none
  · rename_i p hp
    have hmem : p ∈ ps.filter fun p => !p.value.isZero := by
      rw [hp]
      exact List.mem_singleton_self p
    exact numberPart_some.2 (h p (List.mem_filter.1 hmem).1)
  · have hspecial :
        (ps.filter fun p => !p.value.isZero).filter (fun p => !p.value.isNumber) = [] := by
      refine List.filter_eq_nil_iff.2 fun p hp => ?_
      rw [h p (List.mem_filter.1 hp).1]
      exact Bool.false_ne_true
    rw [hspecial]
    dsimp only
    split
    · contradiction
    · split
      · exact numberPart_some.2 rfl
      · exact numberPart_some.2 rfl

theorem isNumber_sumOnce {vs : List Evaluated} (bits target : ℕ) (h : ∀ v ∈ vs, v.IsNumber) :
    (sumOnce vs bits target).IsNumber := by
  have hre : ∀ p ∈ vs.filterMap (·.re?), p.value.isNumber = true := by
    intro p hp
    obtain ⟨v, hv, hp⟩ := List.mem_filterMap.1 hp
    exact (h v hv).re? p hp
  have him : ∀ p ∈ vs.filterMap (·.im?), p.value.isNumber = true := by
    intro p hp
    obtain ⟨v, hv, hp⟩ := List.mem_filterMap.1 hp
    exact (h v hv).im? p hp
  rw [sumOnce, countInfinite_eq_zero h]
  exact ⟨numberPart_addParts bits target hre, numberPart_addParts bits target him⟩

/-- A sum is tried with more and more bits, each time from numbers. -/
theorem yields_sumFrom (h : ∀ ev ∈ evs, HasNumber ev) (target limit : ℕ) (fuel : ℕ) {bits : ℕ}
    (round : ℕ) (hbits : pointBits.1 ≤ bits) :
    Yields IsNumber (sumFrom evs target limit fuel bits round) := by
  induction fuel generalizing bits round with
  | zero =>
    exact (yields_runAll h _ (by omega)).bind fun vs hvs => .pure (isNumber_sumOnce bits target hvs)
  | succ fuel ih =>
    refine (yields_runAll h _ (by omega)).bind fun vs hvs => ?_
    rw [countInfinite_eq_zero hvs, if_neg (not_not.2 rfl)]
    dsimp only
    split
    · exact .pure (isNumber_sumOnce bits target hvs)
    · exact ih _ (by omega)

theorem hasNumber_sum (h : ∀ ev ∈ evs, HasNumber ev) : HasNumber (sum evs) :=
  fun bits limit hbits => yields_sumFrom h bits limit 12 0 hbits

/-! ## Products -/

/-- The state of a product of numbers. -/
def NumberState (s : ProductState) : Prop :=
  s.value.isNumber = true ∧ ∀ v ∈ s.complexFactors, v.IsNumber

theorem numberState_takeFactor {wp : ℕ} {s t : ProductState} {v : Evaluated} (hs : NumberState s)
    (hv : v.IsNumber) (h : takeFactor wp s v = some t) : NumberState t := by
  unfold takeFactor at h
  split at h
  · cases h
  · cases h
  · cases h
    exact ⟨isNumber_mul wp hs.1 (numberPart_some.1 hv.1), hs.2⟩
  · cases h
    exact ⟨isNumber_mul wp hs.1 (numberPart_some.1 hv.2), hs.2⟩
  · cases h
    exact ⟨hs.1, List.forall_mem_cons.2 ⟨hv, hs.2⟩⟩

theorem numberState_takeFactors {wp : ℕ} {s t : ProductState} {vs : List Evaluated}
    (hs : NumberState s) (hvs : ∀ v ∈ vs, v.IsNumber) (h : takeFactors wp s vs = some t) :
    NumberState t := by
  induction vs generalizing s with
  | nil =>
    cases h
    exact hs
  | cons v vs ih =>
    rw [List.forall_mem_cons] at hvs
    obtain ⟨next, hnext, h⟩ := Option.bind_eq_some_iff.1 h
    exact ih (numberState_takeFactor hs hvs.1 hnext) hvs.2 h

theorem numberPair_foldl (wp : ℕ) {x : Pair} {vs : List Evaluated} (hx : NumberPair x)
    (hvs : ∀ v ∈ vs, v.IsNumber) :
    NumberPair (vs.foldl (fun acc f => mulPair wp acc f.values) x) := by
  induction vs generalizing x with
  | nil => exact hx
  | cons v vs ih =>
    rw [List.forall_mem_cons] at hvs
    exact ih (hx.mul wp hvs.1.values) hvs.2

theorem isNumber_finishProduct (wp bits : ℕ) {s : ProductState} (hs : NumberState s) :
    (finishProduct wp bits s).IsNumber := by
  have hvalue := isNumber_round bits hs.1
  rw [finishProduct]
  split
  · have hsigned : (if s.turns % 4 < 2 then s.value.round bits
        else (s.value.round bits).neg).isNumber = true := by
      split
      · exact hvalue
      · exact isNumber_neg hvalue
    dsimp only
    split
    · exact ⟨numberPart_some.2 hsigned, numberPart_none⟩
    · exact ⟨numberPart_none, numberPart_some.2 hsigned⟩
  · have hpair := (numberPair_foldl wp (x := (s.value, .zero)) ⟨hs.1, rfl⟩
      fun v hv => hs.2 v (List.mem_reverse.1 hv)).turn s.turns
    exact isNumber_parts hpair.1 hpair.2

theorem isSpecial_eq_false {v : Evaluated} (h : v.IsNumber) : isSpecial v = false := by
  cases v with
  | complexInfinity => exact h.elim
  | parts re im =>
    cases re with
    | none => rfl
    | some p => rw [isSpecial, numberPart_some.1 h.1, Bool.not_true]

theorem hasNumber_product (h : ∀ ev ∈ evs, HasNumber ev) : HasNumber (product evs) := by
  intro bits limit hbits
  refine (yields_runAll h limit hbits).bind fun first hfirst => ?_
  have hspecial : first.filter isSpecial = [] :=
    List.filter_eq_nil_iff.2 fun v hv => by rw [isSpecial_eq_false (hfirst v hv)]; decide
  rw [hspecial]
  refine (yields_runAll h limit (by omega)).bind fun vs hvs => ?_
  split
  · exact .pure isNumber_zero
  · rename_i s hs
    exact .pure (isNumber_finishProduct _ _
      (numberState_takeFactors ⟨rfl, fun v hv => absurd hv List.not_mem_nil⟩ hvs hs))

/-! ## Powers -/

/-- A whole power of a number, if it succeeds, may be turned. -/
theorem isNumber_turnedPower (bits : ℕ) (n : ℤ) {z : Extended} (hz : z.isNumber = true) :
    IsNumber (match (n % 4).toNat with
      | 0 => .real bits z
      | 1 => .imaginary bits z
      | 2 => .real bits z.neg
      | _ => .imaginary bits z.neg) := by
  split
  · exact isNumber_real hz
  · exact isNumber_imaginary hz
  · exact isNumber_real (isNumber_neg hz)
  · exact isNumber_imaginary (isNumber_neg hz)

theorem yields_guarded {P : Extended → Prop} {r : Except DivisionByZero Extended}
    (h : Yields P r) : Yields P (guarded r) := by
  obtain ⟨x, rfl, hx⟩ := h
  exact .ok hx

/-- A natural power of a number. -/
theorem hasNumber_powerInt (h : HasNumber ev) {n : ℤ} (hn : 0 ≤ n) : HasNumber (powerInt ev n) := by
  intro bits limit hbits
  rw [powerInt]
  split
  · exact .pure (isNumber_real rfl)
  · refine (h _ limit (by omega)).bind fun v hv => ?_
    split
    · exact hv.elim
    · rename_i re
      obtain ⟨x, hx⟩ := isNumber_iff.1 (numberPart_some.1 hv.1)
      rw [hx]
      exact (yields_guarded (powInt_of_nonneg bits x hn)).bind fun z hz => .pure (isNumber_real hz)
    · rename_i im
      obtain ⟨x, hx⟩ := isNumber_iff.1 (numberPart_some.1 hv.2)
      rw [hx]
      exact (yields_guarded (powInt_of_nonneg bits x hn)).bind fun z hz =>
        .pure (isNumber_turnedPower bits n hz)
    · split
      · exact absurd hn (by omega)
      · exact .pure isNumber_zero
    · have hpower := hv.values.powNat (bits + (bitLength n.natAbs - 1) +
        2 * bitLength n.natAbs + 10) n.natAbs
      rw [powIntPair]
      dsimp only
      rw [if_pos hn]
      exact .pure (isNumber_ofComplex hpower.1 hpower.2)

/-- Any whole power of a real number other than zero. -/
theorem hasNumber_powerInt_of_nonzero (h : Nonzero ev) (n : ℤ) : HasNumber (powerInt ev n) := by
  intro bits limit hbits
  rw [powerInt]
  split
  · exact .pure (isNumber_real rfl)
  · refine (h _ limit (by omega)).bind ?_
    rintro _ ⟨p, x, rfl, hx, hzero⟩
    dsimp only
    rw [hx]
    exact (yields_guarded (powInt_of_ne_zero bits hzero n)).bind fun z hz =>
      .pure (isNumber_real hz)

theorem hasNumber_squareRoot (h : HasNumber ev) : HasNumber (squareRoot ev) := by
  intro bits limit hbits
  refine (h _ limit (by omega)).bind fun v hv => ?_
  split
  · exact hv.elim
  · exact .pure isNumber_zero
  · have hre := numberPart_some.1 hv.1
    split
    · exact .pure (isNumber_imaginary (isNumber_sqrt bits (isNumber_neg hre)))
    · exact .pure (isNumber_real (isNumber_sqrt bits hre))
  · have hroot := hv.values.sqrt bits
    exact .pure (isNumber_ofComplex hroot.1 hroot.2)

theorem hasNumber_exponential (h : HasNumber ev) : HasNumber (exponential ev) := by
  intro bits limit hbits
  refine (h _ limit (by omega)).bind fun v hv => ?_
  split
  · exact hv.elim
  · exact .pure (isNumber_real rfl)
  · extract_lets size finish
    have hfinish : ∀ w, w.IsNumber → Yields IsNumber (finish w) := by
      intro w hw
      simp only [finish]
      split
      · exact .pure (isNumber_real (isNumber_exp bits hw.1.valueOr))
      · have hpower := hw.values.exp (bits + 10 + size.toNat)
        exact .pure (isNumber_ofComplex hpower.1 hpower.2)
    split
    · exact (h _ limit (by omega)).bind hfinish
    · exact hfinish v hv

/-- A real power of a number above zero. -/
theorem pow_of_pos (bits : ℕ) {b : Binary} (hb : 0 < b.mantissa) (e : Binary) :
    Yields (fun z : Extended => z.isNumber = true) (Extended.pow bits (.number b) (.number e)) := by
  have hgeneral : (Extended.pow.general bits (.number b) e).isNumber = true := by
    rw [Extended.pow.general, Binary.isZero_eq_false_iff.2 hb.ne']
    rfl
  rw [Extended.pow]
  split
  · split
    · split
      · exact powInt_of_ne_zero bits hb.ne' _
      · exact .ok hgeneral
    · split
      · exact powInt_of_ne_zero bits (Binary.mantissa_sqrt_ne_zero (by omega) hb) _
      · exact .ok hgeneral
  · exact .ok hgeneral

theorem isNegative_of_pos {b : Binary} (hb : 0 < b.mantissa) : b.isNegative = false :=
  decide_eq_false (not_lt.2 hb.le)

/-- A real power of an evaluated number above zero. -/
theorem hasNumber_powerGeneral (h : Positive ev) (hf : OnLine fv) (rational negative : Bool) :
    HasNumber (powerGeneral ev fv rational negative) := by
  intro bits limit hbits
  refine (h _ limit (by omega)).bind ?_
  rintro _ ⟨p, x, rfl, -, -⟩
  refine (hf _ limit (by omega)).bind fun y hy => ?_
  split
  · obtain ⟨re, hre, -⟩ := hy
    cases hre
  · exact .pure (isNumber_real rfl)
  · extract_lets size wide finish
    have hwide : pointBits.1 ≤ wide := by
      simp only [wide]
      split <;> omega
    have hfinish : ∀ w, (∃ re, w = .parts re none ∧ NumberPart re) →
        Yields IsNumber (finish w) := by
      rintro _ ⟨re, rfl, hre⟩
      obtain ⟨e, he⟩ := isNumber_iff.1 hre.valueOr
      simp only [finish]
      refine (h _ limit (by omega)).bind ?_
      rintro _ ⟨p, x, rfl, hx, hpos⟩
      have hsign : p.value.isNegative = false := by
        rw [hx]
        exact isNegative_of_pos hpos
      simp only [Evaluated.im?, Evaluated.values, valueOr_some, he, hsign, Option.isSome_none,
        Bool.false_or, Bool.false_eq_true, if_false]
      rw [hx]
      exact (yields_guarded (pow_of_pos bits hpos e)).bind fun z hz => .pure (isNumber_real hz)
    split
    · exact (hf _ limit hwide).bind hfinish
    · exact hfinish y hy

/-! ## Functions -/

theorem yields_circularFrom (f : ℕ → Binary → Binary) (h : HasNumber ev) (bits limit : ℕ) (size : ℤ)
    (fuel : ℕ) {wide : ℕ} (x : Binary) (hwide : pointBits.1 ≤ wide) :
    Yields IsNumber (circularFrom f ev bits limit size fuel wide x) := by
  induction fuel generalizing wide x with
  | zero => exact .ok (isNumber_real rfl)
  | succ fuel ih =>
    unfold circularFrom
    extract_lets y gap accuracy
    split
    · exact .pure (isNumber_real rfl)
    · split
      · exact .pure ⟨numberPart_some.2 rfl, numberPart_none⟩
      · refine (h _ limit (by omega)).bind fun v hv => ?_
        obtain ⟨z, hz⟩ := isNumber_iff.1 hv.values.1
        rw [hz]
        exact ih z (by omega)

theorem hasNumber_circular (wantCosine : Bool) (h : HasNumber ev) :
    HasNumber (circular wantCosine ev) := by
  intro bits limit hbits
  refine (h _ limit (by omega)).bind fun v hv => ?_
  split
  · exact hv.elim
  · split
    · exact .pure (isNumber_real rfl)
    · exact .pure isNumber_zero
  · rename_i re
    obtain ⟨x, hx⟩ := isNumber_iff.1 (numberPart_some.1 hv.1)
    rw [hx]
    dsimp only
    split
    · exact .pure (isNumber_real rfl)
    · split
      · refine (h _ limit (by omega)).bind fun w hw => ?_
        obtain ⟨z, hz⟩ := isNumber_iff.1 hw.values.1
        rw [hz]
        exact yields_circularFrom _ h bits limit _ 20 z (by omega)
      · exact yields_circularFrom _ h bits limit _ 20 x (by omega)
  · have hpair := hv.values.circular wantCosine (bits + 10)
    exact .pure (isNumber_ofComplex hpair.1 hpair.2)

theorem hasNumber_arcTangent (h : OnLine ev) : HasNumber (arcTangent ev) := by
  intro bits limit hbits
  obtain ⟨v, hv, re, rfl, hre⟩ := h (bits + 5) limit (by omega)
  rw [arcTangent, hv]
  cases re with
  | none => exact .pure isNumber_zero
  | some p => exact .pure (isNumber_real (isNumber_arctan bits (numberPart_some.1 hre)))

theorem hasNumber_absolute (h : HasNumber ev) : HasNumber (absolute ev) := by
  intro bits limit hbits
  refine (h _ limit (by omega)).bind fun v hv => ?_
  split
  · exact hv.elim
  · exact .pure isNumber_zero
  · exact .pure ⟨numberPart_some.2 (isNumber_abs (numberPart_some.1 hv.1)), numberPart_none⟩
  · exact .pure ⟨numberPart_some.2 (isNumber_abs (numberPart_some.1 hv.2)), numberPart_none⟩
  · refine .pure ⟨numberPart_some.2 ?_, numberPart_none⟩
    exact NumberPair.isNumber_absPair bits ⟨numberPart_some.1 hv.1, numberPart_some.1 hv.2⟩

/-- A part of a number is looked at with more and more bits. -/
theorem yields_partFrom {wanted : Evaluated → Option Part}
    (hwanted : ∀ v, IsNumber v → NumberPart (wanted v)) (h : HasNumber ev) (bits limit fuel : ℕ)
    {wide : ℕ} (hwide : pointBits.1 ≤ wide) :
    Yields IsNumber (partFrom wanted ev bits limit fuel wide) := by
  induction fuel generalizing wide with
  | zero => exact (h _ limit hwide).bind fun v hv => .pure ⟨hwanted v hv, numberPart_none⟩
  | succ fuel ih =>
    refine (h _ limit hwide).bind fun v hv => ?_
    have hpart := hwanted v hv
    split
    · exact hv.elim
    · split
      · exact .pure isNumber_zero
      · rename_i p hp
        rw [hp] at hpart
        split
        · exact .pure ⟨hpart, numberPart_none⟩
        · exact ih (by omega)

/-! ## Integer parts -/

theorem floorOf_number {p : Part} (h : p.value.isNumber = true) : ∃ n, floorOf p = some n := by
  obtain ⟨x, hx⟩ := isNumber_iff.1 h
  rw [floorOf, hx]
  dsimp only
  split_ifs <;> exact ⟨_, rfl⟩

theorem roundedPart_number (up : Bool) {p : Part} (h : p.value.isNumber = true) :
    ∃ n, roundedPart up p = some n := by
  cases up with
  | false => exact floorOf_number h
  | true =>
    obtain ⟨n, hn⟩ := floorOf_number (p := { p with value := p.value.neg }) (isNumber_neg h)
    exact ⟨n.neg, by rw [roundedPart, if_pos rfl, hn, Option.map_some]⟩

theorem yields_settledPart (up : Bool) (bits : ℕ) {p : Option Part} (h : NumberPart p) :
    Yields NumberPart (settledPart up false bits p) := by
  cases p with
  | none => exact .ok numberPart_none
  | some p =>
    obtain ⟨n, hn⟩ := roundedPart_number up (numberPart_some.1 h)
    rw [settledPart, hn]
    refine .ok ?_
    split
    · exact numberPart_none
    · exact numberPart_some.2 rfl

/-- Where the values of all variables are whole, an integer part is settled. -/
theorem hasNumber_integerPart (up : Bool) (h : HasNumber ev) :
    HasNumber (integerPart up false ev) := by
  intro bits limit hbits
  refine (h _ limit (by omega)).bind fun v hv => ?_
  split
  · exact hv.elim
  · exact .pure isNumber_zero
  · extract_lets size finish
    have hfinish : ∀ w, w.IsNumber → Yields IsNumber (finish w) := by
      intro w hw
      simp only [finish]
      split
      · exact hw.elim
      · exact (yields_settledPart up bits hw.1).bind fun re hre =>
          (yields_settledPart up bits hw.2).bind fun im him => .pure ⟨hre, him⟩
    split
    · exact (h _ limit (by omega)).bind hfinish
    · exact hfinish v hv

end Evaluation
end ErrorBars
