import ErrorBars.Proofs.Summation

/-!
# The linear sum

The correlated figure adds up the magnitudes of what the variables contribute.  The additions are a
matter of `ErrorBars.Proofs.Summation`; here is what they are applied to.

A derivative of the other sign makes a term of the other sign, however it is given and whether or
not the term is rounded, so that no figure depends on signs (`combine?_sameSize`).  Contributions in
another order have their terms in that order (`terms?_perm`).  `combine?_linear` puts it together.
-/

set_option autoImplicit false

namespace ErrorBars

/-! ## Signs -/

namespace Number

/-- The number of the other sign. -/
def neg : Number → Number
  | .int n => .int (-n)
  | .fraction q => .fraction (-q)
  | .float x => .float x.neg

theorem map_abs_toDouble?_neg (x : Number) :
    x.neg.toDouble?.map Double.abs = x.toDouble?.map Double.abs := by
  cases x with
  | int n =>
    rw [neg, toDouble?, toDouble?, Double.ofInt?_eq, Double.ofInt?_eq, Double.map_abs_ofRatio?,
      Double.map_abs_ofRatio?, Int.natAbs_neg]
  | fraction q =>
    rw [neg, toDouble?, toDouble?, Double.ofRat?_eq, Double.ofRat?_eq, Double.map_abs_ofRatio?,
      Double.map_abs_ofRatio?, Rat.neg_num, Int.natAbs_neg, Rat.neg_den]
  | float x => exact congrArg some (Double.abs_neg x)

theorem map_abs_float_mul? (x : Double) (y : Number) :
    (((float x).mul? y).bind toDouble?).map Double.abs =
      y.toDouble?.map fun y => x.abs * y.abs := by
  have hmul : (float x).mul? y = y.toDouble?.map fun y => .float (x * y) := by cases y <;> rfl
  rw [hmul]
  cases y.toDouble? with
  | none => rfl
  | some y => exact congrArg some (Double.abs_mul x y)

theorem map_abs_mul?_float (x : Number) (y : Double) :
    ((x.mul? (float y)).bind toDouble?).map Double.abs =
      (x.toDouble?.map Double.abs).map fun x => x * y.abs := by
  have hmul : x.mul? (float y) = x.toDouble?.map fun x => .float (x * y) := by cases x <;> rfl
  rw [hmul]
  cases x.toDouble? with
  | none => rfl
  | some x => exact congrArg some (Double.abs_mul x y)

/-- The magnitude of a product does not know the sign of the first factor. -/
theorem map_abs_neg_mul? (x y : Number) :
    ((x.neg.mul? y).bind toDouble?).map Double.abs =
      ((x.mul? y).bind toDouble?).map Double.abs := by
  have hneg {x y : Number} (h : y = x.neg) :
      y.toDouble?.map Double.abs = x.toDouble?.map Double.abs := h ▸ map_abs_toDouble?_neg x
  rcases y with n | q | y
  case float => rw [map_abs_mul?_float, map_abs_mul?_float, map_abs_toDouble?_neg]
  all_goals
    rcases x with m | p | x
    case float =>
      rw [neg, map_abs_float_mul?, map_abs_float_mul?, Double.abs_neg]
    -- whole numbers and fractions multiply with their signs
    all_goals
      simp only [neg, mul?, Option.bind_some, Int.cast_neg, neg_mul]
      exact hneg rfl

end Number

/-! ## Contributions -/

namespace Contribution

/-- A contribution of the same size: the derivative may have the other sign. -/
def SameSize (c d : Contribution) : Prop :=
  d.error = c.error ∧ (d.derivative = c.derivative ∨ d.derivative = c.derivative.neg)

theorem SameSize.map_abs_term? {c d : Contribution} (h : c.SameSize d) :
    d.term?.map Double.abs = c.term?.map Double.abs := by
  obtain ⟨herror, hderivative | hderivative⟩ := h
  · rw [term?, term?, herror, hderivative]
  · rw [term?, term?, herror, hderivative, Number.map_abs_neg_mul?]

end Contribution

theorem terms?_cons (c : Contribution) (cs : List Contribution) :
    terms? (c :: cs) = c.term?.bind fun x => (terms? cs).map fun xs => x :: xs := by
  rw [terms?]
  cases c.term? <;> cases terms? cs <;> rfl

/-- The magnitudes do not know the signs of the derivatives. -/
theorem map_abs_terms? {cs ds : List Contribution} (h : cs.Forall₂ Contribution.SameSize ds) :
    (terms? ds).map (List.map Double.abs) = (terms? cs).map (List.map Double.abs) := by
  induction h with
  | nil => rfl
  | @cons c d cs ds hhead _ ih =>
    have hterm := hhead.map_abs_term?
    rw [terms?_cons, terms?_cons]
    cases hc : c.term? <;> cases hd : d.term? <;> rw [hc, hd] at hterm
    case some.some x y =>
      rw [Option.map_some, Option.map_some, Option.some.injEq] at hterm
      cases hcs : terms? cs <;> cases hds : terms? ds <;> rw [hcs, hds] at ih
      case some.some xs ys =>
        rw [Option.map_some, Option.map_some, Option.some.injEq] at ih
        simp [hterm, ih]
      all_goals cases ih
      rfl
    all_goals cases hterm
    rfl

/-- The figures are made from the magnitudes alone. -/
theorem figures_eq_of_map_abs {mode : Correlation} {ts us : List Double}
    (h : us.map Double.abs = ts.map Double.abs) : figures mode us = figures mode ts := by
  cases mode <;> simp only [figures, correlatedFigure, uncorrelatedFigure, h]

theorem combine?_sameSize {cs ds : List Contribution} (h : cs.Forall₂ Contribution.SameSize ds)
    (mode : Correlation) : combine? mode ds = combine? mode cs := by
  have hterms := map_abs_terms? h
  rw [combine?, combine?]
  cases hcs : terms? cs <;> cases hds : terms? ds <;> rw [hcs, hds] at hterms
  case some.some ts us =>
    rw [Option.map_some, Option.map_some, Option.some.injEq] at hterms
    rw [Option.map_some, Option.map_some, figures_eq_of_map_abs hterms]
  all_goals cases hterms

theorem terms?_eq_some_iff {cs : List Contribution} {ts : List Double} :
    terms? cs = some ts ↔ cs.Forall₂ (fun c t => c.term? = some t) ts := by
  induction cs generalizing ts with
  | nil =>
    rw [List.forall₂_nil_left_iff, terms?, Option.some.injEq]
    exact eq_comm
  | cons c cs ih =>
    rw [terms?_cons, List.forall₂_cons_left_iff, Option.bind_eq_some_iff]
    simp only [Option.map_eq_some_iff, ih]
    constructor
    · rintro ⟨t, ht, ts, hts, rfl⟩
      exact ⟨t, ts, ht, hts, rfl⟩
    · rintro ⟨t, ts, ht, hts, rfl⟩
      exact ⟨t, ht, ts, hts, rfl⟩

theorem terms?_perm {cs ds : List Contribution} {ts : List Double} (h : ds.Perm cs)
    (hts : terms? cs = some ts) : ∃ us, terms? ds = some us ∧ us.Perm ts := by
  obtain ⟨us, hus, hperm⟩ := List.perm_comp_forall₂ h (terms?_eq_some_iff.1 hts)
  exact ⟨us, terms?_eq_some_iff.2 hus, hperm⟩

/-! ## The figure -/

/-- Where the terms are split when there are many, and what becomes of the two parts. -/
theorem correlatedFigure_split {ts : List Double} (h : 128 < ts.length) :
    ∃ front back, ts = front ++ back ∧ 8 ∣ front.length ∧
      (0 < front.length ∧ front.length < ts.length) ∧
      (0 < back.length ∧ back.length < ts.length) ∧
      correlatedFigure ts = (correlatedFigure front).add (correlatedFigure back) := by
  refine ⟨_, _, (List.take_append_drop (splitPoint ts.length) ts).symm, ?_, (length_halves h).1,
    (length_halves h).2, ?_⟩
  · rw [List.length_take, splitPoint]
    omega
  · rw [correlatedFigure, blockedSum, dif_pos (by rwa [List.length_map]), List.length_map,
      ← List.map_take, ← List.map_drop]
    rfl

/-- The value of the figure, if nothing was rounded on the way to it. -/
theorem toRat?_correlatedFigure {ts : List Double} (h : Unrounded (ts.map Double.abs)) :
    (correlatedFigure ts).toRat? = some (ts.map fun t => |t.value|).sum := by
  rw [correlatedFigure, toRat?_blockedSum h, List.map_map]
  exact congrArg (fun f => some (ts.map f).sum) (funext Double.value_abs)

/-- Every mode but the uncorrelated one answers with the correlated figure. -/
theorem pick_figures {mode : Correlation} (h : mode ≠ .uncorrelated) (ts : List Double) :
    (figures mode ts).pick true = correlatedFigure ts := by
  cases mode with
  | uncorrelated => exact absurd rfl h
  | correlated => rfl
  | both => rfl

/-- **The correlated figure** of contributions of any number is the sum of the magnitudes of their
terms.

* The modes that ask for it get it, as it is made of the terms.
* Each term has been added to the others once, whatever rounding does; a list that is too long is
  split, at a multiple of eight and into parts that are shorter and not empty.
* If no addition is rounded, its value is the sum of the magnitudes; and any addition that never
  rounds comes to the plain sum in this scheme.
* In another order the terms have the same sum.  The signs of the derivatives make no difference at
  all, in any mode. -/
theorem combine?_linear {cs : List Contribution} {ts : List Double} (h : terms? cs = some ts) :
    (∀ mode, mode ≠ .uncorrelated →
      ∃ figure, combine? mode cs = some figure ∧ figure.pick true = correlatedFigure ts) ∧
    (ts ≠ [] → Added Double.add (ts.map Double.abs : List Double) (correlatedFigure ts)) ∧
    (∀ xs : List Double, 128 < xs.length → ∃ front back, xs = front ++ back ∧ 8 ∣ front.length ∧
      (0 < front.length ∧ front.length < xs.length) ∧
      (0 < back.length ∧ back.length < xs.length) ∧
      correlatedFigure xs = (correlatedFigure front).add (correlatedFigure back)) ∧
    (Unrounded (ts.map Double.abs) →
      (correlatedFigure ts).toRat? = some (ts.map fun t => |t.value|).sum) ∧
    (∀ (M : Type) [AddCommMonoid M] (size : Double → M),
      blockedSum (· + ·) 0 (ts.map size) = (ts.map size).sum) ∧
    (∀ ds, ds.Perm cs → ∃ us, terms? ds = some us ∧
      (∀ (M : Type) [AddCommMonoid M] (size : Double → M),
        blockedSum (· + ·) 0 (us.map size) = blockedSum (· + ·) 0 (ts.map size)) ∧
      (Unrounded (us.map Double.abs) → Unrounded (ts.map Double.abs) →
        (correlatedFigure us).toRat? = (correlatedFigure ts).toRat?)) ∧
    (∀ ds, cs.Forall₂ Contribution.SameSize ds → ∀ mode, combine? mode ds = combine? mode cs) := by
  refine ⟨fun mode hmode => ?_, fun hts => ?_, fun xs => correlatedFigure_split,
    toRat?_correlatedFigure, fun M _ size => blockedSum_eq_sum _, fun ds hperm => ?_,
    fun ds => combine?_sameSize⟩
  · exact ⟨_, by rw [combine?, h, Option.map_some], pick_figures hmode ts⟩
  · exact added_blockedSum (mt List.map_eq_nil_iff.1 hts)
  · obtain ⟨us, hus, hsame⟩ := terms?_perm hperm h
    refine ⟨us, hus, fun M _ size => ?_, fun hu ht => ?_⟩
    · rw [blockedSum_eq_sum, blockedSum_eq_sum, (hsame.map size).sum_eq]
    · rw [toRat?_correlatedFigure hu, toRat?_correlatedFigure ht, (hsame.map _).sum_eq]

/-- Contributions of a half each of three hundred whole numbers, the derivatives with these
signs. -/
def halves (negative : ℕ → Bool) : List Contribution :=
  (List.range 300).map fun n =>
    ⟨.int (if negative n then -n else n), .float (.ofRatio false 1 2)⟩

/-- The terms of the contributions whose odd derivatives are below zero. -/
def alternatingTerms : List Double :=
  (List.range 300).map fun n => .ofRatio (n % 2 = 1) n 2

/-- Three hundred terms with signs in turn, of which the derivatives then lose their signs and the
contributions are taken from the last to the first. -/
theorem combine?_linear_halves :
    terms? (halves fun n => n % 2 = 1) = some alternatingTerms ∧
    (∃ figure, combine? .both (halves fun n => n % 2 = 1) = some figure ∧
      figure.pick true = correlatedFigure alternatingTerms) ∧
    Added Double.add (alternatingTerms.map Double.abs : List Double)
      (correlatedFigure alternatingTerms) ∧
    (correlatedFigure alternatingTerms).toRat? = some 22425 ∧
    (∃ us, terms? (halves fun n => n % 2 = 1).reverse = some us ∧
      (correlatedFigure us).toRat? = some 22425) ∧
    combine? .correlated (halves fun _ => false) =
      combine? .correlated (halves fun n => n % 2 = 1) := by
  have hterms : terms? (halves fun n => n % 2 = 1) = some alternatingTerms := by decide +kernel
  have hexact : Unrounded (alternatingTerms.map Double.abs) := by decide +kernel
  obtain ⟨hmode, hadded, -, hvalue, -, horder, hsigns⟩ := combine?_linear hterms
  have hsum : (alternatingTerms.map fun t => |t.value|).sum = 22425 := by decide +kernel
  rw [hsum] at hvalue
  refine ⟨hterms, hmode .both (by decide), hadded (by decide +kernel), hvalue hexact, ?_,
    hsigns _ ?_ .correlated⟩
  · obtain ⟨us, hus, -, hsame⟩ := horder _ (List.reverse_perm _)
    have hreverse : terms? (halves fun n => n % 2 = 1).reverse = some alternatingTerms.reverse := by
      decide +kernel
    have hback : Unrounded (alternatingTerms.reverse.map Double.abs) := by decide +kernel
    obtain rfl := Option.some.inj (hus.symm.trans hreverse)
    exact ⟨_, hus, (hsame hback hexact).trans (hvalue hexact)⟩
  · rw [halves, halves, List.forall₂_map_left_iff, List.forall₂_map_right_iff, List.forall₂_same]
    intro n _
    refine ⟨rfl, ?_⟩
    by_cases hodd : n % 2 = 1 <;> simp [hodd, Number.neg]

end ErrorBars
