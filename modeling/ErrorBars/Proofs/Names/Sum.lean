import ErrorBars.Expr.Canonical.Sum
import ErrorBars.Proofs.Names.Basic

/-!
# Intervals and sums are over the variables of their parts

What a sum gathers on its way, a number and terms with the numbers in front of them, is over the
variables of the terms that it has taken in (`SumState.Over`).  That is the invariant of the loop,
and the canonical sum inherits it.
-/

set_option autoImplicit false

namespace ErrorBars.Canonical

open Expr (Over OverAll PairsOver)

variable {S : String → Prop} {A : Arith}

/-! ## Intervals -/

/-- Both ends are over these variables. -/
@[grind =] def Ends.Over (S : String → Prop) (s : Ends) : Prop :=
  Expr.Over S s.lower ∧ Expr.Over S s.upper

@[grind →] theorem over_of? {e : Expr} {s : Ends} (h : Ends.of? e = some s) (he : Over S e) :
    s.Over S := by
  unfold Ends.of? at h
  split at h
  · have hends := Expr.over_app.1 he
    cases h
    exact ⟨hends _ (by simp), hends _ (by simp)⟩
  · simp at h

@[grind ←] theorem over_interval {s : Ends} (h : s.Over S) : Over S s.interval := by
  unfold Ends.interval
  split
  · exact h.2
  · exact Expr.over_bounds.2 h

/-- The interval of what an operation on intervals gives, or what stands for it. -/
@[grind ←] theorem over_interval_getD {o : Option Ends} {d : Expr}
    (ho : ∀ t, o = some t → t.Over S) (hd : Over S d) :
    Over S ((o.map Ends.interval).getD d) := by
  cases o with
  | none => exact hd
  | some t => exact over_interval (ho t rfl)

@[grind ←] theorem over_line : Ends.line.Over S := ⟨Expr.over_const _, Expr.over_infinity⟩

@[grind ←] theorem over_around {es : List Expr} (hA : A.Preserves S) (h : OverAll S es) :
    (Ends.around A es).Over S :=
  ⟨hA.apply h, hA.apply h⟩

@[grind →] theorem over_endsAdd? {s t : Ends} {e : Expr} (h : s.add? A e = some t)
    (hA : A.Preserves S) (hs : s.Over S) (he : Over S e) : t.Over S := by
  unfold Ends.add? at h
  split at h <;> grind

@[grind →] theorem over_endsMul? {s t : Ends} {e : Expr} (h : s.mul? A e = some t)
    (hA : A.Preserves S) (hs : s.Over S) (he : Over S e) : t.Over S := by
  have hzero : s.mulZero.Over S := by grind [Ends.mulZero]
  have hinfinity : ∀ negative t, s.mulInfinity? negative = some t → t.Over S := by
    grind [Ends.mulInfinity?]
  unfold Ends.mul? at h
  split at h <;> grind

@[grind ←] theorem over_endsPowInt {s : Ends} {n : Int} (hA : A.Preserves S) (hs : s.Over S) :
    (s.powInt A n).Over S := by
  have hlower : ∀ m : Int, Over S (A.power s.lower (Expr.int m)) := by grind
  have hupper : ∀ m : Int, Over S (A.power s.upper (Expr.int m)) := by grind
  unfold Ends.powInt
  grind

@[grind →] theorem over_endsPow? {s t : Ends} {e : Expr} (h : s.pow? A e = some t)
    (hA : A.Preserves S) (hs : s.Over S) (he : Over S e) : t.Over S := by
  have hwhole : ∀ q : Rat, (if q.num = 1 then s else s.powInt A q.num).Over S := by grind
  unfold Ends.pow? at h
  simp only at h
  split at h
  · grind
  · split at h
    · have := hwhole
      grind
    · simp at h

@[grind ←] theorem over_endsPowInfinity (s : Ends) : Over S (s.powInfinity A) := by
  unfold Ends.powInfinity
  grind

@[grind →] theorem over_endsExponent? {b : Expr} {s t : Ends}
    (h : Ends.exponent? A b s = some t) (hA : A.Preserves S) (hb : Over S b) (hs : s.Over S) :
    t.Over S := by
  unfold Ends.exponent? at h
  grind

section

variable {a b v : Expr} (hA : A.Preserves S) (ha : Over S a) (hb : Over S b)

include hA ha hb

@[grind →] theorem over_boundsSum? (h : boundsSum? A a b = some v) : Over S v := by
  unfold boundsSum? at h
  split at h <;> grind

@[grind →] theorem over_boundsProduct? (h : boundsProduct? A a b = some v) : Over S v := by
  unfold boundsProduct? at h
  split at h <;> grind

@[grind →] theorem over_boundsPower? (h : boundsPower? A a b = some v) : Over S v := by
  unfold boundsPower? at h
  split at h <;> grind

end

/-! ## Sums -/

/-- What has been gathered is over these variables. -/
@[grind =] def SumState.Over (S : String → Prop) (s : SumState) : Prop :=
  Expr.Over S s.coeff ∧ PairsOver S s.terms

@[grind ←] theorem over_addNumber {s : SumState} {n : Expr} (hA : A.Preserves S) (hs : s.Over S)
    (hn : Over S n) : (s.addNumber A n).Over S := by
  unfold SumState.addNumber
  split <;> grind

@[grind ←] theorem over_addInfinity {s : SumState} (hs : s.Over S) : s.addInfinity.Over S := by
  unfold SumState.addInfinity
  split <;> grind

theorem over_bump {n t : Expr} {ps qs : List (Expr × Expr)} (h : SumState.bump n t ps = some qs)
    (hps : PairsOver S ps) : PairsOver S qs := by
  induction ps generalizing qs with
  | nil => simp [SumState.bump] at h
  | cons p rest ih =>
    obtain ⟨hp, hrest⟩ := Expr.pairsOver_cons.1 hps
    rw [SumState.bump] at h
    split at h
    · rw [← Option.some.inj h, Expr.pairsOver_cons]
      exact ⟨⟨hp.1, Expr.over_addNumbers _ _⟩, hrest⟩
    · obtain ⟨others, hothers, rfl⟩ := Option.map_eq_some_iff.1 h
      exact Expr.pairsOver_cons.2 ⟨hp, ih hothers hrest⟩

@[grind ←] theorem over_addTerm {s : SumState} {n t : Expr} (hs : s.Over S) (hn : Over S n)
    (ht : Over S t) : (s.addTerm n t).Over S := by
  unfold SumState.addTerm
  split
  · rename_i terms hbump
    exact ⟨hs.1, over_bump hbump hs.2⟩
  · exact ⟨hs.1, Expr.pairsOver_cons.2 ⟨⟨ht, hn⟩, hs.2⟩⟩

/-- Taking in a term keeps the invariant, however deeply sums are opened. -/
@[grind ←] theorem over_sumTake {fuel : Nat} {s : SumState} {e : Expr} (hA : A.Preserves S)
    (hs : s.Over S) (he : Over S e) : (s.take A fuel e).Over S := by
  induction fuel generalizing s e with
  | zero =>
    rw [SumState.take]
    split
    · exact over_addNumber hA hs he
    · exact over_addTerm hs Expr.over_one he
  | succ fuel ih =>
    unfold SumState.take
    split
    · exact over_addNumber hA hs he
    · split
      · exact over_addInfinity hs
      · exact ⟨Expr.over_getD (fun v hv => over_boundsSum? hA he hs.1 hv) he, hs.2⟩
      · exact List.foldlRecOn _ _ hs fun t ht x hx => ih ht (Expr.over_app.1 he x hx)
      · have hparts := Expr.over_coeffMul he
        exact over_addTerm hs hparts.1 hparts.2
      · rename_i b x _
        obtain ⟨hb, hx⟩ : Over S b ∧ Over S x := by simpa using he
        have heither : ∀ stale : Bool, SumState.Over S
            (if stale && !(A.power b x == .app .pow [b, x]) then s.take A fuel (A.power b x)
              else s.addTerm Expr.one (.app .pow [b, x])) := by
          intro stale
          split
          · exact ih hs (hA.power hb hx)
          · exact over_addTerm hs Expr.over_one he
        exact heither _
      · exact over_addTerm hs Expr.over_one he

@[grind →] theorem over_term? {p : Expr × Expr} {t : Expr} (h : SumState.term? A p = some t)
    (hA : A.Preserves S) (hp : Over S p.1 ∧ Over S p.2) : Over S t := by
  unfold SumState.term? at h
  grind

@[grind ←] theorem over_sumFinish {s : SumState} (hA : A.Preserves S) (hs : s.Over S) :
    Over S (s.finish A) := by
  have hterms : OverAll S (s.terms.reverse.filterMap (SumState.term? A)) :=
    Expr.overAll_filterMap fun p hp t ht =>
      over_term? ht hA (hs.2 p (List.mem_reverse.1 hp))
  unfold SumState.finish
  split
  · exact Expr.over_undefined
  · refine Expr.over_sumOf ?_
    grind

/-- **A canonical sum is over the variables of its terms.** -/
@[grind ←] theorem over_sum {es : List Expr} (hA : A.Preserves S) (h : OverAll S es) :
    Over S (sum A es) := by
  have hgeneral : ∀ ts : List Expr, OverAll S ts →
      Over S ((ts.foldl (SumState.take A openingDepth) SumState.empty).finish A) := by
    intro ts hts
    refine over_sumFinish hA (List.foldlRecOn _ _ ?_ fun s hs t ht => over_sumTake hA hs (hts t ht))
    exact ⟨Expr.over_zero, Expr.pairsOver_nil⟩
  have hfilter : OverAll S (es.filter fun e => !(e == Expr.zero)) := Expr.overAll_filter h
  unfold sum
  generalize es.filter (fun e => !(e == Expr.zero)) = ts at hfilter
  split
  · exact Expr.over_zero
  · exact hfilter _ (List.mem_singleton_self _)
  · grind
  · grind
  · simp only
    split
    · exact Expr.over_getD (fun v hv => over_boundsSum? hA (hfilter _ (by simp)) (hfilter _ (by simp)) hv)
        (hgeneral _ hfilter)
    · exact hgeneral _ hfilter

end ErrorBars.Canonical
