import ErrorBars.Proofs.Names.Simplify
import ErrorBars.Proofs.Spare.Point

/-!
# Which variables are left at a point

Where all variables of an expression have values one expects none of them to be left in what it
comes to, and a fault that names variables without a value to be out of the question.  That is so
but for one case.  If an expression cannot be followed down to its variables, the values are put into
the whole of it; and if what comes out has no value, because it is complex infinity, a function that
has none there, or a derivative that was left as it is, then the evaluation hands back the expression
from before, variables and all (`Stalls`).

`over_reach` is the induction, with one clause for what is left in any case and one for what is left
unless something stalls.  `evaluate_unbound` says what it means for the fault.
-/

set_option autoImplicit false

namespace ErrorBars

theorem Bindings.mem_names_ordered {bs : Bindings} {s : String} :
    s ∈ bs.ordered.map Prod.fst ↔ s ∈ bs.map Prod.fst := by
  have hmem : ∀ b, b ∈ bs.ordered ↔ b ∈ bs := by
    intro b
    rw [ordered]
    cases h : isSpecial b.2 <;> simp [h]
  simp only [List.mem_map, hmem]

namespace Expr

/-- Neither the largest nor the smallest of several expressions. -/
def Plain (e : Expr) : Prop := ∀ f as, e = .app (.fn f) as → f ≠ .max ∧ f ≠ .min

/-- An expression comes to nothing at a point, although values can be put into it. -/
inductive Stalls (bs : Bindings) : Expr → Prop where
  /-- it cannot be followed down to the variables, and with the values put in it has none -/
  | whole {e v : Expr} (plain : e.Plain)
      (unfollowed : e.evaluatorIn (environmentAt bs) pointBits.1 pointBits.2 = .error .unsupported)
      (putIn : substituteMany 53 bs.ordered e = .ok v) (parts : v.hasEvaluableParts = false) :
      Stalls bs e
  /-- it is the largest or the smallest of several, one of which stalls -/
  | extreme {f : Func} {as : List Expr} {a : Expr} (head : f = .max ∨ f = .min) (mem : a ∈ as)
      (stalls : Stalls bs a) : Stalls bs (.app (.fn f) as)

/-- The values are over some variables, and the others of a larger collection all have one. -/
structure Bound (S T : String → Prop) (bs : Bindings) : Prop where
  /-- the variables of the values -/
  values : SecondsOver T bs
  /-- what is left over has a value -/
  names : ∀ s, S s → s ∈ bs.map Prod.fst ∨ T s
  /-- the collection is larger -/
  subset : ∀ s, T s → S s

variable {S T : String → Prop} {bs : Bindings} {e : Expr}

theorem reach_of_plain (h : e.Plain) : e.reach bs = reachPlainly bs e := by
  cases e with
  | app hd as =>
    cases hd with
    | fn f =>
      rw [reach, if_neg (not_or.2 (h f as rfl))]
      rfl
    | _ =>
      rw [reach]
      intro f as heq
      cases heq
  | _ =>
    rw [reach]
    intro f as heq
    cases heq

theorem over_ofEvaluated (bits : Nat) (v : Evaluated) : Over S (ofEvaluated bits v) := by
  have hpart : ∀ p : Option Part, Over S ((p.map (Canonical.ofPart bits)).getD zero) := by
    intro p
    cases p <;> simp
  cases v with
  | complexInfinity => exact over_complexInfinity
  | parts re im =>
    have hproduct := over_product (overAll_cons.2 ⟨hpart im, overAll_cons.2 ⟨over_imaginary, overAll_nil⟩⟩)
    exact over_sum (overAll_cons.2 ⟨hpart re, overAll_cons.2 ⟨hproduct, overAll_nil⟩⟩)

/-- What an expression comes to if it is neither the largest nor the smallest of several: either all
variables with values are gone, or it stalls and is still there. -/
theorem reachPlainly_cases (hbound : Bound S T bs) (hplain : e.Plain) {r : Reached}
    (h : reachPlainly bs e = .ok r) (he : Over S e) :
    Over T r.expr ∨ (r = .stuck e ∧ Stalls bs e) := by
  rw [reachPlainly] at h
  split at h
  · exact .inl (Except.ok.inj h ▸ over_ofEvaluated 53 _)
  · rename_i hunfollowed
    rw [reachBySubstitution] at h
    split at h
    · cases h
    · rename_i v hv
      have hputIn : Over T v := over_substituteMany 53 (Bindings.secondsOver_ordered hbound.values)
        (fun s hs => (hbound.names s hs).imp_left Bindings.mem_names_ordered.2) hv he
      split at h
      · rename_i hparts
        refine .inr ⟨(Except.ok.inj h).symm, .whole hplain hunfollowed hv ?_⟩
        simpa using hparts
      · refine .inl ?_
        split at h
        · exact Except.ok.inj h ▸ hputIn
        · split at h
          · exact Except.ok.inj h ▸ over_ofEvaluated 53 _
          · exact Except.ok.inj h ▸ hputIn
          · cases h
  · cases h

theorem over_reach_of_plain (hbound : Bound S T bs) (hplain : e.Plain) {r : Reached}
    (h : reach bs e = .ok r) (he : Over S e) : Over S r.expr ∧ (Over T r.expr ∨ Stalls bs e) := by
  rw [reach_of_plain hplain] at h
  rcases reachPlainly_cases hbound hplain h he with hleft | ⟨rfl, hstalls⟩
  · exact ⟨fun s hs => hbound.subset s (hleft s hs), .inl hleft⟩
  · exact ⟨he, .inr hstalls⟩

mutual

/-- **What is left at a point**: variables of the expression in any case, and none of those that have
values unless something stalls. -/
theorem over_reach (hbound : Bound S T bs) : ∀ {e : Expr} {r : Reached}, Over S e →
    reach bs e = .ok r → Over S r.expr ∧ (Over T r.expr ∨ Stalls bs e)
  | .app (.fn f) as, r, he, h => by
    by_cases hf : f = .max ∨ f = .min
    · rw [reach, if_pos hf] at h
      cases hvs : reachAll bs as with
      | error fault =>
        rw [hvs] at h
        cases h
      | ok vs =>
        obtain ⟨hall, hstalls⟩ := overAll_reachAll hbound (over_app.1 he) hvs
        rw [hvs] at h
        simp only [bind, Except.bind] at h
        cases hv : applyChecked f vs with
        | error fault =>
          rw [hv] at h
          cases h
        | ok v =>
          rw [hv] at h
          simp only [pure, Except.pure] at h
          -- either way `v` is all that can still hold a variable
          have hr : ∀ {P : String → Prop}, Over P v → Over P r.expr := by
            intro P hP
            split at h
            · exact Except.ok.inj h ▸ hP
            · split at h
              · exact Except.ok.inj h ▸ over_ofEvaluated 53 _
              · exact Except.ok.inj h ▸ hP
          refine ⟨hr (over_applyChecked hv hall), ?_⟩
          rcases hstalls with hleft | ⟨a, ha, hstalls⟩
          · exact .inl (hr (over_applyChecked hv hleft))
          · exact .inr (.extreme hf ha hstalls)
    · refine over_reach_of_plain hbound (fun g bs heq => ?_) h he
      cases heq
      exact not_or.1 hf
  | .rat _, _, he, h | .float _ _, _, he, h | .const _, _, he, h | .symbol _, _, he, h
  | .dummy _, _, he, h | .app .add _, _, he, h | .app .mul _, _, he, h | .app .pow _, _, he, h
  | .app .derivative _, _, he, h | .app .subs _, _, he, h | .app .piecewise _, _, he, h
  | .app .equal _, _, he, h | .app .always _, _, he, h => by
    refine over_reach_of_plain hbound (fun f as heq => ?_) h he
    cases heq

theorem overAll_reachAll (hbound : Bound S T bs) : ∀ {es vs : List Expr}, OverAll S es →
    reachAll bs es = .ok vs → OverAll S vs ∧ (OverAll T vs ∨ ∃ e ∈ es, Stalls bs e)
  | [], vs, _, h => by
    rw [reachAll] at h
    exact Except.ok.inj h ▸ ⟨overAll_nil, .inl overAll_nil⟩
  | e :: es, vs, hes, h => by
    obtain ⟨he, hes⟩ := overAll_cons.1 hes
    rw [reachAll] at h
    cases hr : reach bs e with
    | error fault =>
      rw [hr] at h
      cases h
    | ok r =>
      cases hrest : reachAll bs es with
      | error fault =>
        rw [hr, hrest] at h
        cases h
      | ok rest =>
        rw [hr, hrest] at h
        obtain rfl := Except.ok.inj h
        obtain ⟨hleft, hfirst⟩ := over_reach hbound he hr
        obtain ⟨hlefts, hothers⟩ := overAll_reachAll hbound hes hrest
        refine ⟨overAll_cons.2 ⟨hleft, hlefts⟩, ?_⟩
        rcases hfirst with hfirst | hstalls
        · rcases hothers with hothers | ⟨a, ha, hstalls⟩
          · exact .inl (overAll_cons.2 ⟨hfirst, hothers⟩)
          · exact .inr ⟨a, List.mem_cons_of_mem _ ha, hstalls⟩
        · exact .inr ⟨e, List.mem_cons_self, hstalls⟩

end

/-! ## Faults about variables without values -/

theorem mem_leftNames {s : String} : s ∈ e.leftNames ↔ s ∈ e.freeSymbols := List.mem_mergeSort

theorem valueFault_eq_unbound {names names' : List String} {f : Expr}
    (h : valueFault e names = .unbound names' f) : f = e ∧ names' = names ∧ names ≠ [] := by
  cases names with
  | nil =>
    rw [valueFault] at h
    split at h <;> cases h
  | cons name names =>
    simp only [valueFault] at h
    split at h
    · cases h
    · cases h
      exact ⟨rfl, rfl, List.cons_ne_nil name names⟩

theorem valueFault_leftNames (hwritable : e.isWritable = true) (hne : e.freeSymbols ≠ []) :
    valueFault e e.leftNames = .unbound e.leftNames e := by
  obtain ⟨s, hs⟩ := List.exists_mem_of_ne_nil _ hne
  have hleft : e.leftNames ≠ [] := List.ne_nil_of_mem (mem_leftNames.2 hs)
  obtain ⟨name, names, h⟩ := List.exists_cons_of_ne_nil hleft
  rw [h]
  simp only [valueFault, hwritable, Bool.not_true, Bool.false_eq_true, if_false]

/-- A fault that names variables is about what has been reached, which has these variables left. -/
theorem reach_of_unbound {names : List String} {f : Expr}
    (h : e.evaluate bs = .error (.unbound names f)) :
    f = e ∧ ∃ rest, e.reach bs = .ok (.stuck rest) ∧ names = rest.leftNames ∧
      rest.leftNames ≠ [] := by
  have hnone : valueFault e [] ≠ .unbound names f := fun h => (valueFault_eq_unbound h).2.2 rfl
  rw [evaluate] at h
  split at h
  · rename_i fault _
    cases fault with
    | unsupported => exact absurd (Except.error.inj h) hnone
    | _ => cases h
  · rename_i rest hrest
    obtain ⟨rfl, rfl, hne⟩ := valueFault_eq_unbound (Except.error.inj h)
    exact ⟨rfl, rest, hrest, rfl, hne⟩
  · split at h
    · cases h
    · exact absurd (Except.error.inj h) hnone

/-- Values without variables for all variables of an expression. -/
structure Given (bs : Bindings) (e : Expr) : Prop where
  /-- the values are closed -/
  closed : SecondsOver (fun _ => False) bs
  /-- each variable has one -/
  bound : ∀ s ∈ e.freeSymbols, s ∈ bs.map Prod.fst

theorem Given.left (h : Given bs e) {rest : Expr} (hrest : e.reach bs = .ok (.stuck rest)) :
    (∀ s ∈ rest.freeSymbols, s ∈ e.freeSymbols) ∧ (rest.freeSymbols = [] ∨ Stalls bs e) := by
  have hbound : Bound (· ∈ e.freeSymbols) (fun _ => False) bs :=
    ⟨h.closed, fun s hs => .inl (h.bound s hs), nofun⟩
  obtain ⟨hleft, hstalls⟩ := over_reach hbound (over_iff_freeSymbols.2 fun _ hs => hs) hrest
  refine ⟨over_iff_freeSymbols.1 hleft, hstalls.imp_left fun hnone => ?_⟩
  exact List.eq_nil_iff_forall_not_mem.2 (over_iff_freeSymbols.1 hnone)

/-- **Where all variables have values**, a fault names variables without one only if the expression
stalls; and these are variables of the expression. -/
theorem evaluate_unbound (h : Given bs e) {names : List String} {f : Expr}
    (hunbound : e.evaluate bs = .error (.unbound names f)) :
    f = e ∧ Stalls bs e ∧ ∀ n ∈ names, n ∈ e.freeSymbols := by
  obtain ⟨rfl, rest, hrest, rfl, hne⟩ := reach_of_unbound hunbound
  obtain ⟨hleft, hstalls⟩ := h.left hrest
  refine ⟨rfl, hstalls.resolve_left fun hnone => ?_, fun n hn => hleft n (mem_leftNames.1 hn)⟩
  obtain ⟨n, hn⟩ := List.exists_mem_of_ne_nil _ hne
  rw [mem_leftNames, hnone] at hn
  exact List.not_mem_nil hn

/-- An expression that stalls as a whole is handed back, and the fault names all of its variables. -/
theorem evaluate_of_stalls (hplain : e.Plain) (h : Stalls bs e) :
    e.evaluate bs = .error (valueFault e e.leftNames) := by
  cases h with
  | whole _ unfollowed putIn parts =>
    have hreach : e.reach bs = .ok (.stuck e) := by
      rw [reach_of_plain hplain, reachPlainly, unfollowed]
      simp only [reachBySubstitution, putIn, parts, Bool.not_false, if_true]
    rw [evaluate, hreach]
  | extreme head _ _ =>
    obtain ⟨hmax, hmin⟩ := hplain _ _ rfl
    exact (head.elim hmax hmin).elim

end Expr
end ErrorBars
