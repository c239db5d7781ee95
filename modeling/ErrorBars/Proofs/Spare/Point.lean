import ErrorBars.Engine
import ErrorBars.Proofs.Names.Simplify
import ErrorBars.Proofs.Names.Substitute
import ErrorBars.Proofs.Spare.Settles

/-!
# A value for a variable that does not occur

A point may give values to more variables than an expression has.  Such a value is never looked up,
and putting it in the place of its variable does nothing.  What is left of it is that it may not be
whole, which can make an integer part give up (`ErrorBars.Settles`).

* `Bindings.ordered_append` — a value more stands somewhere in the order in which values are put in,
  and leaves the order of the others as it is.
* `Expr.substituteMany_spare` — there it has no effect.
* `Expr.settles_evaluate` — an expression evaluated at two points of which one has a value more.
-/

set_option autoImplicit false

namespace ErrorBars

/-! ## A list with one more element -/

/-- A list with one more element, somewhere. -/
def Gains {α : Type} (a : α) (l l' : List α) : Prop :=
  ∃ before after, l = before ++ after ∧ l' = before ++ a :: after

namespace Gains

variable {α : Type} {a x : α} {l l' m m' : List α}

theorem last (a : α) (l : List α) : Gains a l (l ++ [a]) := ⟨l, [], by simp, rfl⟩

theorem append_left (h : Gains a l l') (m : List α) : Gains a (m ++ l) (m ++ l') := by
  obtain ⟨before, after, rfl, rfl⟩ := h
  exact ⟨m ++ before, after, by simp, by simp⟩

theorem append_right (h : Gains a l l') (m : List α) : Gains a (l ++ m) (l' ++ m) := by
  obtain ⟨before, after, rfl, rfl⟩ := h
  exact ⟨before, after ++ m, by simp, by simp⟩

theorem filter_of_pos (h : Gains a l l') {p : α → Bool} (ha : p a = true) :
    Gains a (l.filter p) (l'.filter p) := by
  obtain ⟨before, after, rfl, rfl⟩ := h
  exact ⟨before.filter p, after.filter p, by simp, by simp [ha]⟩

theorem filter_of_neg (h : Gains a l l') {p : α → Bool} (ha : p a = false) :
    l'.filter p = l.filter p := by
  obtain ⟨before, after, rfl, rfl⟩ := h
  simp [ha]

end Gains

section Sorting

variable {α : Type} {le : α → α → Bool} (htrans : ∀ a b c, le a b → le b c → le a c)
  (htotal : ∀ a b, le a b || le b a)

include htrans htotal

/-- Sorting puts an element between those that it does not precede and those that it does. -/
theorem mergeSort_cons_filter (x : α) (l : List α) :
    (x :: l).mergeSort le =
      (l.mergeSort le).filter (!le x ·) ++ x :: (l.mergeSort le).filter (le x ·) := by
  obtain ⟨before, after, hsort, hrest, hbefore⟩ := List.mergeSort_cons htrans htotal x l
  have hsorted := List.pairwise_mergeSort htrans htotal (x :: l)
  rw [hsort, List.pairwise_append] at hsorted
  have hafter : ∀ b ∈ after, le x b = true := (List.pairwise_cons.1 hsorted.2.1).1
  have hnot : ∀ b ∈ before, le x b = false := fun b hb => by simpa using hbefore b hb
  have hkeep : before.filter (!le x ·) = before ∧ after.filter (le x ·) = after := by
    constructor
    · exact List.filter_eq_self.2 fun b hb => by simp [hnot b hb]
    · exact List.filter_eq_self.2 fun b hb => hafter b hb
  have hdrop : before.filter (le x ·) = [] ∧ after.filter (!le x ·) = [] := by
    constructor
    · exact List.filter_eq_nil_iff.2 fun b hb => by simp [hnot b hb]
    · exact List.filter_eq_nil_iff.2 fun b hb => by simp [hafter b hb]
  rw [hsort, hrest, List.filter_append, List.filter_append, hkeep.1, hkeep.2, hdrop.1, hdrop.2,
    List.append_nil, List.nil_append]

/-- An element more at the end stands somewhere in the sorted list.  The induction is on the
elements in front of it, each of which finds its place in the lists with it and without it. -/
theorem gains_mergeSort (a : α) (l : List α) :
    Gains a (l.mergeSort le) ((l ++ [a]).mergeSort le) := by
  induction l with
  | nil => exact ⟨[], [], by simp, by simp⟩
  | cons x l ih =>
    rw [List.cons_append, mergeSort_cons_filter htrans htotal x l,
      mergeSort_cons_filter htrans htotal x (l ++ [a])]
    cases hx : le x a with
    | true =>
      rw [ih.filter_of_neg (by simp [hx])]
      exact ((ih.filter_of_pos hx).append_left [x]).append_left _
    | false =>
      rw [ih.filter_of_neg (p := (le x ·)) hx]
      exact (ih.filter_of_pos (by simp [hx])).append_right _

end Sorting

namespace Bindings

/-- **A value more stands somewhere among the others**, whose order it does not change. -/
theorem ordered_append (bs : Bindings) (b : String × Expr) :
    Gains b bs.ordered (ordered (bs ++ [b])) := by
  have hsorted : Gains b (bs.mergeSort fun a b => decide (a.1 ≤ b.1))
      ((bs ++ [b]).mergeSort fun a b => decide (a.1 ≤ b.1)) := by
    refine gains_mergeSort (fun a b c hab hbc => ?_) (fun a b => ?_) b bs
    · exact decide_eq_true (String.le_trans (of_decide_eq_true hab) (of_decide_eq_true hbc))
    · simpa using String.le_total a.1 b.1
  unfold ordered
  simp only
  cases hspecial : isSpecial b.2 with
  | true =>
    rw [hsorted.filter_of_neg (p := fun b => !isSpecial b.2) (by simp [hspecial])]
    exact (hsorted.filter_of_pos hspecial).append_right _
  | false =>
    rw [hsorted.filter_of_neg (p := fun b => isSpecial b.2) hspecial]
    exact (hsorted.filter_of_pos (by simp [hspecial])).append_left _

theorem secondsOver_ordered {S : String → Prop} {bs : Bindings} (h : Expr.SecondsOver S bs) :
    Expr.SecondsOver S bs.ordered := by
  intro b hb
  unfold ordered at hb
  simp only [List.mem_append, List.mem_filter, List.mem_mergeSort] at hb
  rcases hb with hb | hb
  · exact h b hb.1
  · exact h b hb.1

end Bindings

namespace Expr

variable {S : String → Prop} {n : String}

/-! ## Putting values in -/

theorem over_widened {v : Expr} (bits : Nat) (hv : Over S v) :
    Over S (Bindings.widened bits v) := by
  unfold Bindings.widened
  split
  · exact over_float _ _
  · exact hv

/-- Once values are put in, only those variables are left that have none, or come in with a value. -/
theorem over_substituteMany {T : String → Prop} (bits : Nat) :
    ∀ {bs : Bindings} {S : String → Prop} {e r : Expr}, SecondsOver T bs →
      (∀ s, S s → s ∈ bs.map Prod.fst ∨ T s) → substituteMany bits bs e = .ok r → Over S e →
      Over T r
  | [], S, e, r, _, hbound, h, he => by
    rw [substituteMany] at h
    exact Except.ok.inj h ▸ fun s hs => (hbound s (he s hs)).resolve_left List.not_mem_nil
  | (name, v) :: rest, S, e, r, hbs, hbound, h, he => by
    rw [secondsOver_cons] at hbs
    rw [substituteMany] at h
    cases hr : substitute name (Bindings.widened bits v) e with
    | error fault =>
      rw [hr] at h
      exact absurd h (by simp [bind, Except.bind])
    | ok g =>
      rw [hr] at h
      -- between the two steps there are variables of both kinds
      have hvalue : Over (fun s => (S s ∧ s ≠ name) ∨ T s) (Bindings.widened bits v) :=
        over_widened bits fun s hs => .inr (hbs.1 s hs)
      have hg := over_substitute hvalue (fun s hs hne => .inl ⟨hs, hne⟩) hr he
      refine over_substituteMany bits hbs.2 (fun s hs => ?_) h hg
      rcases hs with ⟨hs, hne⟩ | hs
      · exact (hbound s hs).imp_left fun hmem => (List.mem_cons.1 hmem).resolve_left hne
      · exact .inr hs

/-- A value is put in to no effect where its variable does not occur, nor comes in with the other
values. -/
theorem substituteMany_spare (bits : Nat) (v : Expr) {e : Expr} {bs bs' : Bindings}
    (hgains : Gains (n, v) bs bs') (hbs : SecondsOver (· ≠ n) bs) (he : Over (· ≠ n) e) :
    substituteMany bits bs' e = substituteMany bits bs e := by
  obtain ⟨before, after, rfl, rfl⟩ := hgains
  induction before generalizing e with
  | nil =>
    have hnot : n ∉ e.symbolList := fun h => he n h rfl
    rw [List.nil_append, substituteMany, substitute_of_not_mem hnot]
    rfl
  | cons b before ih =>
    rw [List.cons_append, secondsOver_cons] at hbs
    rw [List.cons_append, List.cons_append, substituteMany, substituteMany]
    cases hr : substitute b.1 (Bindings.widened bits b.2) e with
    | error fault => rfl
    | ok r =>
      exact ih (over_substitute (over_widened bits hbs.1) (fun s hs _ => hs) hr he) hbs.2

end Expr

/-! ## Evaluators -/

namespace Evaluation

variable {p : Prop} {evs evs' : List Evaluator}

theorem settleAlike_equal (h : List.Forall₂ (SettleAlike p) evs evs') :
    SettleAlike p (equal evs) (equal evs') := by
  intro bits limit
  refine (settles_runAll h _ _).bind fun xs => .refl ?_
  split
  · exact settled_pure _
  · exact (settled_throw _).2 nofun

theorem settleAlike_cases : ∀ {evs evs' : List Evaluator},
    List.Forall₂ (SettleAlike p) evs evs' → SettleAlike p (cases evs) (cases evs')
  | [], [], _ => fun _ _ => .refl (by simp [cases])
  | [_], [_], _ => fun _ _ => .refl (by simp [cases])
  | _ :: _ :: _, _ :: _ :: _, .cons hvalue (.cons hcondition hrest) => by
    intro bits limit
    refine (hcondition bits limit).bind fun x => ?_
    split
    · exact hvalue bits limit
    · exact settleAlike_cases hrest bits limit

theorem settled_leaf (e : Expr) (bits limit : Nat) : Settled (leaf e bits limit) := by
  unfold leaf
  split <;> simp [rational, constant, unsupported]

end Evaluation

/-- Two environments that settle alike what is over some variables. -/
structure Environment.Alike (S : String → Prop) (p : Prop) (env env' : Environment) : Prop where
  /-- they do so for the variables -/
  symbol : ∀ s, S s → SettleAlike p (env.symbol s) (env'.symbol s)
  /-- they do so for a function if they do so for its arguments -/
  function : ∀ f as {evs evs' : List Evaluator}, Expr.OverAll S as →
    List.Forall₂ (SettleAlike p) evs evs' →
      SettleAlike p (env.function f as evs) (env'.function f as evs')

namespace Expr

open Evaluation

section Environments

variable {S : String → Prop} {p : Prop} {env env' : Environment}

mutual

/-- **An expression is evaluated alike in two environments** that agree on its variables and on
functions. -/
theorem settleAlike_evaluatorIn (henv : env.Alike S p env') : ∀ {e : Expr}, Over S e →
    SettleAlike p (e.evaluatorIn env) (e.evaluatorIn env')
  | .symbol s, he => by
    rw [evaluatorIn, evaluatorIn]
    exact henv.symbol s (over_symbol.1 he)
  | .app .pow [b, e], he => by
    have has := over_app.1 he
    simp only [overAll_cons] at has
    have hb := settleAlike_evaluatorIn henv has.1
    have he := settleAlike_evaluatorIn henv has.2.1
    rw [evaluatorIn, evaluatorIn]
    split
    · exact settleAlike_powerInt hb _
    · split
      · exact settleAlike_squareRoot hb
      · split
        · exact settleAlike_exponential he
        · exact settleAlike_powerGeneral hb he _ _
  | .app .add _, he => by
    rw [evaluatorIn, evaluatorIn]
    exact settleAlike_sum (settleAlike_evaluatorsIn henv (over_app.1 he))
  | .app .mul _, he => by
    rw [evaluatorIn, evaluatorIn]
    exact settleAlike_product (settleAlike_evaluatorsIn henv (over_app.1 he))
  | .app (.fn f) as, he => by
    rw [evaluatorIn, evaluatorIn]
    exact henv.function f as (over_app.1 he) (settleAlike_evaluatorsIn henv (over_app.1 he))
  | .app .piecewise _, he => by
    rw [evaluatorIn, evaluatorIn]
    exact settleAlike_cases (settleAlike_evaluatorsIn henv (over_app.1 he))
  | .app .equal _, he => by
    rw [evaluatorIn, evaluatorIn]
    exact settleAlike_equal (settleAlike_evaluatorsIn henv (over_app.1 he))
  | .app .always _, _ => by
    rw [evaluatorIn, evaluatorIn]
    exact fun _ _ => .refl (settled_ok _)
  | .app .derivative _, _ | .app .subs _, _ | .app .pow [], _ | .app .pow [_], _
  | .app .pow (_ :: _ :: _ :: _), _ => by
    rw [evaluatorIn, evaluatorIn]
    · exact fun _ _ => .refl ((settled_error _).2 nofun)
    all_goals exact nofun
  | .rat _, _ | .float _ _, _ | .const _, _ | .dummy _, _ => by
    rw [evaluatorIn, evaluatorIn]
    · exact fun bits limit => .refl (settled_leaf _ bits limit)
    all_goals exact nofun

theorem settleAlike_evaluatorsIn (henv : env.Alike S p env') : ∀ {es : List Expr}, OverAll S es →
    List.Forall₂ (SettleAlike p) (evaluatorsIn env es) (evaluatorsIn env' es)
  | [], _ => by
    rw [evaluatorsIn, evaluatorsIn]
    exact .nil
  | _ :: _, hes => by
    rw [overAll_cons] at hes
    rw [evaluatorsIn, evaluatorsIn]
    exact .cons (settleAlike_evaluatorIn henv hes.1) (settleAlike_evaluatorsIn henv hes.2)

end

end Environments

/-- An expression without variables has nothing to give up on. -/
theorem settled_evaluator (e : Expr) (bits limit : Nat) : Settled (e.evaluator bits limit) := by
  have hclosed : closedEnvironment.Alike (fun _ => True) True closedEnvironment :=
    ⟨fun _ _ _ _ => .refl ((settled_error _).2 nofun), fun f _ _ _ _ h => settleAlike_function f h⟩
  exact (settleAlike_evaluatorIn hclosed (fun _ _ => trivial) bits limit).settled trivial

/-! ## Two points -/

section Points

variable {n : String} {v e : Expr} {bs : Bindings}

/-- A value more is the first one that is not whole, if it makes a difference to that at all. -/
theorem isFractional_append (bs : Bindings) (b : String × Expr) :
    Bindings.isFractional (bs ++ [b]) = bs.isFractional ∨ bs.isFractional = false := by
  cases h : bs.isFractional with
  | true =>
    rw [Bindings.isFractional] at h ⊢
    exact .inl (by simp [h])
  | false => exact .inr rfl

theorem settled_ofRefusal {α : Type} (fault : ArgumentFault) :
    Settled (.error (ofRefusal fault) : Except EvalFault α) := by
  cases fault <;> exact (settled_error _).2 nofun

theorem substituteMany_ordered (hbs : SecondsOver (· ≠ n) bs) (he : Over (· ≠ n) e) (bits : Nat) :
    substituteMany bits (Bindings.ordered (bs ++ [(n, v)])) e = substituteMany bits bs.ordered e :=
  substituteMany_spare bits v (Bindings.ordered_append bs (n, v))
    (Bindings.secondsOver_ordered hbs) he

theorem settleAlike_functionAt (hbs : SecondsOver (· ≠ n) bs) (f : Func) {as : List Expr}
    {evs evs' : List Evaluator} (has : OverAll (· ≠ n) as)
    (h : List.Forall₂ (SettleAlike (bs.isFractional = false)) evs evs') :
    SettleAlike (bs.isFractional = false) (functionAt bs f as evs)
      (functionAt (bs ++ [(n, v)]) f as evs') := by
  have hfollowed := settleAlike_followed (p := bs.isFractional = false) id
    (isFractional_append bs (n, v)) f h
  unfold functionAt
  cases hev : followed? bs.isFractional f evs with
  | some ev =>
    cases hev' : followed? (Bindings.isFractional (bs ++ [(n, v)])) f evs' with
    | none => simp [hev, hev', SettleAlike?] at hfollowed
    | some ev' =>
      rw [hev, hev'] at hfollowed
      exact hfollowed
  | none =>
    cases hev' : followed? (Bindings.isFractional (bs ++ [(n, v)])) f evs' with
    | some ev' => simp [hev, hev', SettleAlike?] at hfollowed
    | none =>
      intro bits limit
      simp only [substituteMany_ordered hbs (over_rawFn.2 has)]
      refine .refl ?_
      split
      · exact settled_ofRefusal _
      · split
        · exact (settled_error _).2 nofun
        · split
          · exact settled_ok _
          · exact settled_evaluator _ bits limit

theorem alike_environmentAt (hbs : SecondsOver (· ≠ n) bs) :
    (environmentAt bs).Alike (· ≠ n) (bs.isFractional = false)
      (environmentAt (bs ++ [(n, v)])) where
  symbol s hs bits limit := by
    have hlookup : (bs ++ [(n, v)]).lookup s = bs.lookup s := by
      rw [List.lookup_append, List.lookup_cons, beq_eq_false_iff_ne.2 hs, List.lookup_nil,
        Option.or_none]
    simp only [environmentAt, hlookup]
    cases bs.lookup s with
    | some value => exact .refl (settled_leaf value bits limit)
    | none => exact .refl ((settled_error _).2 nofun)
  function f _ _ _ has h := settleAlike_functionAt hbs f has h

/-! ## What is reached -/

theorem reachBySubstitution_append (hbs : SecondsOver (· ≠ n) bs) (he : Over (· ≠ n) e) :
    reachBySubstitution (bs ++ [(n, v)]) e = reachBySubstitution bs e := by
  rw [reachBySubstitution, reachBySubstitution, substituteMany_ordered hbs he]

theorem settled_reachBySubstitution (bs : Bindings) (e : Expr) :
    Settled (reachBySubstitution bs e) := by
  unfold reachBySubstitution
  split
  · exact settled_ofRefusal _
  · rename_i w _
    have hw := settled_evaluator w 53 pointBits.2
    split
    · exact settled_ok _
    · split
      · exact settled_ok _
      · split
        · exact settled_ok _
        · exact settled_ok _
        · rename_i fault _ heq
          rw [heq] at hw
          exact (settled_error fault).2 ((settled_error fault).1 hw)

theorem settles_reachPlainly (hbs : SecondsOver (· ≠ n) bs) (he : Over (· ≠ n) e) :
    Settles .unsettledInteger (bs.isFractional = false) (reachPlainly bs e)
      (reachPlainly (bs ++ [(n, v)]) e) := by
  obtain ⟨hsettled, hsame⟩ := settleAlike_evaluatorIn (alike_environmentAt (v := v) hbs) he
    pointBits.1 pointBits.2
  have hreach : bs.isFractional = false → Settled (reachPlainly bs e) := by
    intro hp
    have hev := hsettled hp
    unfold reachPlainly
    split
    · exact settled_ok _
    · exact settled_reachBySubstitution bs e
    · rename_i fault _ heq
      rw [heq] at hev
      exact (settled_error fault).2 ((settled_error fault).1 hev)
  refine ⟨hreach, ?_⟩
  unfold reachPlainly
  rw [reachBySubstitution_append hbs he]
  rcases hsame with hsame | ⟨hp, hsame⟩
  · rw [hsame]
    exact .inl rfl
  · rw [hsame]
    exact .inr ⟨hp, rfl⟩

mutual

theorem settles_reach (hbs : SecondsOver (· ≠ n) bs) : ∀ {e : Expr}, Over (· ≠ n) e →
    Settles .unsettledInteger (bs.isFractional = false) (reach bs e) (reach (bs ++ [(n, v)]) e)
  | .app (.fn f) as, he => by
    rw [reach, reach]
    split
    · refine (settles_reachAll hbs (over_app.1 he)).bind fun vs => .refl ?_
      split
      · exact settled_ofRefusal _
      · split
        · exact settled_pure _
        · split
          · exact settled_pure _
          · exact settled_pure _
    · exact settles_reachPlainly hbs he
  | .rat _, he | .float _ _, he | .const _, he | .symbol _, he | .dummy _, he
  | .app .add _, he | .app .mul _, he | .app .pow _, he | .app .derivative _, he
  | .app .subs _, he | .app .piecewise _, he | .app .equal _, he | .app .always _, he => by
    rw [reach, reach]
    · exact settles_reachPlainly hbs he
    all_goals exact nofun

theorem settles_reachAll (hbs : SecondsOver (· ≠ n) bs) : ∀ {es : List Expr}, OverAll (· ≠ n) es →
    Settles .unsettledInteger (bs.isFractional = false) (reachAll bs es)
      (reachAll (bs ++ [(n, v)]) es)
  | [], _ => by
    rw [reachAll, reachAll]
    exact .refl (settled_ok _)
  | _ :: _, hes => by
    rw [overAll_cons] at hes
    rw [reachAll, reachAll]
    refine (settles_reach hbs hes.1).bind fun r => ?_
    exact (settles_reachAll hbs hes.2).bind fun rs => .refl (settled_pure _)

end

theorem valueFault_ne (e : Expr) (names : List String) :
    valueFault e names ≠ .unsettledInteger := by
  unfold valueFault
  split
  · exact nofun
  · split
    · exact nofun
    · exact nofun

/-- The engine gives up on an integer part only where the evaluation does. -/
theorem ofEvalFault_ne {fault : EvalFault} (h : fault ≠ .unsettledInteger) :
    ofEvalFault e fault ≠ .unsettledInteger := by
  cases fault with
  | unsupported => exact valueFault_ne e []
  | unsettledInteger => exact absurd rfl h
  | _ => exact nofun

/-- **A value more for a variable that does not occur** leaves the value of an expression as it is,
unless all other values are whole and the evaluation gives up on an integer part. -/
theorem settles_evaluate (hbs : SecondsOver (· ≠ n) bs) (he : Over (· ≠ n) e) :
    Settles .unsettledInteger (bs.isFractional = false) (e.evaluate bs)
      (e.evaluate (bs ++ [(n, v)])) := by
  obtain ⟨hsettled, hsame⟩ := settles_reach (v := v) hbs he
  have hvalue : bs.isFractional = false → e.evaluate bs ≠ .error .unsettledInteger := by
    intro hp
    have hreach := hsettled hp
    unfold evaluate
    split
    · rename_i fault heq
      rw [heq] at hreach
      exact fun h => ofEvalFault_ne ((settled_error fault).1 hreach) (Except.error.inj h)
    · exact fun h => valueFault_ne _ _ (Except.error.inj h)
    · split
      · exact nofun
      · exact fun h => valueFault_ne _ _ (Except.error.inj h)
  refine ⟨hvalue, ?_⟩
  unfold evaluate
  rcases hsame with hsame | ⟨hp, hsame⟩
  · rw [hsame]
    exact .inl rfl
  · rw [hsame]
    exact .inr ⟨hp, rfl⟩

end Points

end Expr

end ErrorBars
