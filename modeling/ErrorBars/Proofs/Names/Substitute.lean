import ErrorBars.Expr.Point
import ErrorBars.Proofs.Names.Derivative

/-!
# Values in the place of variables

What comes out when a value is put in the place of a variable is over the other variables and those
of the value (`over_substitute`).  Where the variable does not occur nothing happens at all
(`substitute_of_not_mem`), not even the reordering that building an application anew may bring.
-/

set_option autoImplicit false

namespace ErrorBars.Expr

/-! ## Equality -/

mutual

theorem eq_of_beq : ∀ {a b : Expr}, beq a b = true → a = b
  | .app _ _, .app _ _, h => by
    rw [beq, Bool.and_eq_true] at h
    obtain rfl := LawfulBEq.eq_of_beq h.1
    rw [eq_of_beqAll h.2]
  | .rat _, .rat _, h | .const _, .const _, h | .symbol _, .symbol _, h
  | .dummy _, .dummy _, h => by
    rw [beq] at h
    rw [LawfulBEq.eq_of_beq h]
  | .float _ _, .float _ _, h => by
    rw [beq, Bool.and_eq_true] at h
    rw [LawfulBEq.eq_of_beq h.1, LawfulBEq.eq_of_beq h.2]
  | .rat _, .float _ _, h | .rat _, .const _, h | .rat _, .symbol _, h | .rat _, .dummy _, h
  | .rat _, .app _ _, h | .float _ _, .rat _, h | .float _ _, .const _, h
  | .float _ _, .symbol _, h | .float _ _, .dummy _, h | .float _ _, .app _ _, h
  | .const _, .rat _, h | .const _, .float _ _, h | .const _, .symbol _, h
  | .const _, .dummy _, h | .const _, .app _ _, h | .symbol _, .rat _, h
  | .symbol _, .float _ _, h | .symbol _, .const _, h | .symbol _, .dummy _, h
  | .symbol _, .app _ _, h | .dummy _, .rat _, h | .dummy _, .float _ _, h
  | .dummy _, .const _, h | .dummy _, .symbol _, h | .dummy _, .app _ _, h
  | .app _ _, .rat _, h | .app _ _, .float _ _, h | .app _ _, .const _, h
  | .app _ _, .symbol _, h | .app _ _, .dummy _, h => by
    simp [beq] at h

theorem eq_of_beqAll : ∀ {as bs : List Expr}, beqAll as bs = true → as = bs
  | [], [], _ => rfl
  | _ :: _, _ :: _, h => by
    rw [beqAll, Bool.and_eq_true] at h
    rw [eq_of_beq h.1, eq_of_beqAll h.2]
  | [], _ :: _, h | _ :: _, [], h => by
    simp [beqAll] at h

end

mutual

theorem beq_refl : ∀ e : Expr, beq e e = true
  | .app _ as => by
    rw [beq, beqAll_refl as, beq_self_eq_true, Bool.and_self]
  | .rat _ | .const _ | .symbol _ | .dummy _ => by
    rw [beq, beq_self_eq_true]
  | .float _ _ => by
    rw [beq, beq_self_eq_true, beq_self_eq_true, Bool.and_self]

theorem beqAll_refl : ∀ es : List Expr, beqAll es es = true
  | [] => rfl
  | e :: es => by
    rw [beqAll, beq_refl e, beqAll_refl es, Bool.and_self]

end

instance : LawfulBEq Expr where
  eq_of_beq := eq_of_beq
  rfl := beq_refl _

variable {S T : String → Prop} {e f value : Expr} {name : String}

/-! ## Cases -/

theorem overAll_settleCases : ∀ {es : List Expr}, OverAll S es → OverAll S (settleCases es)
  | [], _ => overAll_nil
  | [_], h => h
  | v :: c :: rest, h => by
    have hv := overAll_cons.1 h
    have hc := overAll_cons.1 hv.2
    have ih : OverAll S (settleCases rest) := overAll_settleCases hc.2
    unfold settleCases
    split
    · rename_i happ
      cases happ
      split
      · simp [hv.1]
      · exact ih
      · exact overAll_cons.2 ⟨hv.1, overAll_cons.2 ⟨hc.1, ih⟩⟩
    · rename_i happ
      cases happ
      exact overAll_cons.2 ⟨hv.1, overAll_cons.2 ⟨hc.1, ih⟩⟩
    · exact h

theorem over_rebuildChecked {h : Head} {es : List Expr} {r : Expr} (hr : rebuild? h es = .ok r)
    (hes : OverAll S es) : Over S r := by
  unfold rebuild? at hr
  split at hr
  · exact over_applyChecked hr hes
  · have hcases := overAll_settleCases hes
    split at hr
    · rename_i heq
      rw [heq] at hcases
      exact Except.ok.inj hr ▸ (overAll_cons.1 hcases).1
    · exact Except.ok.inj hr ▸ over_undefined
    · exact Except.ok.inj hr ▸ over_app.2 hcases
  · exact Except.ok.inj hr ▸ over_rebuild hes

/-! ## Substitution -/

theorem over_derivativeAt (hvalue : Over T value) (hf : Over S f)
    (hothers : ∀ s, S s → s ≠ name → T s) : Over T (derivativeAt f name value) := by
  have hinner : Over T (f.foldUp (fun e => if e == .symbol name then .dummy "xi" else e) .app) := by
    refine over_foldUp_leaves (fun e hleaf he => ?_) (fun h as has => over_app.2 has) f hf
    split
    · exact over_dummy _
    · rename_i hne
      cases e with
      | symbol s =>
        refine over_symbol.2 (hothers s (over_symbol.1 he) fun hs => hne ?_)
        rw [hs, beq_self_eq_true]
      | app h as => exact absurd rfl (hleaf h as)
      | rat q => exact over_rat q
      | float x bits => exact over_float x bits
      | const c => exact over_const c
      | dummy s => exact over_dummy s
  unfold derivativeAt
  simp [hinner, hvalue]

mutual

/-- **A value in the place of a variable**: the result is over the other variables and those of the
value. -/
theorem over_substitute (hvalue : Over T value) (hothers : ∀ s, S s → s ≠ name → T s) :
    ∀ {e r : Expr}, substitute name value e = .ok r → Over S e → Over T r
  | .symbol s, r, h, he => by
    rw [substitute] at h
    obtain rfl := Except.ok.inj h
    split
    · exact hvalue
    · exact over_symbol.2 (hothers s (over_symbol.1 he) (by assumption))
  | .app hd as, r, h, he => by
    have has := over_app.1 he
    unfold substitute at h
    split at h
    · rename_i happ
      cases happ
    · rename_i f s happ
      obtain ⟨rfl, rfl⟩ := Expr.app.inj happ
      simp only [overAll_cons] at has
      split at h
      · exact Except.ok.inj h ▸ over_derivativeAt hvalue has.1 hothers
      · rename_i hs
        cases hg : substitute name value f with
        | error fault =>
          rw [hg] at h
          exact absurd h (by simp [bind, Except.bind])
        | ok g =>
          have ih := over_substitute hvalue hothers hg has.1
          rw [hg] at h
          obtain rfl := Except.ok.inj h
          simp [ih, hothers s (over_symbol.1 has.2.1) hs]
    · rename_i happ
      obtain ⟨rfl, rfl⟩ := Expr.app.inj happ
      cases hbs : substituteAll name value as with
      | error fault =>
        rw [hbs] at h
        exact absurd h (by simp [bind, Except.bind])
      | ok bs =>
        have ih := overAll_substituteAll hvalue hothers hbs has
        rw [hbs] at h
        simp only [bind, Except.bind] at h
        split at h
        · rename_i heq
          obtain rfl := Except.ok.inj h
          exact over_app.2 (LawfulBEq.eq_of_beq heq ▸ ih)
        · exact over_rebuildChecked h ih
    · rename_i happ
      exact absurd rfl (happ _ _)
  | .rat q, r, h, _ => by
    rw [substitute] at h
    · exact Except.ok.inj h ▸ over_rat q
    all_goals simp
  | .float x bits, r, h, _ => by
    rw [substitute] at h
    · exact Except.ok.inj h ▸ over_float x bits
    all_goals simp
  | .const c, r, h, _ => by
    rw [substitute] at h
    · exact Except.ok.inj h ▸ over_const c
    all_goals simp
  | .dummy s, r, h, _ => by
    rw [substitute] at h
    · exact Except.ok.inj h ▸ over_dummy s
    all_goals simp

theorem overAll_substituteAll (hvalue : Over T value) (hothers : ∀ s, S s → s ≠ name → T s) :
    ∀ {es rs : List Expr}, substituteAll name value es = .ok rs → OverAll S es → OverAll T rs
  | [], rs, h, _ => by
    rw [substituteAll] at h
    exact Except.ok.inj h ▸ overAll_nil
  | e :: es, rs, h, hes => by
    obtain ⟨he, hes⟩ := overAll_cons.1 hes
    rw [substituteAll] at h
    cases hr : substitute name value e with
    | error fault =>
      rw [hr] at h
      exact absurd h (by simp [bind, Except.bind])
    | ok r =>
      cases hrest : substituteAll name value es with
      | error fault =>
        rw [hr, hrest] at h
        exact absurd h (by simp [bind, Except.bind])
      | ok rest =>
        rw [hr, hrest] at h
        obtain rfl := Except.ok.inj h
        exact overAll_cons.2 ⟨over_substitute hvalue hothers hr he,
          overAll_substituteAll hvalue hothers hrest hes⟩

end

/-! ## Variables that do not occur -/

mutual

/-- **Nothing happens where the variable does not occur.** -/
theorem substitute_of_not_mem : ∀ {e : Expr}, name ∉ e.symbolList →
    substitute name value e = .ok e
  | .symbol s, h => by
    have hs : s ≠ name := fun hs => h (by simp [symbolList, hs])
    rw [substitute, if_neg hs]
  | .app hd as, h => by
    rw [symbolList] at h
    have has : substituteAll name value as = .ok as := substituteAll_of_not_mem h
    unfold substitute
    split
    · rename_i happ
      cases happ
    · rename_i f s happ
      obtain ⟨rfl, rfl⟩ := Expr.app.inj happ
      simp only [symbolLists, symbolList, List.append_nil, List.mem_append, List.mem_singleton,
        not_or] at h
      rw [if_neg (Ne.symm h.2), substitute_of_not_mem h.1]
      rfl
    · rename_i happ
      obtain ⟨rfl, rfl⟩ := Expr.app.inj happ
      rw [has]
      simp only [bind, Except.bind, beq_self_eq_true, if_true]
      rfl
    · rename_i happ
      exact absurd rfl (happ _ _)
  | .rat _, _ | .float _ _, _ | .const _, _ | .dummy _, _ => by
    rw [substitute]
    all_goals simp

theorem substituteAll_of_not_mem : ∀ {es : List Expr}, name ∉ symbolLists es →
    substituteAll name value es = .ok es
  | [], _ => by rw [substituteAll]
  | e :: es, h => by
    rw [symbolLists, List.mem_append, not_or] at h
    rw [substituteAll, substitute_of_not_mem h.1, substituteAll_of_not_mem h.2]
    rfl

end

end ErrorBars.Expr
