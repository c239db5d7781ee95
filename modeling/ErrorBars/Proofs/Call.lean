import ErrorBars.Session

/-!
# Opening calls

A call is a function of the state that it starts in.  This file opens the operations that calls are
made of, so that nothing behind it has to look into the monad: each operation applied to a state is
its answer together with the state it leaves.
-/

set_option autoImplicit false

namespace ErrorBars
namespace Call

variable {ε α β : Type}

/-- A sequence of calls: the second one starts where the first one ends, unless that fails. -/
theorem bind_apply (a : Call ε α) (f : α → Call ε β) (s : CallState ε) :
    (a >>= f) s = match a s with
      | (.ok x, t) => f x t
      | (.error fault, t) => (.error fault, t) := by
  have hbind : (a >>= f) s = (ExceptT.bindCont f (a s).1 : StateM (CallState ε) _) (a s).2 := rfl
  rw [hbind]
  rcases a s with ⟨x | x, t⟩ <;> rfl

theorem bind_ok {a : Call ε α} {f : α → Call ε β} {s t : CallState ε} {x : α}
    (h : a s = (.ok x, t)) : (a >>= f) s = f x t := by
  rw [bind_apply, h]

theorem bind_error {a : Call ε α} {f : α → Call ε β} {s t : CallState ε} {fault : CallFault}
    (h : a s = (.error fault, t)) : (a >>= f) s = (.error fault, t) := by
  rw [bind_apply, h]

/-- Two continuations need only agree where the first part can arrive. -/
theorem bind_congr {a : Call ε α} {f g : α → Call ε β} {s : CallState ε}
    (h : ∀ x t, a s = (.ok x, t) → f x t = g x t) : (a >>= f) s = (a >>= g) s := by
  rcases ha : a s with ⟨fault | x, t⟩
  · rw [bind_error ha, bind_error ha]
  · rw [bind_ok ha, bind_ok ha, h x t ha]

@[simp] theorem pure_apply (x : α) (s : CallState ε) : (pure x : Call ε α) s = (.ok x, s) := rfl

@[simp] theorem throw_apply (fault : CallFault) (s : CallState ε) :
    (throw fault : Call ε α) s = (.error fault, s) := rfl

@[simp] theorem get_apply (s : CallState ε) : (get : Call ε (CallState ε)) s = (.ok s, s) := rfl

@[simp] theorem set_apply (s t : CallState ε) : (set t : Call ε PUnit) s = (.ok ⟨⟩, t) := rfl

@[simp] theorem modify_apply (f : CallState ε → CallState ε) (s : CallState ε) :
    (modify f : Call ε PUnit) s = (.ok ⟨⟩, f s) := rfl

/-- A scope ends as its body does, with an empty registry. -/
@[simp] theorem scope_apply (body : Call ε α) (s : CallState ε) :
    scope body s = ((body s).1, { (body s).2 with registry := [] }) := rfl

/-- A formula that can be read is added to the registry. -/
theorem parse_ok {source : String} {names : List String} {e : Expr}
    (h : Formula.parse source names = .ok e) (s : CallState ε) :
    parse source names s = (.ok e, { s with registry := s.registry ++ [e] }) := by
  simp only [parse, Engine.parse, h]

/-- A text that cannot be read leaves everything as it was. -/
theorem parse_error {source : String} {names : List String} {fault : Formula.ParseFault}
    (h : Formula.parse source names = .error fault) (s : CallState ε) :
    parse source names s = (.error (.engine (Engine.ofParseFault source fault)), s) := by
  simp only [parse, Engine.parse, h]

@[simp] theorem differentiate_apply (e : Expr) (name : String) (s : CallState ε) :
    differentiate e name s = (.ok (e.differentiate name),
      { s with registry := s.registry ++ [e.differentiate name] }) := rfl

/-- An evaluation leaves everything as it was, whatever comes of it. -/
@[simp] theorem evaluate_apply (e : Expr) (bindings : Bindings) (s : CallState ε) :
    evaluate e bindings s = ((e.evaluate bindings).mapError .engine, s) := by
  rw [evaluate]
  cases e.evaluate bindings <;> rfl

end Call
end ErrorBars
