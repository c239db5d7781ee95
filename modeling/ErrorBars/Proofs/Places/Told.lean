import ErrorBars.Proofs.Watched

/-!
# The order in which slopes are told

A calculation tells its listeners of slopes along the list of the variables and stops where a slope
cannot be found or a listener fails.  Whatever the listeners do, the variables whose slopes they are
told are the first ones of the list (`variablesOf_emissions`).
-/

set_option autoImplicit false

namespace ErrorBars

/-- The variable whose slope an event tells. -/
def Event.variable? : Event → Option String
  | .differential d => some d.name
  | _ => none

namespace Watched

variable {ε α β : Type} {names : List String}

/-- The variables whose slopes are told, in order. -/
def variablesOf (ms : List Emission) : List String := ms.filterMap fun m => m.event.variable?

theorem variablesOf_append (ms ns : List Emission) :
    variablesOf (ms ++ ns) = variablesOf ms ++ variablesOf ns := List.filterMap_append

/-- A call that tells slopes along a list of variables, but maybe not of all of them. -/
def Tells (names : List String) (a : Call (Emission ⊕ ε) α) : Prop :=
  ∀ s, ∃ new, emissionsIn (a s).2 = emissionsIn s ++ new ∧ variablesOf new <+: names

theorem emissionsIn_watched (emit : Event → Call ε Unit) (event : Event)
    (s : CallState (Emission ⊕ ε)) :
    ∃ fault?, emissionsIn (watched emit event s).2 = emissionsIn s ++ [⟨event, fault?⟩] :=
  ⟨_, by rw [watched, emissionsIn_frame]⟩

namespace Tells

variable {a : Call (Emission ⊕ ε) α} {f : α → Call (Emission ⊕ ε) β}

/-- A call that tells nothing. -/
theorem of_silent (h : ∀ s, emissionsIn (a s).2 = emissionsIn s) : Tells names a := fun s =>
  ⟨[], by rw [h, List.append_nil], List.nil_prefix⟩

theorem pure (x : α) : Tells names (Pure.pure x : Call (Emission ⊕ ε) α) := of_silent fun _ => rfl

theorem throw (fault : CallFault) :
    Tells names (MonadExcept.throw fault : Call (Emission ⊕ ε) α) :=
  of_silent fun _ => rfl

theorem parse (source : String) (others : List String) :
    Tells names (Call.parse source others : Call (Emission ⊕ ε) Expr) := by
  refine of_silent fun s => ?_
  cases h : Formula.parse source others with
  | error fault => rw [Call.parse_error h]
  | ok e =>
    rw [Call.parse_ok h]
    rfl

theorem evaluate (e : Expr) (bindings : Bindings) :
    Tells names (Call.evaluate e bindings : Call (Emission ⊕ ε) Double) :=
  of_silent fun s => by rw [Call.evaluate_apply]

theorem differentiate (e : Expr) (name : String) :
    Tells names (Call.differentiate e name : Call (Emission ⊕ ε) Expr) :=
  of_silent fun _ => rfl

theorem scope (h : Tells names a) : Tells names (Call.scope a) := fun s => h s

/-- What comes behind a call that tells no slopes. -/
theorem bind (ha : Tells [] a) (hf : ∀ x, Tells names (f x)) : Tells names (a >>= f) := by
  intro s
  obtain ⟨new, hnew, hnone⟩ := ha s
  rcases hs : a s with ⟨fault | x, t⟩
  · rw [Call.bind_error hs]
    rw [hs] at hnew
    exact ⟨new, hnew, hnone.trans List.nil_prefix⟩
  · rw [Call.bind_ok hs]
    rw [hs] at hnew
    obtain ⟨more, hmore, hbegins⟩ := hf x t
    refine ⟨new ++ more, by rw [hmore, hnew, List.append_assoc], ?_⟩
    rwa [variablesOf_append, List.prefix_nil.1 hnone, List.nil_append]

/-- What comes in front of a call that tells no slopes. -/
theorem bind_silent (ha : Tells names a) (hf : ∀ x, Tells [] (f x)) : Tells names (a >>= f) := by
  intro s
  obtain ⟨new, hnew, hbegins⟩ := ha s
  rcases hs : a s with ⟨fault | x, t⟩
  · rw [Call.bind_error hs]
    rw [hs] at hnew
    exact ⟨new, hnew, hbegins⟩
  · rw [Call.bind_ok hs]
    rw [hs] at hnew
    obtain ⟨more, hmore, hnone⟩ := hf x t
    refine ⟨new ++ more, by rw [hmore, hnew, List.append_assoc], ?_⟩
    rwa [variablesOf_append, List.prefix_nil.1 hnone, List.append_nil]

variable (emit : Event → Call ε Unit)

/-- An event that tells no slope. -/
theorem watched {event : Event} (h : event.variable? = none) :
    Tells names (watched emit event) := by
  intro s
  obtain ⟨fault?, hs⟩ := emissionsIn_watched emit event s
  have hnone : variablesOf [⟨event, fault?⟩] = [] := by simp [variablesOf, h]
  exact ⟨_, hs, hnone ▸ List.nil_prefix⟩

/-- A slope, and those behind it. -/
theorem watched_differential {d : Differential} {f : Unit → Call (Emission ⊕ ε) β}
    (hf : ∀ x, Tells names (f x)) :
    Tells (d.name :: names) (Watched.watched emit (.differential d) >>= f) := by
  intro s
  obtain ⟨fault?, htold⟩ := emissionsIn_watched emit (.differential d) s
  rcases hs : Watched.watched emit (.differential d) s with ⟨fault | x, t⟩
  · rw [Call.bind_error hs]
    rw [hs] at htold
    exact ⟨_, htold, List.prefix_append [d.name] names⟩
  · rw [Call.bind_ok hs]
    rw [hs] at htold
    obtain ⟨more, hmore, hbegins⟩ := hf x t
    refine ⟨⟨.differential d, fault?⟩ :: more, ?_, (List.prefix_cons_inj d.name).2 hbegins⟩
    rw [hmore, htold, List.append_assoc, List.singleton_append]

/-- **The loop over the variables tells slopes in their order.** -/
theorem slopes (formula : Expr) (vs : Variables) (point : Bindings) (names : List String) :
    Tells names (Propagator.slopes (Watched.watched emit) formula vs point names) := by
  induction names with
  | nil => exact pure []
  | cons name names ih =>
    rw [Propagator.slopes]
    cases vs.find? name with
    | none => exact throw _
    | some m =>
      refine bind (differentiate formula name) fun d => bind (evaluate d point) fun value => ?_
      exact watched_differential emit fun _ => ih.bind_silent fun _ => pure _

theorem expand {source : String} {vs : Variables} {e : Expr}
    (hparse : Formula.parse source (vs.map Prod.fst) = .ok e) :
    Tells (Formula.freeVariables e source)
      (Propagator.expand (Watched.watched emit) source vs) := by
  refine scope fun s => ?_
  rw [Call.bind_ok (Call.parse_ok hparse s)]
  simp only
  cases (Formula.freeVariables e source).filter fun name => (vs.find? name).isNone with
  | nil =>
    exact (slopes emit e vs _ _).bind_silent (fun _ => bind (evaluate e _) fun _ => pure _) _
  | cons name missing => exact throw _ _

end Tells

/-- **Slopes are told in the order of the variables**, whatever the listeners do. -/
theorem variablesOf_emissions (emit : Event → Call ε Unit) (mode : Correlation) {source : String}
    {inputs : Datum} {vs : Variables} {e : Expr} (hvs : readVariables inputs = .ok vs)
    (hparse : Formula.parse source (vs.map Prod.fst) = .ok e) (s : CallState ε) :
    variablesOf (emissions emit mode (.text source) inputs s) <+:
      Formula.freeVariables e source := by
  have htells : Tells (Formula.freeVariables e source)
      (Propagator.calculate (watched emit) mode (.text source) inputs) := by
    refine (Tells.watched emit rfl).bind fun _ => ?_
    cases hsource : Propagator.readFormula (.text source) with
    | error fault => exact Tells.throw _
    | ok text =>
      obtain rfl : source = text := by
        rw [Propagator.readFormula] at hsource
        split at hsource
        · contradiction
        · exact Except.ok.inj hsource
      simp only [hvs]
      refine (Tells.expand emit hparse).bind_silent fun p => ?_
      split
      · exact Tells.throw _
      · exact (Tells.watched emit rfl).bind fun _ => Tells.pure _
  obtain ⟨new, hnew, hbegins⟩ := htells (frame [] s)
  rwa [emissions, hnew, emissionsIn_frame, List.nil_append]

end Watched
end ErrorBars
