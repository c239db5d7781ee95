import ErrorBars.Proofs.Rounds
import Mathlib.Data.List.Induction

/-!
# Registrations

A listener may be registered several times, and a removal takes the oldest registration that is left
of it.  So a registration that is followed by a removal need not leave the list as it was.

`momentsOf` lists the moments of a history at which an operation begins, also one that a listener
carries out in the middle of an emission, in the order in which they come.  From the moments one
reads off who was ever registered for an event (`registered`) and which removals found what they
were to remove (`removed`).  `Notifier.remaining` says which registrations this leaves: of each
listener, all but as many of the oldest ones as were removed.

`registrations_history` says that this is the list of the event, at every moment and in the end.
-/

set_option autoImplicit false

namespace ErrorBars

namespace Notifier

/-! ## The lists of the events -/

theorem listeners?_modify (n : Notifier) (event other : String) (f : List String → List String) :
    (n.modify event f).listeners? other =
      if other = event then (n.listeners? other).map f else n.listeners? other := by
  obtain ⟨channels⟩ := n
  simp only [modify, listeners?]
  induction channels with
  | nil => simp
  | cons c cs ih =>
    obtain ⟨e, names⟩ := c
    rw [List.map_cons]
    by_cases ho : other = e
    · subst ho
      by_cases he : other = event <;> simp [he]
    · have hskip (names : List String) (rest : List (String × List String)) :
          ((e, names) :: rest).lookup other = rest.lookup other := by
        rw [List.lookup_cons, beq_false_of_ne ho]
      rw [hskip, ← ih]
      split <;> exact hskip _ _

theorem listeners?_eq_none_iff {n : Notifier} {event : String} :
    n.listeners? event = none ↔ event ∉ n.events := by
  rw [listeners?, events, List.lookup_eq_none_iff, List.mem_map]
  exact ⟨fun h ⟨c, hc, heq⟩ => by simpa [heq] using h c hc,
    fun h c hc => bne_iff_ne.2 fun heq => h ⟨c, hc, heq.symm⟩⟩

theorem modify_of_unknown {n : Notifier} {event : String} (h : n.listeners? event = none)
    (f : List String → List String) : n.modify event f = n := by
  obtain ⟨channels⟩ := n
  rw [listeners?, List.lookup_eq_none_iff] at h
  rw [modify, Notifier.mk.injEq]
  conv_rhs => rw [← List.map_id channels]
  refine List.map_congr_left fun c hc => if_neg fun he => ?_
  simpa [he] using h c hc

theorem events_modify (n : Notifier) (event : String) (f : List String → List String) :
    (n.modify event f).events = n.events := by
  rw [events, events, modify, List.map_map]
  refine List.map_congr_left fun c _ => ?_
  rw [Function.comp_apply]
  split <;> rfl

/-- A new notifier knows its events, and nobody is registered. -/
theorem listeners?_ofEvents (events : List String) (event : String) :
    (ofEvents events).listeners? event = if event ∈ events then some [] else none := by
  have hlookup (es : List String) : (es.map fun e => (e, ([] : List String))).lookup event =
      if event ∈ es then some [] else none := by
    induction es with
    | nil => rfl
    | cons e es ih =>
      by_cases he : event = e
      · simp [he]
      · simpa [List.lookup_cons, beq_false_of_ne he, he] using ih
  rw [ofEvents, listeners?, hlookup]
  simp only [List.mem_eraseDups]

/-! ## The registrations that are left -/

/-- The registrations that are left, each with its number, when some have been removed.  A
registration is left if there are at least as many older ones of the same listener as were
removed. -/
def remaining (registered removed : List String) : List (String × ℕ) :=
  registered.zipIdx.filter fun r => removed.count r.1 ≤ (registered.take r.2).count r.1

variable {registered removed : List String} {listener : String}

theorem remaining_nil (registered : List String) : remaining registered [] = registered.zipIdx := by
  simp [remaining]

/-- A new registration is left unless all of its listener have been removed, it included. -/
theorem remaining_concat (registered removed : List String) (listener : String) :
    remaining (registered ++ [listener]) removed =
      remaining registered removed ++
        if removed.count listener ≤ registered.count listener then [(listener, registered.length)]
        else [] := by
  rw [remaining, remaining, List.zipIdx_append, List.filter_append]
  congr 1
  · refine List.filter_congr fun r hr => ?_
    have hlt := List.snd_lt_of_mem_zipIdx hr
    rw [List.take_append_of_le_length (by omega)]
  · simp only [Nat.zero_add, List.zipIdx_cons, List.zipIdx_nil, List.filter_cons, List.filter_nil,
      List.take_left, decide_eq_true_eq]

/-- Each listener is left as often as it was registered, less its removals. -/
theorem count_remaining (registered removed : List String) (listener : String) :
    ((remaining registered removed).map Prod.fst).count listener =
      registered.count listener - removed.count listener := by
  induction registered using List.reverseRecOn with
  | nil => simp [remaining]
  | append_singleton rs other ih =>
    rw [remaining_concat, List.map_append, List.count_append, ih, List.count_append]
    by_cases hother : other = listener
    · subst hother
      split <;> simp <;> omega
    · split <;> simp [hother]

/-- Of a listener of whom nothing is left, nothing can be removed. -/
theorem remaining_removed_of_le (registered : List String)
    (h : registered.count listener ≤ removed.count listener) :
    remaining registered (removed ++ [listener]) = remaining registered removed := by
  induction registered using List.reverseRecOn with
  | nil => rfl
  | append_singleton rs other ih =>
    rw [List.count_append] at h
    rw [remaining_concat, remaining_concat, ih (by omega), List.count_append]
    by_cases hother : other = listener
    · subst hother
      rw [List.count_singleton_self] at h ⊢
      rw [if_neg (by omega), if_neg (by omega)]
    · rw [List.count_singleton, beq_false_of_ne (Ne.symm hother)]
      rfl

/-- **A removal takes the oldest registration that is left of its listener**, and nothing else. -/
theorem remaining_removed (registered : List String)
    (h : removed.count listener < registered.count listener) :
    ∃ front number back, remaining registered removed = front ++ (listener, number) :: back ∧
      (∀ r ∈ front, r.1 ≠ listener) ∧
      remaining registered (removed ++ [listener]) = front ++ back := by
  -- from the newest registration back to the oldest one: what is older decides what is left
  induction registered using List.reverseRecOn with
  | nil => simp at h
  | append_singleton rs other ih =>
    rw [List.count_append] at h
    rw [remaining_concat, remaining_concat, List.count_append]
    by_cases hother : other = listener
    · subst hother
      rw [List.count_singleton_self] at h ⊢
      rcases Nat.lt_or_ge (removed.count other) (rs.count other) with hlt | hge
      · -- an older one is left, and the last one stays
        obtain ⟨front, number, back, hleft, hfront, hless⟩ := ih hlt
        refine ⟨front, number, back ++ [(other, rs.length)], ?_, hfront, ?_⟩
        · rw [hleft, if_pos (by omega), List.append_assoc, List.cons_append]
        · rw [hless, if_pos (by omega), List.append_assoc]
      · -- the last one is the only one
        have hnone : ((remaining rs removed).map Prod.fst).count other = 0 := by
          rw [count_remaining]
          omega
        refine ⟨remaining rs removed, rs.length, [], ?_, fun r hr heq => ?_, ?_⟩
        · rw [if_pos (by omega)]
        · exact List.count_eq_zero.1 hnone (heq ▸ List.mem_map_of_mem hr)
        · rw [remaining_removed_of_le rs hge, if_neg (by omega)]
    · have hnot : [other].count listener = 0 := by simp [hother]
      have hnot' : [listener].count other = 0 := by simp [Ne.symm hother]
      obtain ⟨front, number, back, hleft, hfront, hless⟩ := ih (by omega)
      rw [hleft, hless, hnot', Nat.add_zero, List.append_assoc, List.append_assoc, List.cons_append]
      exact ⟨front, number, _, rfl, hfront, rfl⟩

end Notifier

namespace Action

variable {α : Type}

/-- The event that an operation is about. -/
def event? : Action α → Option String
  | .on event _ => some event
  | .off event _ => some event
  | .emit event _ => some event
  | .listeners event => some event
  | .fail _ => none

/-- The lists of listeners when an operation itself has changed them. -/
def change (n : Notifier) : Action α → Notifier
  | .on event listener => n.on event listener
  | .off event listener => n.off event listener
  | _ => n

end Action

namespace Script

variable {α β : Type}

/-! ## Moments -/

/-- A moment at which an operation begins. -/
structure Moment (α : Type) where
  /-- how deep emissions may stand inside this operation -/
  depth : ℕ
  /-- the operation -/
  action : Action α
  /-- the stage on which it begins -/
  stage : Stage α

/-- The moments of several parts, up to the first that fails. -/
def momentsOfEach (run : β → Staged α Unit) (moments : β → Stage α → List (Moment α)) :
    List β → Stage α → List (Moment α)
  | [], _ => []
  | x :: xs, s =>
    moments x s ++
      match run x s with
      | (.ok _, s') => momentsOfEach run moments xs s'
      | (.error _, _) => []

/-- The moments of the calls of an emission. -/
def momentsOfCalls (script : Script α) (run : Action α → Staged α Unit)
    (moments : Action α → Stage α → List (Moment α)) (args : List α) :
    List String → Stage α → List (Moment α) :=
  momentsOfEach (call run script args) fun listener s =>
    momentsOfEach run moments (script listener) { s with log := s.log ++ [(listener, args)] }

/-- The moments of an operation: its own, and those of all that its listeners do. -/
def moments (script : Script α) : ℕ → Action α → Stage α → List (Moment α)
  | depth + 1, .emit event args, s =>
    ⟨depth + 1, .emit event args, s⟩ ::
      momentsOfCalls script (fun a => silently (script.act depth a)) (script.moments depth) args
        ((s.notifier.listeners? event).getD []) s
  | depth, action, s => [⟨depth, action, s⟩]

/-- The moments of a history, which goes on behind a fault. -/
def momentsOf (script : Script α) (depth : ℕ) : List (Action α) → Stage α → List (Moment α)
  | [], _ => []
  | action :: rest, s =>
    script.moments depth action s ++ script.momentsOf depth rest (script.act depth action s).2

/-- What a history leaves behind. -/
def finish (script : Script α) (depth : ℕ) (history : List (Action α)) (s : Stage α) : Stage α :=
  history.foldl (fun s action => (script.act depth action s).2) s

/-- At each moment the lists are what the operations before it have made of them, and so they are in
the end. -/
def Leads : Notifier → List (Moment α) → Notifier → Prop
  | n, [], n' => n' = n
  | n, m :: ms, n' => m.stage.notifier = n ∧ Leads (m.action.change n) ms n'

theorem leads_append {as bs : List (Moment α)} {n n' : Notifier} :
    Leads n (as ++ bs) n' ↔ ∃ k, Leads n as k ∧ Leads k bs n' := by
  induction as generalizing n with
  | nil => simp [Leads]
  | cons m as ih => simp [Leads, ih, and_assoc]

theorem leads_momentsOfEach {run : β → Staged α Unit} {moments : β → Stage α → List (Moment α)}
    (h : ∀ x s, Leads s.notifier (moments x s) (run x s).2.notifier) (xs : List β)
    (s : Stage α) :
    Leads s.notifier (momentsOfEach run moments xs s) (each run xs s).2.notifier := by
  induction xs generalizing s with
  | nil => rfl
  | cons x xs ih =>
    have hx := h x s
    rw [momentsOfEach, each]
    rcases hrun : run x s with ⟨fault | _, s'⟩
    · rw [hrun] at hx
      rwa [List.append_nil]
    · rw [hrun] at hx
      exact leads_append.2 ⟨s'.notifier, hx, ih s'⟩

theorem leads_momentsOfCalls (script : Script α) (run : Action α → Staged α Unit)
    {moments : Action α → Stage α → List (Moment α)}
    (h : ∀ a s, Leads s.notifier (moments a s) (run a s).2.notifier) (args : List α)
    (names : List String) (s : Stage α) :
    Leads s.notifier (momentsOfCalls script run moments args names s)
      (each (call run script args) names s).2.notifier :=
  leads_momentsOfEach (fun listener s => leads_momentsOfEach h (script listener)
    { s with log := s.log ++ [(listener, args)] }) names s

/-- An operation on an event that is not known fails and does nothing. -/
theorem act_unknown (script : Script α) (depth : ℕ) {action : Action α} {event : String}
    {s : Stage α} (h : action.event? = some event) (unknown : s.notifier.listeners? event = none) :
    script.act depth action s = (.error (.unknownEvent (s.notifier.unknownMessage event)), s) := by
  cases action <;> cases h <;> simp [act, unknown]

theorem leads_moments (script : Script α) : ∀ (depth : ℕ) (action : Action α) (s : Stage α),
    Leads s.notifier (script.moments depth action s) (script.act depth action s).2.notifier
  | depth, .fail message, s => by simp [moments, act, Leads, Action.change]
  | depth, .listeners event, s => by
    cases h : s.notifier.listeners? event <;> simp [moments, act, h, Leads, Action.change]
  | depth, .on event listener, s => by
    cases h : s.notifier.listeners? event with
    | none =>
      simp [moments, act, h, Leads, Action.change, Notifier.on, Notifier.modify_of_unknown h]
    | some names => simp [moments, act, h, Leads, Action.change]
  | depth, .off event listener, s => by
    cases h : s.notifier.listeners? event with
    | none =>
      simp [moments, act, h, Leads, Action.change, Notifier.off, Notifier.modify_of_unknown h]
    | some names => simp [moments, act, h, Leads, Action.change]
  | 0, .emit event args, s => by
    cases h : s.notifier.listeners? event <;> simp [moments, act, h, Leads, Action.change]
  | depth + 1, .emit event args, s => by
    rw [moments]
    refine ⟨rfl, ?_⟩
    cases h : s.notifier.listeners? event with
    | none => simp [act, h, momentsOfCalls, momentsOfEach, Leads, Action.change]
    | some names =>
      -- the emission itself changes nothing, so all depends on its calls
      have hcalls := leads_momentsOfCalls script (fun a => silently (script.act depth a))
        (leads_moments script depth) args names s
      rw [act_emit script depth args h, Option.getD_some]
      rcases hrun : each _ names s with ⟨fault | _, t⟩ <;> rw [hrun] at hcalls <;> exact hcalls

/-- **The lists change by operations only**, in whatever depth these are carried out. -/
theorem leads_momentsOf (script : Script α) (depth : ℕ) (history : List (Action α)) (s : Stage α) :
    Leads s.notifier (script.momentsOf depth history s)
      (script.finish depth history s).notifier := by
  induction history generalizing s with
  | nil => rfl
  | cons action rest ih => exact leads_append.2 ⟨_, leads_moments script depth action s, ih _⟩

/-- The events that are known stay the same. -/
theorem Leads.events {n n' : Notifier} {ms : List (Moment α)} (h : Leads n ms n') :
    n'.events = n.events := by
  induction ms generalizing n with
  | nil => exact congrArg Notifier.events h
  | cons m ms ih =>
    rw [ih h.2]
    cases m.action with
    | on _ _ | off _ _ => exact Notifier.events_modify n _ _
    | emit _ _ | listeners _ | fail _ => rfl

/-! ## What is read off the moments -/

namespace Moment

/-- The listener whom an operation registers for an event. -/
def registers? (event : String) (m : Moment α) : Option String :=
  match m.action with
  | .on e listener => if e = event then some listener else none
  | _ => none

/-- The listener of whom an operation removes a registration for an event: one that is registered
when it begins. -/
def removes? (event : String) (m : Moment α) : Option String :=
  match m.action with
  | .off e listener =>
    if e = event ∧ listener ∈ (m.stage.notifier.listeners? event).getD [] then some listener
    else none
  | _ => none

end Moment

/-- All that were ever registered for an event, in order: first those that stood in the list in the
beginning. -/
def registered (event : String) (standing : List String) (ms : List (Moment α)) : List String :=
  standing ++ ms.filterMap (Moment.registers? event)

/-- The listeners of whom registrations were removed, in order. -/
def removed (event : String) (ms : List (Moment α)) : List String :=
  ms.filterMap (Moment.removes? event)

/-- The registrations that are left, with their numbers. -/
def remaining (event : String) (standing : List String) (ms : List (Moment α)) :
    List (String × ℕ) :=
  Notifier.remaining (registered event standing ms) (removed event ms)

/-- The list of an event is accounted for by what has happened since the `standing` listeners were
in it. -/
structure Accounted (event : String) (standing : List String) (ms : List (Moment α))
    (n : Notifier) : Prop where
  /-- in the list are the registrations that are left -/
  listed : n.listeners? event = some ((remaining event standing ms).map Prod.fst)
  /-- these are some of the registrations, in the same order -/
  sublist : (remaining event standing ms).Sublist (registered event standing ms).zipIdx
  /-- a listener is in the list as often as it was registered, less its removals -/
  count : ∀ listener, ((remaining event standing ms).map Prod.fst).count listener +
    (removed event ms).count listener = (registered event standing ms).count listener

/-- How an operation changes the registrations that are left for an event.  `number` is the one that
a new registration gets. -/
inductive Changes (event : String) (number : ℕ) :
    Action α → List (String × ℕ) → List (String × ℕ) → Prop
  /-- a registration is the last one -/
  | registers (listener : String) (rs : List (String × ℕ)) :
    Changes event number (.on event listener) rs (rs ++ [(listener, number)])
  /-- a removal takes the oldest registration of its listener -/
  | removes (listener : String) (front : List (String × ℕ)) (i : ℕ) (back : List (String × ℕ))
    (oldest : ∀ r ∈ front, r.1 ≠ listener) :
    Changes event number (.off event listener) (front ++ (listener, i) :: back) (front ++ back)
  /-- a removal of a listener that is not registered takes nothing -/
  | misses (listener : String) (rs : List (String × ℕ)) (absent : ∀ r ∈ rs, r.1 ≠ listener) :
    Changes event number (.off event listener) rs rs
  /-- whatever else is done, also for other events, takes nothing -/
  | spares (action : Action α) (rs : List (String × ℕ))
    (apart : ∀ listener, action ≠ .on event listener ∧ action ≠ .off event listener) :
    Changes event number action rs rs

/-! ## A history accounts for its lists -/

section

variable {event : String} {standing : List String} {ms : List (Moment α)} {m : Moment α}
  {n n' : Notifier}

theorem registered_concat (event : String) (standing : List String) (ms : List (Moment α))
    (m : Moment α) : registered event standing (ms ++ [m]) =
      registered event standing ms ++ (m.registers? event).toList := by
  rw [registered, registered, List.filterMap_append, List.append_assoc]
  cases h : m.registers? event <;> simp [h]

theorem removed_concat (event : String) (ms : List (Moment α)) (m : Moment α) :
    removed event (ms ++ [m]) = removed event ms ++ (m.removes? event).toList := by
  rw [removed, removed, List.filterMap_append]
  cases h : m.removes? event <;> simp [h]

/-- What neither registers nor removes anybody leaves the registrations as they are. -/
theorem remaining_concat_of_none (hregisters : m.registers? event = none)
    (hremoves : m.removes? event = none) :
    remaining event standing (ms ++ [m]) = remaining event standing ms := by
  rw [remaining, remaining, registered_concat, removed_concat, hregisters, hremoves,
    Option.toList_none, List.append_nil, List.append_nil]

/-- Who is in the list has been registered more often than removed. -/
theorem Accounted.count_lt (h : Accounted event standing ms n) {listener : String}
    (hmem : listener ∈ (n.listeners? event).getD []) :
    (removed event ms).count listener < (registered event standing ms).count listener := by
  rw [h.listed, Option.getD_some, ← List.count_pos_iff] at hmem
  have hcount := h.count listener
  omega

/-- **What an operation does** to the registrations that are left. -/
theorem Accounted.changes (h : Accounted event standing ms m.stage.notifier) :
    Changes event (registered event standing ms).length m.action (remaining event standing ms)
      (remaining event standing (ms ++ [m])) := by
  obtain ⟨depth, action, stage⟩ := m
  cases action with
  | on e listener =>
    by_cases he : e = event
    · subst he
      have hcount := h.count listener
      rw [remaining, remaining, registered_concat, removed_concat]
      simp only [Moment.registers?, Moment.removes?, if_true, Option.toList_some,
        Option.toList_none, List.append_nil]
      rw [Notifier.remaining_concat, if_pos (by omega)]
      exact .registers listener _
    · have hnobody : (⟨depth, .on e listener, stage⟩ : Moment α).registers? event = none :=
        if_neg he
      rw [remaining_concat_of_none hnobody rfl]
      exact .spares _ _ fun _ => ⟨fun heq => he (Action.on.inj heq).1, nofun⟩
  | off e listener =>
    by_cases he : e = event
    · subst he
      by_cases hmem : listener ∈ (stage.notifier.listeners? e).getD []
      · obtain ⟨front, i, back, hbefore, hfront, hbehind⟩ :=
          Notifier.remaining_removed _ (h.count_lt hmem)
        rw [remaining, remaining, registered_concat, removed_concat]
        simp only [Moment.registers?, Moment.removes?, hmem, and_self, if_true, Option.toList_some,
          Option.toList_none, List.append_nil]
        rw [hbefore, hbehind]
        exact .removes listener front i back hfront
      · have hnobody : (⟨depth, .off e listener, stage⟩ : Moment α).removes? e = none :=
          if_neg fun hfound => hmem hfound.2
        rw [remaining_concat_of_none rfl hnobody]
        refine .misses listener _ fun r hr heq => hmem ?_
        rw [h.listed, Option.getD_some]
        exact heq ▸ List.mem_map_of_mem hr
    · have hnobody : (⟨depth, .off e listener, stage⟩ : Moment α).removes? event = none :=
        if_neg fun hfound => he hfound.1
      rw [remaining_concat_of_none rfl hnobody]
      exact .spares _ _ fun _ => ⟨nofun, fun heq => he (Action.off.inj heq).1⟩
  | emit _ _ | listeners _ | fail _ =>
    rw [remaining_concat_of_none rfl rfl]
    exact .spares _ _ fun _ => ⟨nofun, nofun⟩

theorem not_mem_map_fst {rs : List (String × ℕ)} {listener : String}
    (h : ∀ r ∈ rs, r.1 ≠ listener) : listener ∉ rs.map Prod.fst := by
  intro hmem
  obtain ⟨r, hr, heq⟩ := List.mem_map.1 hmem
  exact h r hr heq

/-- The list of the event changes as the registrations do. -/
theorem Changes.listeners? {number : ℕ} {action : Action α} {rs rs' : List (String × ℕ)}
    (h : Changes event number action rs rs') (hn : n.listeners? event = some (rs.map Prod.fst)) :
    (action.change n).listeners? event = some (rs'.map Prod.fst) := by
  cases h with
  | registers listener =>
    rw [Action.change, Notifier.on, Notifier.listeners?_modify, if_pos rfl, hn]
    simp
  | removes listener front i back oldest =>
    rw [Action.change, Notifier.off, Notifier.listeners?_modify, if_pos rfl, hn]
    simp [List.erase_append_right _ (not_mem_map_fst oldest)]
  | misses listener _ absent =>
    rw [Action.change, Notifier.off, Notifier.listeners?_modify, if_pos rfl, hn, Option.map_some,
      List.erase_of_not_mem (not_mem_map_fst absent)]
  | spares _ _ apart =>
    rw [← hn]
    cases action with
    | on e listener =>
      refine (Notifier.listeners?_modify n e event _).trans (if_neg ?_)
      rintro rfl
      exact (apart listener).1 rfl
    | off e listener =>
      refine (Notifier.listeners?_modify n e event _).trans (if_neg ?_)
      rintro rfl
      exact (apart listener).2 rfl
    | _ => rfl

theorem Moment.mem_of_removes? {listener : String} (h : m.removes? event = some listener) :
    listener ∈ (m.stage.notifier.listeners? event).getD [] := by
  rw [removes?] at h
  split at h
  · split at h
    · rename_i hmem
      exact Option.some.inj h ▸ hmem.2
    · contradiction
  · contradiction

theorem Accounted.concat (h : Accounted event standing ms m.stage.notifier) :
    Accounted event standing (ms ++ [m]) (m.action.change m.stage.notifier) where
  listed := h.changes.listeners? h.listed
  sublist := List.filter_sublist
  count listener := by
    have hle : (removed event (ms ++ [m])).count listener ≤
        (registered event standing (ms ++ [m])).count listener := by
      have hcount := h.count listener
      rw [registered_concat, removed_concat, List.count_append, List.count_append]
      cases hremoves : m.removes? event with
      | none =>
        rw [Option.toList_none, List.count_nil]
        omega
      | some other =>
        by_cases hother : other = listener
        · subst hother
          have hlt := h.count_lt (Moment.mem_of_removes? hremoves)
          rw [Option.toList_some, List.count_singleton_self]
          omega
        · have hnot : [other].count listener = 0 := by simp [hother]
          rw [Option.toList_some, hnot]
          omega
    rw [remaining, Notifier.count_remaining]
    omega

theorem accounted_nil (h : n.listeners? event = some standing) :
    Accounted event standing ([] : List (Moment α)) n where
  listed := by simp [remaining, registered, removed, Notifier.remaining_nil, h]
  sublist := List.filter_sublist
  count listener := by simp [remaining, registered, removed, Notifier.remaining_nil]

/-- The list of an event is accounted for after any operations. -/
theorem Leads.accounted (known : n.listeners? event = some standing) (h : Leads n ms n') :
    Accounted event standing ms n' := by
  induction ms using List.reverseRecOn generalizing n' with
  | nil => exact h ▸ accounted_nil known
  | append_singleton ms m ih =>
    obtain ⟨_, hbefore, rfl, rfl⟩ := leads_append.1 h
    exact (ih hbefore).concat

/-- An event that is not known is not known at any moment, and the message stays the same. -/
theorem Leads.unknown (unknown : n.listeners? event = none) (h : Leads n ms n') :
    n'.listeners? event = none ∧ n'.unknownMessage event = n.unknownMessage event := by
  rw [Notifier.listeners?_eq_none_iff] at unknown ⊢
  rw [Notifier.unknownMessage, Notifier.unknownMessage, h.events]
  exact ⟨unknown, rfl⟩

end

/-- **The list of each event, at every moment of a history.**  A new notifier knows its events, and
nobody is registered.

* An operation on an event that is not known fails with a message that lists the known ones, and
  leaves the stage as it is, whoever carries it out.
* The list of a known event holds what is left of all registrations, in their order: each new one
  comes last, a removal takes the oldest one that is left of its listener if there is any, and
  nothing else changes what is left for this event.  Registering and removing always succeed, and
  the list is the answer when it is asked for. -/
theorem registrations_history (script : Script α) (depth : ℕ) (history : List (Action α))
    (s : Stage α) (event : String) :
    (∀ events,
      (Notifier.ofEvents events).listeners? event = if event ∈ events then some [] else none) ∧
    match s.notifier.listeners? event with
    | none =>
      (script.finish depth history s).notifier.listeners? event = none ∧
      ∀ m ∈ script.momentsOf depth history s, m.action.event? = some event →
        script.act m.depth m.action m.stage =
          (.error (.unknownEvent (s.notifier.unknownMessage event)), m.stage)
    | some standing =>
      Accounted event standing (script.momentsOf depth history s)
        (script.finish depth history s).notifier ∧
      ∀ before m later, script.momentsOf depth history s = before ++ m :: later →
        Accounted event standing before m.stage.notifier ∧
        Changes event (registered event standing before).length m.action
          (remaining event standing before) (remaining event standing (before ++ [m])) ∧
        (∀ listener, m.action = .on event listener ∨ m.action = .off event listener →
          (script.act m.depth m.action m.stage).1 = .ok none) ∧
        (m.action = .listeners event → script.act m.depth m.action m.stage =
          (.ok (some ((remaining event standing before).map Prod.fst)), m.stage)) := by
  refine ⟨fun events => Notifier.listeners?_ofEvents events event, ?_⟩
  have hleads := leads_momentsOf script depth history s
  cases known : s.notifier.listeners? event with
  | none =>
    refine ⟨(hleads.unknown known).1, fun m hm hevent => ?_⟩
    obtain ⟨before, later, hsplit⟩ := List.append_of_mem hm
    obtain ⟨_, hbefore, rfl, -⟩ := leads_append.1 (hsplit ▸ hleads)
    obtain ⟨hunknown, hmessage⟩ := hbefore.unknown known
    rw [act_unknown script m.depth hevent hunknown, hmessage]
  | some standing =>
    refine ⟨hleads.accounted known, fun before m later hsplit => ?_⟩
    obtain ⟨_, hbefore, rfl, -⟩ := leads_append.1 (hsplit ▸ hleads)
    have haccounted := hbefore.accounted known
    refine ⟨haccounted, haccounted.changes, fun listener haction => ?_, fun haction => ?_⟩
    · rcases haction with haction | haction <;> simp [haction, act, haccounted.listed]
    · simp [haction, act, haccounted.listed]

/-- Of a listener that is registered twice, the older registration goes. -/
example : (finish (fun _ => []) 0 [.on "parting" "guest", .on "parting" "late",
      .on "parting" "guest", .off "parting" "guest"]
    (⟨Notifier.ofEvents ["parting"], []⟩ : Stage ℕ)).notifier.listeners? "parting" =
      some ["late", "guest"] := by
  decide +kernel

end Script
end ErrorBars
