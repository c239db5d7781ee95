import ErrorBars.Proofs.Compatible
import ErrorBars.Proofs.Registry

/-!
# Listeners that fail

A listener may fail on purpose in the middle of a call, or of a call that stands inside that one.
Here such a call is compared with the same call under listeners that do all the same but never fail
on purpose (`Programs.unfailing`).

To say when a listener has failed, and what was done before, a call is carried out once more in a way
that keeps a list of the deeds of listeners, in their order and across all calls that stand inside
each other (`deeds`).  `noted_performIn` says that nothing else is different there.

`perform_raised` is the comparison: up to the first failure both calls go the same way, and from
there on the first one does nothing more.
-/

set_option autoImplicit false

namespace ErrorBars
namespace Session

/-! ## Deeds -/

/-- What a listener does. -/
inductive Deed where
  /-- it adds to the log -/
  | entry (e : LogEntry)
  /-- it registers a listener -/
  | on (event listener : String)
  /-- it removes a registration -/
  | off (event listener : String)
  /-- it fails on purpose -/
  | raised (message : String)

namespace Deed

/-- What is added to the log. -/
def entry? : Deed → Option LogEntry
  | .entry e => some e
  | _ => none

/-- The message with which a listener fails. -/
def raised? : Deed → Option String
  | .raised message => some message
  | _ => none

/-- The listeners after a deed. -/
def change (n : Notifier) : Deed → Notifier
  | .on event listener => n.on event listener
  | .off event listener => n.off event listener
  | _ => n

end Deed

/-- Adds to the deeds. -/
def note (d : Deed) : Call Deed Unit := modify fun s => { s with log := s.log ++ [d] }

/-- Changes the listeners of an event, if there is such an event. -/
def changeNoted (event : String) (d : Deed) : Call Deed Unit := do
  let s ← get
  match s.notifier.listeners? event with
  | none => throw (.unknownEvent (s.notifier.unknownMessage event))
  | some _ => set { s with notifier := d.change s.notifier, log := s.log ++ [d] }

/-- Carries out a reaction of a listener, as `react` does. -/
def reactNoted (nested : Request → Call Deed Unit) (listener : String) :
    Reaction → Call Deed Unit
  | .count => do note (.entry (.counted listener (← get).registry.length))
  | .fail message => do
    note (.raised message)
    throw (.raised message)
  | .on event other => changeNoted event (.on event other)
  | .off event other => changeNoted event (.off event other)
  | .request r => nested r

/-- Tells a listener of an event, as `tell` does. -/
def tellNoted (nested : Request → Call Deed Unit) (programs : Programs) (event : Event)
    (listener : String) : Call Deed Unit := do
  if programs.writesText && !event.isWritable then throw (.engine .tooLong)
  note (.entry (.told listener event))
  (programs.reactions listener).forM (reactNoted nested listener)

/-- Tells all listeners of an event, as `announce` does. -/
def announceNoted (nested : Request → Call Deed Unit) (programs : Programs) (event : Event) :
    Call Deed Unit := do
  let listeners := ((← get).notifier.listeners? event.name).getD []
  listeners.forM (tellNoted nested programs event)

/-- Announces an event of a call, as `emitAt` does. -/
def emitNotedAt (programs : Programs) (mode : Correlation) : Nat → Event → Call Deed Unit
  | 0 => announceNoted (fun _ => pure ()) programs
  | depth + 1 => announceNoted (fun r => do
      let _ ← performIn (emitNotedAt programs mode depth) mode r) programs

/-- The deeds of the listeners while a request is carried out, at all depths. -/
def deeds (programs : Programs) (mode : Correlation) (depth : Nat) (r : Request)
    (s : CallState LogEntry) : List Deed :=
  (performIn (emitNotedAt programs mode depth) mode r ⟨s.registry, s.notifier, []⟩).2.log

/-! ## Keeping the deeds makes no difference -/

/-- The second call does what the first one does, and keeps deeds that account for what is added to
the log and for what becomes of the listeners. -/
def Noted {α : Type} (a : Action α) (a' : Call Deed α) : Prop :=
  ∀ (s : CallState LogEntry) (past : List Deed), ∃ new,
    a' ⟨s.registry, s.notifier, past⟩ =
      ((a s).1, ⟨(a s).2.registry, (a s).2.notifier, past ++ new⟩) ∧
    (a s).2.log = s.log ++ new.filterMap Deed.entry? ∧
    (a s).2.notifier = new.foldl Deed.change s.notifier

theorem Noted.bind {α β : Type} {a : Action α} {a' : Call Deed α} {f : α → Action β}
    {f' : α → Call Deed β} (ha : Noted a a') (hf : ∀ x, Noted (f x) (f' x)) :
    Noted (a >>= f) (a' >>= f') := by
  intro s past
  obtain ⟨new, hrun, hlog, hnotifier⟩ := ha s past
  rcases hs : a s with ⟨fault | x, t⟩
  · rw [hs] at hrun hlog hnotifier
    exact ⟨new, by rw [Call.bind_error hrun, Call.bind_error hs], by rwa [Call.bind_error hs],
      by rwa [Call.bind_error hs]⟩
  · rw [hs] at hrun hlog hnotifier
    obtain ⟨more, hrun', hlog', hnotifier'⟩ := hf x t (past ++ new)
    refine ⟨new ++ more, ?_, ?_, ?_⟩
    · rw [Call.bind_ok hrun, Call.bind_ok hs, hrun', List.append_assoc]
    · rw [Call.bind_ok hs, hlog', hlog, List.append_assoc, List.filterMap_append]
    · rw [Call.bind_ok hs, hnotifier', hnotifier, List.foldl_append]

theorem compatible_noted : @Compatible LogEntry Deed @Noted where
  pure x s past := ⟨[], by simp, by simp, rfl⟩
  throw fault s past := ⟨[], by simp, by simp, rfl⟩
  bind := Noted.bind
  scope ha s past := by
    obtain ⟨new, hrun, hlog, hnotifier⟩ := ha s past
    exact ⟨new, by rw [Call.scope_apply, Call.scope_apply, hrun], hlog, hnotifier⟩
  parse source names s past := by
    refine ⟨[], ?_⟩
    cases h : Formula.parse source names with
    | error fault => rw [Call.parse_error h, Call.parse_error h]; simp
    | ok e => rw [Call.parse_ok h, Call.parse_ok h]; simp
  differentiate e name s past := ⟨[], by simp, by simp, rfl⟩

theorem noted_record (e : LogEntry) : Noted (record e) (note (.entry e)) := fun _ _ =>
  ⟨[.entry e], rfl, rfl, rfl⟩

theorem noted_changeListeners (event : String) {change : Notifier → Notifier} {d : Deed}
    (hchange : ∀ n, d.change n = change n) (hentry : d.entry? = none) :
    Noted (changeListeners event change) (changeNoted event d) := by
  intro s past
  rw [changeListeners, changeNoted, Call.bind_ok (Call.get_apply _),
    Call.bind_ok (Call.get_apply _)]
  cases s.notifier.listeners? event with
  | none => exact ⟨[], by simp, by simp, rfl⟩
  | some _ => exact ⟨[d], by simp [hchange], by simp [hentry], by simp [hchange]⟩

theorem noted_react {nested : Request → Action Unit} {nested' : Request → Call Deed Unit}
    (hnested : ∀ r, Noted (nested r) (nested' r)) (listener : String) (reaction : Reaction) :
    Noted (react nested listener reaction) (reactNoted nested' listener reaction) := by
  cases reaction with
  | count => exact fun s past => noted_record _ s past
  | fail message => exact fun _ _ => ⟨[.raised message], rfl, by simp [react, Deed.entry?], rfl⟩
  | on event other => exact noted_changeListeners event (fun _ => rfl) rfl
  | off event other => exact noted_changeListeners event (fun _ => rfl) rfl
  | request r => exact hnested r

theorem noted_tell {nested : Request → Action Unit} {nested' : Request → Call Deed Unit}
    (hnested : ∀ r, Noted (nested r) (nested' r)) (programs : Programs) (event : Event)
    (listener : String) :
    Noted (tell nested programs event listener) (tellNoted nested' programs event listener) := by
  have hrest := (noted_record (.told listener event)).bind fun _ =>
    compatible_noted.forM (noted_react hnested listener) (programs.reactions listener)
  rw [tell, tellNoted]
  split
  · exact (compatible_noted.throw _).bind fun _ => hrest
  · exact hrest

theorem noted_announce {nested : Request → Action Unit} {nested' : Request → Call Deed Unit}
    (hnested : ∀ r, Noted (nested r) (nested' r)) (programs : Programs) (event : Event) :
    Noted (announce nested programs event) (announceNoted nested' programs event) := by
  intro s past
  rw [announce, announceNoted, Call.bind_ok (Call.get_apply _), Call.bind_ok (Call.get_apply _)]
  exact compatible_noted.forM (noted_tell hnested programs event) _ s past

/-- An announcement is noted, however deep the calls are that its listeners make. -/
theorem noted_emitAt (programs : Programs) (mode : Correlation) (depth : Nat) (event : Event) :
    Noted (emitAt programs mode depth event) (emitNotedAt programs mode depth event) := by
  induction depth generalizing event with
  | zero => exact noted_announce (fun _ => compatible_noted.pure ()) programs event
  | succ depth ih =>
    refine noted_announce (fun r => ?_) programs event
    rw [← performIn_eq_perform]
    exact (compatible_noted.performIn ih mode r).bind fun _ => compatible_noted.pure ()

/-- Keeping the deeds makes no difference to a request. -/
theorem noted_performIn (programs : Programs) (mode : Correlation) (depth : Nat) (r : Request) :
    Noted (perform (emitAt programs mode depth) mode r)
      (performIn (emitNotedAt programs mode depth) mode r) := by
  rw [← performIn_eq_perform]
  exact compatible_noted.performIn (noted_emitAt programs mode depth) mode r

end Session

/-! ## Listeners that never fail on purpose -/

/-- Whether a listener fails on purpose. -/
def Reaction.isFail : Reaction → Bool
  | .fail _ => true
  | _ => false

/-- The same programs without the reactions that fail on purpose. -/
def Programs.unfailing (programs : Programs) : Programs where
  reactions listener := (programs.reactions listener).filter fun r => !r.isFail
  writesText := programs.writesText

namespace Session

/-- How a call goes in comparison with another one. -/
inductive Parting {α : Type} (a b : Call Deed α) (s : CallState Deed) : Prop where
  /-- no listener fails on purpose, and both do the same -/
  | never (new : List Deed) (calm : new.filterMap Deed.raised? = [])
      (log : (b s).2.log = s.log ++ new) (same : a s = b s)
  /-- up to the first failure both do the same, and nothing comes behind it in the first -/
  | raised (before more : List Deed) (message : String)
      (calm : before.filterMap Deed.raised? = []) (answer : (a s).1 = .error (.raised message))
      (log : (a s).2.log = s.log ++ (before ++ [.raised message]))
      (other : (b s).2.log = s.log ++ (before ++ more))

/-- The first call does what the second one does until a listener fails on purpose, and nothing from
there on. -/
def CutShort {α : Type} (a b : Call Deed α) : Prop := ∀ s, Parting a b s

namespace CutShort

variable {α β : Type}

/-- A call that is cut short adds to the deeds, and so does the one it is compared with. -/
theorem log_extends {a b : Call Deed α} (h : CutShort a b) (s : CallState Deed) :
    ∃ new, (b s).2.log = s.log ++ new := by
  cases h s with
  | never new _ log _ => exact ⟨new, log⟩
  | raised before more _ _ _ _ other => exact ⟨before ++ more, other⟩

/-- A call that does not fail on purpose goes its way in both. -/
theorem refl {a : Call Deed α} (h : ∀ s, ∃ new, new.filterMap Deed.raised? = [] ∧
    (a s).2.log = s.log ++ new) : CutShort a a := by
  intro s
  obtain ⟨new, calm, log⟩ := h s
  exact .never new calm log rfl

theorem bind {a b : Call Deed α} {f g : α → Call Deed β} (h : CutShort a b)
    (hf : ∀ x, CutShort (f x) (g x)) : CutShort (a >>= f) (b >>= g) := by
  intro s
  cases h s with
  | never new calm log same =>
    rcases hb : b s with ⟨fault | x, t⟩
    · rw [hb] at log same
      exact .never new calm (by rwa [Call.bind_error hb])
        (by rw [Call.bind_error hb, Call.bind_error same])
    · rw [hb] at log same
      cases hf x t with
      | never new' calm' log' same' =>
        refine .never (new ++ new') ?_ ?_ ?_
        · rw [List.filterMap_append, calm, calm', List.append_nil]
        · rw [Call.bind_ok hb, log', log, List.append_assoc]
        · rw [Call.bind_ok hb, Call.bind_ok same, same']
      | raised before more message calm' answer log' other =>
        refine .raised (new ++ before) more message ?_ ?_ ?_ ?_
        · rw [List.filterMap_append, calm, calm', List.append_nil]
        · rw [Call.bind_ok same, answer]
        · rw [Call.bind_ok same, log', log]
          simp
        · rw [Call.bind_ok hb, other, log]
          simp
  | raised before more message calm answer log other =>
    have ha : a s = (.error (.raised message), (a s).2) := Prod.ext answer rfl
    have hanswer : ((a >>= f) s).1 = .error (.raised message) := by rw [Call.bind_error ha]
    have hlog : ((a >>= f) s).2.log = s.log ++ (before ++ [.raised message]) := by
      rwa [Call.bind_error ha]
    rcases hb : b s with ⟨fault | x, t⟩
    · rw [hb] at other
      exact .raised before more message calm hanswer hlog (by rwa [Call.bind_error hb])
    · rw [hb] at other
      obtain ⟨further, hfurther⟩ := (hf x).log_extends t
      refine .raised before (more ++ further) message calm hanswer hlog ?_
      rw [Call.bind_ok hb, hfurther, other]
      simp

/-- Nothing that is done behind a failure counts. -/
theorem fail (message : String) (rest : Call Deed Unit) {others : Call Deed Unit}
    (h : CutShort rest others) :
    CutShort (do note (.raised message); throw (.raised message); rest) others := by
  intro s
  obtain ⟨new, hnew⟩ := h.log_extends s
  exact .raised [] new message rfl rfl rfl hnew

end CutShort

theorem compatible_cutShort : @Compatible Deed Deed @CutShort where
  pure x := .refl fun s => ⟨[], rfl, by simp⟩
  throw fault := .refl fun s => ⟨[], rfl, by simp⟩
  bind := CutShort.bind
  scope h s := by
    cases h s with
    | never new calm log same =>
      exact .never new calm log (by rw [Call.scope_apply, Call.scope_apply, same])
    | raised before more message calm answer log other =>
      exact .raised before more message calm answer log other
  parse source names := by
    refine .refl fun s => ⟨[], rfl, ?_⟩
    cases h : Formula.parse source names with
    | error fault => rw [Call.parse_error h]; simp
    | ok e => rw [Call.parse_ok h]; simp
  differentiate e name := .refl fun s => ⟨[], rfl, by simp⟩

theorem cutShort_note {d : Deed} (h : d.raised? = none) : CutShort (note d) (note d) :=
  .refl fun s => ⟨[d], by simp [h], rfl⟩

theorem cutShort_changeNoted (event : String) {d : Deed} (h : d.raised? = none) :
    CutShort (changeNoted event d) (changeNoted event d) := by
  refine .refl fun s => ?_
  rw [changeNoted, Call.bind_ok (Call.get_apply s)]
  cases s.notifier.listeners? event with
  | none => exact ⟨[], rfl, by simp⟩
  | some _ => exact ⟨[d], by simp [h], by simp⟩

section

variable {nested nested' : Request → Call Deed Unit} (hnested : ∀ r, CutShort (nested r) (nested' r))

include hnested

theorem cutShort_reactNoted (listener : String) {reaction : Reaction}
    (h : reaction.isFail = false) :
    CutShort (reactNoted nested listener reaction) (reactNoted nested' listener reaction) := by
  cases reaction with
  | count => exact .refl fun s => ⟨[_], rfl, rfl⟩
  | fail message => exact absurd h nofun
  | on event other => exact cutShort_changeNoted event rfl
  | off event other => exact cutShort_changeNoted event rfl
  | request r => exact hnested r

/-- A listener without the reactions that fail does what the listener does before the first of
them. -/
theorem cutShort_reactions (listener : String) (reactions : List Reaction) :
    CutShort (reactions.forM (reactNoted nested listener))
      ((reactions.filter fun r => !r.isFail).forM (reactNoted nested' listener)) := by
  induction reactions with
  | nil => exact compatible_cutShort.pure ()
  | cons reaction rest ih =>
    cases h : reaction.isFail with
    | false =>
      rw [List.filter_cons_of_pos (by simp [h])]
      exact (cutShort_reactNoted hnested listener h).bind fun _ => ih
    | true =>
      rw [List.filter_cons_of_neg (by simp [h])]
      cases reaction with
      | fail message => exact ih.fail message
      | _ => exact absurd h nofun

theorem cutShort_tellNoted (programs : Programs) (event : Event) (listener : String) :
    CutShort (tellNoted nested programs event listener)
      (tellNoted nested' programs.unfailing event listener) := by
  have hrest := (cutShort_note (d := .entry (.told listener event)) rfl).bind fun _ =>
    cutShort_reactions hnested listener (programs.reactions listener)
  rw [tellNoted, tellNoted]
  show CutShort (if programs.writesText && !event.isWritable then _ else _)
    (if programs.writesText && !event.isWritable then _ else _)
  split
  · exact (compatible_cutShort.throw _).bind fun _ => hrest
  · exact hrest

theorem cutShort_announceNoted (programs : Programs) (event : Event) :
    CutShort (announceNoted nested programs event)
      (announceNoted nested' programs.unfailing event) := by
  have hget : CutShort (get : Call Deed (CallState Deed)) get :=
    .refl fun s => ⟨[], rfl, by simp⟩
  exact hget.bind fun s => compatible_cutShort.forM (cutShort_tellNoted hnested programs event) _

end

/-- Announcements are cut short, however deep the calls are that listeners make. -/
theorem cutShort_emitNotedAt (programs : Programs) (mode : Correlation) (depth : Nat)
    (event : Event) :
    CutShort (emitNotedAt programs mode depth event)
      (emitNotedAt programs.unfailing mode depth event) := by
  induction depth generalizing event with
  | zero => exact cutShort_announceNoted (fun _ => compatible_cutShort.pure ()) programs event
  | succ depth ih =>
    refine cutShort_announceNoted (fun r => ?_) programs event
    exact (compatible_cutShort.performIn ih mode r).bind fun _ => compatible_cutShort.pure ()

/-- **A listener that fails ends the call**, however deep the call stands in others from which it is
told.  The call fails with that very fault.  The same call with listeners that never fail on purpose
goes the same way up to there: the log is that of the deeds before the failure, which is a beginning
of the other call's log, and the listeners are what these deeds have made of them.  An empty registry
is left empty. -/
theorem perform_raised (programs : Programs) (mode : Correlation) (depth : Nat) (r : Request)
    (s : CallState LogEntry) (message : String)
    (raised : message ∈ (deeds programs mode depth r s).filterMap Deed.raised?) :
    ∃ before,
      deeds programs mode depth r s = before ++ [.raised message] ∧
      before.filterMap Deed.raised? = [] ∧
      before <+: deeds programs.unfailing mode depth r s ∧
      (perform (emitAt programs mode depth) mode r s).1 = .error (.raised message) ∧
      (perform (emitAt programs mode depth) mode r s).2.log =
        s.log ++ before.filterMap Deed.entry? ∧
      (perform (emitAt programs mode depth) mode r s).2.log <+:
        (perform (emitAt programs.unfailing mode depth) mode r s).2.log ∧
      (perform (emitAt programs mode depth) mode r s).2.notifier =
        before.foldl Deed.change s.notifier ∧
      (s.registry = [] → (perform (emitAt programs mode depth) mode r s).2.registry = []) := by
  obtain ⟨new, hrun, hlog, hnotifier⟩ := noted_performIn programs mode depth r s []
  obtain ⟨new', hrun', hlog', -⟩ := noted_performIn programs.unfailing mode depth r s []
  have hdeeds : deeds programs mode depth r s = new := by
    rw [deeds, hrun, List.nil_append]
  have hdeeds' : deeds programs.unfailing mode depth r s = new' := by
    rw [deeds, hrun', List.nil_append]
  have hcut := compatible_cutShort.performIn (cutShort_emitNotedAt programs mode depth) mode r
    ⟨s.registry, s.notifier, []⟩
  cases hcut with
  | never all calm log same =>
    rw [deeds, same, log, List.nil_append, calm] at raised
    exact absurd raised (by simp)
  | raised before more last calm answer log other =>
    rw [List.nil_append] at log other
    have hnew : new = before ++ [.raised last] := by rw [← hdeeds, deeds, log]
    have hnew' : new' = before ++ more := by rw [← hdeeds', deeds, other]
    obtain rfl : message = last := by
      rw [hdeeds, hnew, List.filterMap_append, calm] at raised
      simpa [Deed.raised?] using raised
    have hentries : (before ++ [Deed.raised message]).filterMap Deed.entry? =
        before.filterMap Deed.entry? := by
      simp [List.filterMap_append, Deed.entry?]
    refine ⟨before, hdeeds.trans hnew, calm, ?_, ?_, ?_, ?_, ?_, ?_⟩
    · rw [hdeeds', hnew']
      exact List.prefix_append _ _
    · rw [← answer, hrun]
    · rw [hlog, hnew, hentries]
    · rw [hlog, hlog', hnew, hnew', hentries, List.filterMap_append, ← List.append_assoc]
      exact List.prefix_append _ _
    · rw [hnotifier, hnew, List.foldl_append]
      rfl
    · exact fun h => keeps_perform (keeps_emitAt programs mode depth) mode r s h

/-- A state in which a listener waits that fails in the end. -/
def rowdyState : CallState LogEntry where
  registry := []
  notifier := (Notifier.ofEvents eventNames).on "differential" "rowdy"
  log := []

/-- The listener fails in a call that it has made itself. -/
theorem perform_raised_rowdy :
    "enough" ∈ (deeds rowdy .both 1 (.calculate (.text "x*x") rowdyInputs)
        rowdyState).filterMap Deed.raised? ∧
      ∃ before,
        deeds rowdy .both 1 (.calculate (.text "x*x") rowdyInputs) rowdyState =
          before ++ [.raised "enough"] ∧
        before.filterMap Deed.raised? = [] ∧
        before <+: deeds rowdy.unfailing .both 1 (.calculate (.text "x*x") rowdyInputs)
          rowdyState ∧
        (perform (emitAt rowdy .both 1) .both (.calculate (.text "x*x") rowdyInputs)
          rowdyState).1 = .error (.raised "enough") ∧
        (perform (emitAt rowdy .both 1) .both (.calculate (.text "x*x") rowdyInputs)
          rowdyState).2.log = rowdyState.log ++ before.filterMap Deed.entry? ∧
        (perform (emitAt rowdy .both 1) .both (.calculate (.text "x*x") rowdyInputs)
            rowdyState).2.log <+:
          (perform (emitAt rowdy.unfailing .both 1) .both
            (.calculate (.text "x*x") rowdyInputs) rowdyState).2.log ∧
        (perform (emitAt rowdy .both 1) .both (.calculate (.text "x*x") rowdyInputs)
          rowdyState).2.notifier = before.foldl Deed.change rowdyState.notifier ∧
        (rowdyState.registry = [] →
          (perform (emitAt rowdy .both 1) .both (.calculate (.text "x*x") rowdyInputs)
            rowdyState).2.registry = []) :=
  have raised : "enough" ∈ (deeds rowdy .both 1 (.calculate (.text "x*x") rowdyInputs)
      rowdyState).filterMap Deed.raised? := by
    decide +kernel
  ⟨raised, perform_raised rowdy .both 1 _ _ "enough" raised⟩

end Session
end ErrorBars
