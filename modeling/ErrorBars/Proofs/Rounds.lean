import ErrorBars.Notifier
import Mathlib.Data.List.Basic

/-!
# Rounds of calls

An emission calls the listeners of its event one after the other, and meanwhile these change the
lists that they stand in and start emissions of their own.  The log keeps all calls alike, so it
does not show which of them an emission has made itself.

`trace` carries out an action and keeps notes: emissions as they open and close, calls, and changes
of the lists, each with its level, which is the number of emissions that are under way.
`follows_act` says that an action is its trace without the notes, and `after` reads the lists off
the notes alone.  So the notes tell for each emission who was registered when it opened, and whom it
called itself (`own`).

`emission_rounds` is the law of rounds: the two are the same, as far as no call fails.
-/

set_option autoImplicit false

namespace ErrorBars
namespace Script

variable {α β : Type}

/-! ## Notes -/

/-- What happens in a run. -/
inductive Happening (α : Type) where
  /-- an emission opens -/
  | opened (event : String) (args : List α)
  /-- a listener is called -/
  | called (listener : String) (args : List α)
  /-- all calls of an emission have come back -/
  | closed
  /-- a listener is registered -/
  | on (event listener : String)
  /-- a registration is removed -/
  | off (event listener : String)

/-- A happening with its level: how many emissions are under way, not counting one that opens or
closes. -/
structure Note (α : Type) where
  /-- the level -/
  level : Nat
  /-- the happening -/
  happening : Happening α

namespace Note

/-- The call that is noted. -/
def call? (m : Note α) : Option (String × List α) :=
  match m.happening with
  | .called listener args => some (listener, args)
  | _ => none

/-- The call that is noted, if an emission on the level makes it itself. -/
def callFrom? (level : Nat) (m : Note α) : Option (String × List α) :=
  if m.level = level + 1 then m.call? else none

/-- The lists of listeners after what is noted. -/
def change (n : Notifier) (m : Note α) : Notifier :=
  match m.happening with
  | .on event listener => n.on event listener
  | .off event listener => n.off event listener
  | _ => n

end Note

/-- The lists of listeners after all that is noted. -/
def after (n : Notifier) (notes : List (Note α)) : Notifier := notes.foldl Note.change n

/-- The calls that an emission on a level makes itself, among notes made while it is under way. -/
def own (level : Nat) (notes : List (Note α)) : List (String × List α) :=
  notes.filterMap (Note.callFrom? level)

/-- What a run comes to: its answer, the lists of listeners that it leaves, and the notes. -/
structure Traced (α β : Type) where
  /-- the answer -/
  answer : Except NotifierFault β
  /-- the lists of listeners afterwards -/
  notifier : Notifier
  /-- the notes -/
  notes : List (Note α)

/-- The same without what is answered. -/
def Traced.silent (t : Traced α β) : Traced α Unit := ⟨t.answer.map fun _ => (), t.notifier, t.notes⟩

/-- Runs several parts in order, up to the first that fails. -/
def traceEach (run : β → Notifier → Traced α Unit) : List β → Notifier → Traced α Unit
  | [], n => ⟨.ok (), n, []⟩
  | x :: xs, n =>
    match run x n with
    | ⟨.ok _, n', notes⟩ =>
      let rest := traceEach run xs n'
      ⟨rest.answer, rest.notifier, notes ++ rest.notes⟩
    | ⟨.error fault, n', notes⟩ => ⟨.error fault, n', notes⟩

/-- One call of a listener by an emission on a level. -/
def traceCall (run : Action α → Notifier → Traced α Unit) (script : Script α) (level : Nat)
    (args : List α) (listener : String) (n : Notifier) : Traced α Unit :=
  let body := traceEach run (script listener) n
  ⟨body.answer, body.notifier, ⟨level + 1, .called listener args⟩ :: body.notes⟩

/-- An emission on a level, from its calls. -/
def traceEmission (level : Nat) (event : String) (args : List α) (calls : Traced α Unit) :
    Traced α (Option (List String)) :=
  match calls.answer with
  | .ok _ =>
    ⟨.ok none, calls.notifier, ⟨level, .opened event args⟩ :: (calls.notes ++ [⟨level, .closed⟩])⟩
  | .error fault => ⟨.error fault, calls.notifier, ⟨level, .opened event args⟩ :: calls.notes⟩

/-- Runs an action as `act` does, and keeps notes; `level` emissions are under way already. -/
def trace (script : Script α) : Nat → Nat → Action α → Notifier → Traced α (Option (List String))
  | depth, level, action, n =>
    match action with
    | .fail message => ⟨.error (.raised message), n, []⟩
    | .on event listener =>
      match n.listeners? event with
      | none => ⟨.error (.unknownEvent (n.unknownMessage event)), n, []⟩
      | some _ => ⟨.ok none, n.on event listener, [⟨level, .on event listener⟩]⟩
    | .off event listener =>
      match n.listeners? event with
      | none => ⟨.error (.unknownEvent (n.unknownMessage event)), n, []⟩
      | some _ => ⟨.ok none, n.off event listener, [⟨level, .off event listener⟩]⟩
    | .listeners event =>
      match n.listeners? event with
      | none => ⟨.error (.unknownEvent (n.unknownMessage event)), n, []⟩
      | some names => ⟨.ok (some names), n, []⟩
    | .emit event args =>
      match n.listeners? event with
      | none => ⟨.error (.unknownEvent (n.unknownMessage event)), n, []⟩
      | some names =>
        match depth with
        | 0 => ⟨.error .tooDeep, n, []⟩
        | depth + 1 =>
          let run := fun a n => (trace script depth (level + 1) a n).silent
          traceEmission level event args (traceEach (traceCall run script level args) names n)

/-- The notes of an action that is carried out while no emission is under way. -/
def notes (script : Script α) (depth : Nat) (action : Action α) (n : Notifier) : List (Note α) :=
  (trace script depth 0 action n).notes

/-! ## A run is its trace without the notes -/

/-- The stage that a trace leaves when it starts behind a log. -/
def Traced.stage (t : Traced α β) (log : List (String × List α)) : Stage α :=
  ⟨t.notifier, log ++ t.notes.filterMap Note.call?⟩

/-- A run does what a trace says, whatever is in the log. -/
def Follows (run : Staged α β) (t : Notifier → Traced α β) : Prop :=
  ∀ s, run s = ((t s.notifier).answer, (t s.notifier).stage s.log)

theorem Follows.each {run : β → Staged α Unit} {t : β → Notifier → Traced α Unit}
    (h : ∀ x, Follows (run x) (t x)) (xs : List β) : Follows (each run xs) (traceEach t xs) := by
  induction xs with
  | nil => exact fun s => by simp [Script.each, traceEach, Traced.stage]
  | cons x xs ih =>
    intro s
    rw [Script.each, h x s, traceEach]
    rcases t x s.notifier with ⟨_ | _, n, notes⟩
    · rfl
    · simp only
      rw [ih]
      simp [Traced.stage]

theorem follows_call {run : Action α → Staged α Unit} {t : Action α → Notifier → Traced α Unit}
    (h : ∀ a, Follows (run a) (t a)) (script : Script α) (level : Nat) (args : List α)
    (listener : String) :
    Follows (call run script args listener) (traceCall t script level args listener) := by
  intro s
  rw [call, Follows.each h]
  simp [traceCall, Traced.stage, Note.call?]

/-- A run without its answer. -/
def silently (run : Staged α β) : Staged α Unit := fun s => ((run s).1.map fun _ => (), (run s).2)

theorem Follows.silent {run : Staged α β} {t : Notifier → Traced α β} (h : Follows run t) :
    Follows (silently run) fun n => (t n).silent := by
  intro s
  rw [silently, h s]
  rfl

theorem silently_act (script : Script α) (depth : Nat) :
    (fun a => silently (script.act depth a)) = fun a s =>
      match script.act depth a s with
      | (.ok _, t) => (.ok (), t)
      | (.error fault, t) => (.error fault, t) := by
  funext a s
  rw [silently]
  rcases script.act depth a s with ⟨_ | _, t⟩ <;> rfl

/-- An emission of an event that is known. -/
theorem act_emit (script : Script α) (depth : Nat) {event : String} (args : List α) {s : Stage α}
    {names : List String} (known : s.notifier.listeners? event = some names) :
    script.act (depth + 1) (.emit event args) s =
      match each (call (fun a => silently (script.act depth a)) script args) names s with
      | (.ok _, t) => (.ok none, t)
      | (.error fault, t) => (.error fault, t) := by
  rw [silently_act, act]
  generalize s.notifier.listeners? event = found at known ⊢
  subst known
  rfl

/-- **A run is its trace without the notes.** -/
theorem follows_act (script : Script α) : ∀ (depth level : Nat) (action : Action α),
    Follows (script.act depth action) (script.trace depth level action)
  | depth, level, .fail message => fun s => by simp [act, trace, Traced.stage]
  | depth, level, .on event listener => fun s => by
    cases h : s.notifier.listeners? event <;> simp [act, trace, h, Traced.stage, Note.call?]
  | depth, level, .off event listener => fun s => by
    cases h : s.notifier.listeners? event <;> simp [act, trace, h, Traced.stage, Note.call?]
  | depth, level, .listeners event => fun s => by
    cases h : s.notifier.listeners? event <;> simp [act, trace, h, Traced.stage]
  | 0, level, .emit event args => fun s => by
    cases h : s.notifier.listeners? event <;> simp [act, trace, h, Traced.stage]
  | depth + 1, level, .emit event args => fun s => by
    have hcalls := Follows.each (follows_call (fun a => (follows_act script depth (level + 1) a).silent)
      script level args)
    cases h : s.notifier.listeners? event with
    | none => simp [act, trace, h, Traced.stage]
    | some names =>
      rw [act_emit script depth args h, hcalls names s]
      simp only [trace, h, traceEmission]
      cases hanswer : (traceEach _ names s.notifier).answer <;>
        simp [Traced.stage, Note.call?, List.filterMap_cons]

/-! ## The law of rounds -/

/-- What an emission on a level has made of the listeners registered when it opened.  `rest` is what
is noted behind its opening, and `fault?` the fault with which the run ends, if it does. -/
inductive Round (level : Nat) (args : List α) (registered : List String)
    (fault? : Option NotifierFault) (rest : List (Note α)) : Prop where
  /-- all of them are called, and the calls come back -/
  | closed (inside later : List (Note α)) (split : rest = inside ++ ⟨level, .closed⟩ :: later)
      (within : ∀ m ∈ inside, level < m.level)
      (calls : own level inside = registered.map fun l => (l, args))
  /-- they are called up to one of them, in whose call the run fails -/
  | failed (before : List String) (last : String) (after : List String)
      (split : registered = before ++ last :: after) (within : ∀ m ∈ rest, level < m.level)
      (calls : own level rest = (before ++ [last]).map fun l => (l, args)) (fails : fault?.isSome)

/-- Each emission that is noted calls the listeners that are registered for its event when it
opens.  `n` are the lists at the beginning of the notes. -/
def Lawful (n : Notifier) (fault? : Option NotifierFault) (notes : List (Note α)) : Prop :=
  ∀ before level event args rest, notes = before ++ ⟨level, .opened event args⟩ :: rest →
    ∃ registered, (after n before).listeners? event = some registered ∧
      Round level args registered fault? rest

/-- The fault of an answer. -/
def faultIn? : Except NotifierFault β → Option NotifierFault
  | .ok _ => none
  | .error fault => some fault

theorem after_append (n : Notifier) (as bs : List (Note α)) :
    after n (as ++ bs) = after (after n as) bs := by
  rw [after, after, after, List.foldl_append]

theorem own_append (level : Nat) (as bs : List (Note α)) :
    own level (as ++ bs) = own level as ++ own level bs := by
  rw [own, own, own, List.filterMap_append]

theorem lawful_nil (n : Notifier) (fault? : Option NotifierFault) :
    Lawful n fault? ([] : List (Note α)) := by
  intro before level event args rest h
  simp at h

/-- Notes behind others: the run goes on only if nothing has failed before. -/
theorem Lawful.append {n : Notifier} {as bs : List (Note α)} {fault? : Option NotifierFault}
    (ha : Lawful n none as) (hb : Lawful (after n as) fault? bs) : Lawful n fault? (as ++ bs) := by
  intro before level event args rest h
  rcases List.append_eq_append_iff.1 h with ⟨more, rfl, hmore⟩ | ⟨more, rfl, hmore⟩
  · -- the emission opens in the second part
    obtain ⟨registered, hreg, hround⟩ := hb more level event args rest hmore
    exact ⟨registered, by rwa [after_append], hround⟩
  · cases more with
    | nil =>
      obtain ⟨registered, hreg, hround⟩ := hb [] level event args rest (by simpa using hmore.symm)
      exact ⟨registered, by simpa [after] using hreg, hround⟩
    | cons m more =>
      simp only [List.cons_append, List.cons.injEq] at hmore
      obtain ⟨rfl, rfl⟩ := hmore
      obtain ⟨registered, hreg, hround⟩ := ha before level event args more rfl
      refine ⟨registered, hreg, ?_⟩
      cases hround with
      | closed inside later split within calls =>
        exact .closed inside (later ++ bs) (by simp [split]) within calls
      | failed _ _ _ _ _ _ fails => exact absurd fails (by simp)

/-- What the notes of a run on a level are like: they account for the lists, they keep to the level,
they hold no call of an emission outside, and they are lawful. -/
structure Traced.Sound (level : Nat) (n : Notifier) (t : Traced α β) : Prop where
  /-- the lists are those that the notes tell of -/
  notifier : t.notifier = after n t.notes
  /-- nothing happens outside -/
  within : ∀ m ∈ t.notes, level ≤ m.level
  /-- an emission on the level before makes no call -/
  apart : ∀ outer, outer + 1 = level → own outer t.notes = []
  /-- all emissions in the run are lawful -/
  lawful : Lawful n (faultIn? t.answer) t.notes

/-- What the notes of the calls of an emission are like, where `names` are to be called. -/
structure Traced.Calls (level : Nat) (args : List α) (names : List String) (n : Notifier)
    (t : Traced α Unit) : Prop where
  /-- the lists are those that the notes tell of -/
  notifier : t.notifier = after n t.notes
  /-- nothing happens outside -/
  within : ∀ m ∈ t.notes, level < m.level
  /-- all emissions in the calls are lawful -/
  lawful : Lawful n (faultIn? t.answer) t.notes
  /-- if the calls come back, all of `names` have been called -/
  all : faultIn? t.answer = none → own level t.notes = names.map fun l => (l, args)
  /-- otherwise they have been called up to one of them -/
  upTo : (faultIn? t.answer).isSome → ∃ before last after, names = before ++ last :: after ∧
    own level t.notes = (before ++ [last]).map fun l => (l, args)

theorem own_eq_nil_of_deeper {level : Nat} {notes : List (Note α)}
    (h : ∀ m ∈ notes, level + 1 < m.level) : own level notes = [] := by
  rw [own, List.filterMap_eq_nil_iff]
  intro m hm
  have hlevel := h m hm
  rw [Note.callFrom?, if_neg (by omega)]

theorem Lawful.cons {n : Notifier} {fault? : Option NotifierFault} {m : Note α}
    {notes : List (Note α)} (hm : ∀ event args, m.happening ≠ .opened event args)
    (h : Lawful (m.change n) fault? notes) : Lawful n fault? (m :: notes) := by
  refine (?_ : Lawful n none [m]).append h
  intro before level event args rest hsplit
  rcases List.cons_eq_append_iff.1 hsplit with ⟨rfl, hrest⟩ | ⟨before, rfl, hrest⟩
  · simp only [List.cons.injEq] at hrest
    exact absurd (congrArg Note.happening hrest.1.symm) (hm event args)
  · simp at hrest

/-- A part that does nothing but to change the lists, or fails. -/
theorem sound_plain {level : Nat} {n : Notifier} {answer : Except NotifierFault β}
    (notes : List (Note α)) (hlevel : ∀ m ∈ notes, m.level = level) (hcall : ∀ m ∈ notes, m.call? = none)
    (hopen : ∀ m ∈ notes, ∀ event args, m.happening ≠ .opened event args) :
    Traced.Sound level n ⟨answer, after n notes, notes⟩ where
  notifier := rfl
  within m hm := Nat.le_of_eq (hlevel m hm).symm
  apart outer _ := by
    rw [own, List.filterMap_eq_nil_iff]
    intro m hm
    rw [Note.callFrom?, hcall m hm, ite_self]
  lawful before level event args rest h := by
    exact absurd rfl (hopen _ (h ▸ List.mem_append_right _ List.mem_cons_self) event args)

/-- A part that does nothing at all, or fails at once. -/
theorem sound_nothing {level : Nat} {n : Notifier} {answer : Except NotifierFault β} :
    Traced.Sound level n (⟨answer, n, []⟩ : Traced α β) :=
  sound_plain [] (by simp) (by simp) (by simp)

theorem Traced.Sound.each {level : Nat} {t : β → Notifier → Traced α Unit}
    (h : ∀ x n, (t x n).Sound level n) (xs : List β) (n : Notifier) :
    (traceEach t xs n).Sound level n := by
  induction xs generalizing n with
  | nil => exact sound_nothing
  | cons x xs ih =>
    have hx := h x n
    rw [traceEach]
    rcases hrun : t x n with ⟨fault | _, n', notes⟩
    · rw [hrun] at hx
      exact ⟨hx.notifier, hx.within, hx.apart, hx.lawful⟩
    · rw [hrun] at hx
      obtain rfl : n' = after n notes := hx.notifier
      have hrest := ih (after n notes)
      refine ⟨?_, fun m hm => ?_, fun outer houter => ?_, hx.lawful.append hrest.lawful⟩
      · rw [after_append, ← hrest.notifier]
      · rcases List.mem_append.1 hm with hm | hm
        · exact hx.within m hm
        · exact hrest.within m hm
      · rw [own_append, hx.apart outer houter, hrest.apart outer houter, List.append_nil]

theorem Traced.Sound.silent {level : Nat} {n : Notifier} {t : Traced α β} (h : t.Sound level n) :
    t.silent.Sound level n := by
  obtain ⟨answer, n', notes⟩ := t
  refine ⟨h.notifier, h.within, h.apart, ?_⟩
  cases answer <;> exact h.lawful

/-- One call after the other, each of them with its own emissions. -/
theorem calls_traceEach {run : Action α → Notifier → Traced α Unit} {level : Nat}
    (h : ∀ a n, (run a n).Sound (level + 1) n) (script : Script α) (args : List α)
    (names : List String) (n : Notifier) :
    (traceEach (traceCall run script level args) names n).Calls level args names n := by
  induction names generalizing n with
  | nil => exact ⟨rfl, by simp [traceEach], lawful_nil _ _, by simp [traceEach, own], by
      simp [traceEach, faultIn?]⟩
  | cons name names ih =>
    have hbody := Traced.Sound.each h (script name) n
    rw [traceEach, traceCall]
    rcases hrun : traceEach run (script name) n with ⟨answer, n', notes⟩
    rw [hrun] at hbody
    obtain rfl : n' = after n notes := hbody.notifier
    -- the call itself, and what happens in it
    have hown : own level (⟨level + 1, .called name args⟩ :: notes) = [(name, args)] := by
      have hnotes := hbody.apart level rfl
      rw [own] at hnotes ⊢
      rw [List.filterMap_cons, hnotes]
      simp [Note.callFrom?, Note.call?]
    have hlawful : Lawful n (faultIn? answer) (⟨level + 1, .called name args⟩ :: notes) :=
      Lawful.cons (by simp) hbody.lawful
    have hwithin : ∀ m ∈ (⟨level + 1, .called name args⟩ :: notes : List (Note α)),
        level < m.level := by
      rintro m (_ | ⟨_, hm⟩)
      · exact Nat.lt_succ_self level
      · exact hbody.within m hm
    cases answer with
    | error fault =>
      exact ⟨rfl, hwithin, hlawful, by simp [faultIn?], fun _ => ⟨[], name, names, rfl, hown⟩⟩
    | ok _ =>
      have hrest := ih (after n notes)
      simp only
      refine ⟨?_, fun m hm => ?_, hlawful.append hrest.lawful, fun hall => ?_, fun hfault => ?_⟩
      · rw [hrest.notifier, after_append]
        rfl
      · rcases List.mem_append.1 hm with hm | hm
        · exact hwithin m hm
        · exact hrest.within m hm
      · rw [own_append, hown, hrest.all hall]
        rfl
      · obtain ⟨before, last, after, rfl, hcalls⟩ := hrest.upTo hfault
        refine ⟨name :: before, last, after, rfl, ?_⟩
        rw [own_append, hown, hcalls]
        rfl

/-- An emission is lawful, and so is every emission in its calls. -/
theorem Traced.Calls.emission {level : Nat} {event : String} {args : List α} {names : List String}
    {n : Notifier} {t : Traced α Unit} (known : n.listeners? event = some names)
    (h : t.Calls level args names n) : (traceEmission level event args t).Sound level n := by
  obtain ⟨answer, n', notes⟩ := t
  obtain rfl : n' = after n notes := h.notifier
  have hapart : ∀ outer, outer + 1 = level → own outer notes = [] := fun outer houter =>
    own_eq_nil_of_deeper fun m hm => houter ▸ h.within m hm
  -- the emission opens with these lists, so its own notes stand behind an empty beginning
  have hopened : ∀ {fault? : Option NotifierFault} {rest : List (Note α)},
      Round level args names fault? rest → Lawful n fault? rest →
        Lawful n fault? (⟨level, .opened event args⟩ :: rest) := by
    intro fault? rest hround hrest before level' event' args' rest' hsplit
    rcases List.cons_eq_append_iff.1 hsplit with ⟨rfl, hopen⟩ | ⟨before, rfl, hrest'⟩
    · simp only [List.cons.injEq, Note.mk.injEq, Happening.opened.injEq] at hopen
      obtain ⟨⟨rfl, rfl, rfl⟩, rfl⟩ := hopen
      exact ⟨names, known, hround⟩
    · exact hrest before level' event' args' rest' hrest'
  cases answer with
  | error fault =>
    refine ⟨rfl, ?_, fun outer houter => ?_, hopened ?_ h.lawful⟩
    · rintro m (_ | ⟨_, hm⟩)
      · exact Nat.le_refl level
      · exact Nat.le_of_lt (h.within m hm)
    · rw [← hapart outer houter]
      exact List.filterMap_cons_none (by simp [Note.callFrom?, Note.call?])
    · obtain ⟨before, last, after, hsplit, hcalls⟩ := h.upTo rfl
      exact .failed before last after hsplit h.within hcalls rfl
  | ok _ =>
    have hclosed : Lawful n none (notes ++ [⟨level, .closed⟩]) :=
      h.lawful.append (Lawful.cons (by simp) (lawful_nil _ _))
    refine ⟨?_, ?_, fun outer houter => ?_, hopened ?_ hclosed⟩
    · exact (after_append n notes [⟨level, .closed⟩]).symm
    · rintro m (_ | ⟨_, hm⟩)
      · exact Nat.le_refl level
      · rcases List.mem_append.1 hm with hm | hm
        · exact Nat.le_of_lt (h.within m hm)
        · exact Nat.le_of_eq (congrArg Note.level (List.mem_singleton.1 hm)).symm
    · have hown : own outer (notes ++ [⟨level, .closed⟩]) = [] := by
        rw [own_append, hapart outer houter]
        simp [own, Note.callFrom?, Note.call?]
      rw [← hown]
      exact List.filterMap_cons_none (by simp [Note.callFrom?, Note.call?])
    · exact .closed notes [] rfl h.within (h.all rfl)

/-- All emissions of a run are lawful, at any level and however deep they may stand inside each
other. -/
theorem sound_trace (script : Script α) : ∀ (depth level : Nat) (action : Action α) (n : Notifier),
    (script.trace depth level action n).Sound level n
  | depth, level, .fail message, n => by
    rw [trace]
    exact sound_nothing
  | depth, level, .on event listener, n => by
    rw [trace]
    cases n.listeners? event with
    | none => exact sound_nothing
    | some _ =>
      exact sound_plain [⟨level, .on event listener⟩] (by simp) (by simp [Note.call?])
        (by simp)
  | depth, level, .off event listener, n => by
    rw [trace]
    cases n.listeners? event with
    | none => exact sound_nothing
    | some _ =>
      exact sound_plain [⟨level, .off event listener⟩] (by simp) (by simp [Note.call?])
        (by simp)
  | depth, level, .listeners event, n => by
    rw [trace]
    cases n.listeners? event <;> exact sound_nothing
  | 0, level, .emit event args, n => by
    rw [trace]
    cases n.listeners? event <;> exact sound_nothing
  | depth + 1, level, .emit event args, n => by
    rw [trace]
    cases known : n.listeners? event with
    | none => exact sound_nothing
    | some names =>
      refine Traced.Calls.emission known (calls_traceEach (fun a n => ?_) script args names n)
      exact (sound_trace script depth (level + 1) a n).silent

/-! ## Runs that end -/

/-- Two ways to run a part agree wherever the first does not go too deep. -/
def Deeper (run run' : Staged α β) : Prop := ∀ s, (run s).1 ≠ .error .tooDeep → run' s = run s

theorem Deeper.each {run run' : β → Staged α Unit} (h : ∀ x, Deeper (run x) (run' x))
    (xs : List β) : Deeper (each run xs) (each run' xs) := by
  induction xs with
  | nil => exact fun _ _ => rfl
  | cons x xs ih =>
    intro s hs
    rw [Script.each] at hs ⊢
    rw [Script.each]
    rcases hx : run x s with ⟨fault | _, t⟩
    · rw [hx] at hs
      rw [h x s (by rwa [hx]), hx]
    · rw [hx] at hs
      rw [h x s (by simp [hx]), hx]
      exact ih t hs

theorem Deeper.silently {run run' : Staged α β} (h : Deeper run run') :
    Deeper (silently run) (silently run') := by
  intro s hs
  have hrun : (run s).1 ≠ .error .tooDeep := by
    intro hdeep
    rw [Script.silently, hdeep] at hs
    exact hs rfl
  rw [Script.silently, Script.silently, h s hrun]

/-- A run that ends without going too deep is the same if it may go deeper. -/
theorem deeper_act (script : Script α) : ∀ (depth : Nat) (action : Action α),
    Deeper (script.act depth action) (script.act (depth + 1) action)
  | _, .fail _ => fun _ _ => by simp [act]
  | _, .on _ _ => fun _ _ => by simp [act]
  | _, .off _ _ => fun _ _ => by simp [act]
  | _, .listeners _ => fun _ _ => by simp [act]
  | 0, .emit event args => fun s hs => by
    cases known : s.notifier.listeners? event with
    | none => simp [act, known]
    | some names => simp [act, known] at hs
  | depth + 1, .emit event args => fun s hs => by
    cases known : s.notifier.listeners? event with
    | none => simp [act, known]
    | some names =>
      have hcalls : Deeper (each (call (fun a => silently (script.act depth a)) script args) names)
          (each (call (fun a => silently (script.act (depth + 1) a)) script args) names) := by
        refine Deeper.each (fun name s => ?_) names
        exact Deeper.each (fun a => (deeper_act script depth a).silently) (script name) _
      rw [act_emit script depth args known] at hs ⊢
      rw [act_emit script (depth + 1) args known, hcalls s]
      intro hdeep
      rcases hrun : each _ names s with ⟨fault | _, t⟩
      · rw [hrun] at hs hdeep
        exact hs (congrArg Except.error (Except.error.inj hdeep))
      · rw [hrun] at hdeep
        cases hdeep

theorem act_deeper (script : Script α) (depth : Nat) (action : Action α) (s : Stage α)
    (ends : (script.act depth action s).1 ≠ .error .tooDeep) (more : Nat) :
    script.act (depth + more) action s = script.act depth action s := by
  induction more with
  | zero => rfl
  | succ more ih => rw [← Nat.add_assoc, deeper_act script (depth + more) action s (ih ▸ ends), ih]

/-! ## Emissions -/

/-- Listeners that change the lists in the middle of a round, start emissions of the same event and
of another one, and fail. -/
def unruly : Script Nat := fun listener =>
  if listener = "host" then [.off "greeting" "guest", .on "greeting" "late", .emit "parting" [2]]
  else if listener = "guest" then [.emit "greeting" [3], .fail "enough"]
  else []

/-- A stage on which unruly listeners are registered, one of them twice. -/
def crowded : Stage Nat where
  notifier := [("greeting", "host"), ("greeting", "guest"), ("greeting", "host"), ("parting", "late")].foldl
    (fun n r => n.on r.1 r.2) (Notifier.ofEvents ["greeting", "parting"])
  log := []

/-- **The law of rounds.**  An emission that ends does the same however much deeper it might have
gone.  Its notes account for what it adds to the log and for what becomes of the lists, and begin
with its own opening if there is such an event.  It, and every emission that listeners start in its
course, calls those listeners that are registered for its event when it opens: in their order, as
often as they are registered, with its own arguments, and up to the first whose call fails.  So what
is registered meanwhile is not called, and what is removed meanwhile still is. -/
theorem emission_rounds (script : Script α) (depth : Nat) (event : String) (args : List α)
    (s : Stage α) (ends : (script.act depth (.emit event args) s).1 ≠ .error .tooDeep) :
    (∀ more, script.act (depth + more) (.emit event args) s =
      script.act depth (.emit event args) s) ∧
    (script.act depth (.emit event args) s).2 =
      ⟨after s.notifier (script.notes depth (.emit event args) s.notifier),
        s.log ++ (script.notes depth (.emit event args) s.notifier).filterMap Note.call?⟩ ∧
    (match s.notifier.listeners? event with
      | none => script.notes depth (.emit event args) s.notifier = []
      | some _ => ∃ rest,
        script.notes depth (.emit event args) s.notifier = ⟨0, .opened event args⟩ :: rest) ∧
    Lawful s.notifier (faultIn? (script.act depth (.emit event args) s).1)
      (script.notes depth (.emit event args) s.notifier) := by
  have hfollows := follows_act script depth 0 (.emit event args) s
  have hsound := sound_trace script depth 0 (.emit event args) s.notifier
  refine ⟨act_deeper script depth _ s ends, ?_, ?_, ?_⟩
  · rw [hfollows, Traced.stage, hsound.notifier]
    rfl
  · rw [notes]
    cases known : s.notifier.listeners? event with
    | none => cases depth <;> simp [trace, known]
    | some names =>
      cases depth with
      | zero => simp [act, known] at ends
      | succ depth =>
        simp only [trace, known, traceEmission]
        split <;> exact ⟨_, rfl⟩
  · rw [hfollows]
    exact hsound.lawful

/-- The first call removes the second listener, which is called nevertheless, starts the event again
with other lists, and fails. -/
theorem emission_rounds_unruly :
    (unruly.act 3 (.emit "greeting" [1]) crowded).1 ≠ .error .tooDeep ∧
      (∀ more, unruly.act (3 + more) (.emit "greeting" [1]) crowded =
        unruly.act 3 (.emit "greeting" [1]) crowded) ∧
      (unruly.act 3 (.emit "greeting" [1]) crowded).2 =
        ⟨after crowded.notifier (unruly.notes 3 (.emit "greeting" [1]) crowded.notifier),
          crowded.log ++
            (unruly.notes 3 (.emit "greeting" [1]) crowded.notifier).filterMap Note.call?⟩ ∧
      (match crowded.notifier.listeners? "greeting" with
        | none => unruly.notes 3 (.emit "greeting" [1]) crowded.notifier = []
        | some _ => ∃ rest, unruly.notes 3 (.emit "greeting" [1]) crowded.notifier =
          ⟨0, .opened "greeting" [1]⟩ :: rest) ∧
      Lawful crowded.notifier (faultIn? (unruly.act 3 (.emit "greeting" [1]) crowded).1)
        (unruly.notes 3 (.emit "greeting" [1]) crowded.notifier) :=
  have ends : (unruly.act 3 (.emit "greeting" [1]) crowded).1 ≠ .error .tooDeep := by
    decide +kernel
  ⟨ends, emission_rounds unruly 3 "greeting" [1] crowded ends⟩

end Script
end ErrorBars
