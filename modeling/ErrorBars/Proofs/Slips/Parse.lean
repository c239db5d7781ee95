import ErrorBars.Proofs.Account
import ErrorBars.Proofs.Slips.Phrase

/-!
# How the reading of a formula slips

A text that cannot be read is the fault of the text, and the engine says so: it is no formula, or the
formula of something that is no number.  But there are texts that the engine lets through as
something else.  `Mishap` says which they are:

* a parenthesis is closed before it is opened, as in `)x(`;
* the phrase comes to an operation that divides by zero or looks for a part that is not there, as in
  `x%0`.

`Engine.parse_outcome` says that these are all: reading keeps what it promises (`Engine.AsPromised`)
if and only if there is no mishap.
-/

set_option autoImplicit false

namespace ErrorBars

namespace Formula

/-! ## Tokens -/

/-- A parenthesis is closed among tokens that is not open there. -/
def ClosesTooOften (ts : List Token) : Prop :=
  ∃ before, before <+: ts ∧ before.countP (·.isOp "(") < before.countP (·.isOp ")")

section

variable {fault : ParseFault}

@[simp] theorem isOp_op (s t : String) : (Token.op t).isOp s = (s == t) := rfl

/-- Counting open parentheses fails where the closed ones outnumber those that were open at the
beginning and those that have been opened since. -/
theorem openParentheses_eq_error {depth : Nat} {ts : List Token} :
    openParentheses depth ts = .error fault ↔ fault = .outOfRange ∧
      ∃ before, before <+: ts ∧
        depth + before.countP (·.isOp "(") < before.countP (·.isOp ")") := by
  induction ts generalizing depth with
  | nil => simp [openParentheses]
  | cons t ts ih =>
    have hcons : (∃ before, before <+: t :: ts ∧
          depth + before.countP (·.isOp "(") < before.countP (·.isOp ")")) ↔
        ∃ before, before <+: ts ∧
          depth + (t :: before).countP (·.isOp "(") < (t :: before).countP (·.isOp ")") := by
      constructor
      · rintro ⟨before, hprefix, hcount⟩
        rcases List.prefix_cons_iff.1 hprefix with rfl | ⟨rest, rfl, hrest⟩
        · simp at hcount
        · exact ⟨rest, hrest, hcount⟩
      · rintro ⟨before, hprefix, hcount⟩
        exact ⟨t :: before, List.cons_prefix_cons.2 ⟨rfl, hprefix⟩, hcount⟩
    rw [hcons]
    simp only [List.countP_cons]
    cases t with
    | op s =>
      by_cases hopen : s = "("
      · subst hopen
        have hstep : openParentheses depth (.op "(" :: ts) = openParentheses (depth + 1) ts := rfl
        rw [hstep, ih]
        refine and_congr_right fun _ => exists_congr fun before => and_congr_right fun _ => ?_
        simp
        omega
      · by_cases hclose : s = ")"
        · subst hclose
          cases depth with
          | zero =>
            have hstep : openParentheses 0 (.op ")" :: ts) = .error .outOfRange := rfl
            rw [hstep]
            exact ⟨fun h => ⟨(Except.error.inj h).symm, [], List.nil_prefix, by simp⟩,
              fun h => h.1 ▸ rfl⟩
          | succ depth =>
            have hstep : openParentheses (depth + 1) (.op ")" :: ts) = openParentheses depth ts :=
              rfl
            rw [hstep, ih]
            refine and_congr_right fun _ => exists_congr fun before => and_congr_right fun _ => ?_
            simp
            omega
        · have hstep : openParentheses depth (.op s :: ts) = openParentheses depth ts := by
            simp [openParentheses, hopen, hclose]
          rw [hstep, ih]
          simp [Ne.symm hopen, Ne.symm hclose]
    | _ => exact ih

theorem contained_explicitPowers (names : List String) (ts : List Token) :
    Contained (explicitPowers names ts) := by
  rw [explicitPowers]
  split <;> simp

/-- Tokens are made explicit unless a parenthesis is closed too often. -/
theorem explicit_eq_error {names : List String} {ts : List Token} (hf : fault.escapes) :
    explicit names ts = .error fault ↔
      fault = .outOfRange ∧ ∃ us, explicitPowers names ts = .ok us ∧ ClosesTooOften us := by
  have hunreadable := unreadable_ne hf
  have hbalanced : ∀ (depth : Nat) (us : List Token),
      (if depth ≠ 0 then .error .unreadable
        else .ok us : Except ParseFault (List Token)) ≠ .error fault := by
    intro depth us
    split <;> simp [hunreadable]
  simp only [explicit, bind_eq_error, (contained_explicitPowers names ts).ne_error hf, hbalanced,
    openParentheses_eq_error, Nat.zero_add, false_or, and_false, exists_false, or_false,
    ClosesTooOften, exists_and_left, and_left_comm]

/-! ## Texts -/

theorem meaningOf_eq_error {around : Surroundings} {phrase : Phrase} (hf : fault.escapes) :
    meaningOf around phrase = .error fault ↔
      ComesTo around (fun o => o.result around.read = .error fault) phrase [] := by
  rw [← calculate_eq_error hf]
  show (calculate around phrase [] >>= fun p => pure p.1) = _ ↔ _
  rw [bind_eq_error]
  simp [pure, Except.pure]

/-- A text fails, other than as unreadable, in its tokens or in its phrase. -/
theorem valueOf_eq_error (prepare : List String → List Token → Except ParseFault (List Token))
    (depth : Nat) (source : String) (names : List String) (hf : fault.escapes) :
    valueOf prepare (depth + 1) source names = .error fault ↔
      ∃ ts, Token.scan source = some ts ∧
        (prepare names ts = .error fault ∨
          ∃ us, prepare names ts = .ok us ∧ ∃ phrase, Phrase.ofTokens? us = some phrase ∧
            meaningOf ⟨names, fun s => valueOf explicitPowers depth s []⟩ phrase =
              .error fault) := by
  have hunreadable := unreadable_ne hf
  rw [valueOf]
  cases hscan : Token.scan source with
  | none => simp [hunreadable]
  | some ts =>
    simp only [Option.some.injEq, exists_eq_left', bind_eq_error]
    refine or_congr_right (exists_congr fun us => and_congr_right fun _ => ?_)
    cases Phrase.ofTokens? us with
    | none => simp [hunreadable]
    | some phrase => simp

/-- How texts are read that stand in a formula, with at most so many texts in each other. -/
def readWithin (depth : Nat) : TextReader := fun s => valueOf explicitPowers depth s []

/-- A phrase comes to an operation that slips, where texts fail in these ways. -/
def PhraseSlips (names : List String) (read : TextReader) (fails : String → ParseFault → Prop)
    (fault : ParseFault) (phrase : Phrase) : Prop :=
  ComesTo ⟨names, read⟩ (fun o => o.Slips read fails fault) phrase []

/-- A text that stands in a formula slips. -/
def SlipsWithin : Nat → String → ParseFault → Prop
  | 0, _, _ => False
  | depth + 1, source, fault =>
    ∃ ts us phrase, Token.scan source = some ts ∧ explicitPowers [] ts = .ok us ∧
      Phrase.ofTokens? us = some phrase ∧
      PhraseSlips [] (readWithin depth) (SlipsWithin depth) fault phrase

theorem phraseSlips_iff {names : List String} {read : TextReader}
    {fails : String → ParseFault → Prop} {phrase : Phrase} (hf : fault.escapes)
    (hfails : ∀ s, fails s fault ↔ read s = .error fault) :
    PhraseSlips names read fails fault phrase ↔ meaningOf ⟨names, read⟩ phrase = .error fault := by
  rw [PhraseSlips, meaningOf_eq_error hf]
  simp only [← Operation.result_eq_error hf hfails]

/-- Texts in a formula fail, other than as unreadable, where they slip.  The induction follows how
deeply texts stand in each other. -/
theorem slipsWithin_iff (hf : fault.escapes) (depth : Nat) (source : String) :
    SlipsWithin depth source fault ↔ readWithin depth source = .error fault := by
  induction depth generalizing source with
  | zero => simp [SlipsWithin, readWithin, valueOf, unreadable_ne hf]
  | succ depth ih =>
    have hprepare := fun ts => (contained_explicitPowers [] ts).ne_error hf
    rw [readWithin, valueOf_eq_error _ _ _ _ hf, SlipsWithin]
    simp only [hprepare, false_or, phraseSlips_iff hf ih, exists_and_left]
    rfl

/-- **The reading of a formula slips.** -/
inductive Mishap (source : String) (names : List String) : ParseFault → Prop where
  /-- a parenthesis is closed that is not open -/
  | parenthesis {ts us : List Token} (hnames : "" ∉ names) (hscan : Token.scan source = some ts)
    (hus : explicitPowers names ts = .ok us) (h : ClosesTooOften us) :
    Mishap source names .outOfRange
  /-- an operation of the phrase slips -/
  | operation {ts us : List Token} {phrase : Phrase} {fault : ParseFault} (hnames : "" ∉ names)
    (hscan : Token.scan source = some ts) (hus : explicit names ts = .ok us)
    (hphrase : Phrase.ofTokens? us = some phrase)
    (h : PhraseSlips names (readWithin source.length) (SlipsWithin source.length) fault phrase) :
    Mishap source names fault

/-- **Reading fails, other than as unreadable or no number, where there is a mishap.** -/
theorem parse_eq_error {source : String} {names : List String} (hf : fault.escapes) :
    parse source names = .error fault ↔ Mishap source names fault := by
  by_cases hnames : "" ∈ names
  · refine iff_of_false ?_ ?_
    · rw [parse, if_pos (List.contains_iff_mem.2 hnames)]
      exact contained_unreadable.ne_error hf
    · rintro (⟨h⟩ | ⟨h⟩) <;> exact h hnames
  · have hslips : ∀ phrase,
        PhraseSlips names (readWithin source.length) (SlipsWithin source.length) fault phrase ↔
          meaningOf ⟨names, readWithin source.length⟩ phrase = .error fault := fun _ =>
      phraseSlips_iff hf (slipsWithin_iff hf source.length)
    rw [parse, if_neg (by simpa using hnames), bind_eq_error, or_iff_left,
      valueOf_eq_error _ _ _ _ hf]
    · constructor
      · rintro ⟨ts, hscan, hus | ⟨us, hus, phrase, hphrase, h⟩⟩
        · obtain ⟨rfl, us, hus, h⟩ := (explicit_eq_error hf).1 hus
          exact .parenthesis hnames hscan hus h
        · exact .operation hnames hscan hus hphrase ((hslips phrase).2 h)
      · intro h
        cases h with
        | parenthesis _ hscan hus h =>
          exact ⟨_, hscan, .inl ((explicit_eq_error hf).2 ⟨rfl, _, hus, h⟩)⟩
        | operation _ hscan hus hphrase h =>
          exact ⟨_, hscan, .inr ⟨_, hus, _, hphrase, (hslips _).1 h⟩⟩
    · rintro ⟨v, -, h⟩
      cases v with
      | scalar e => exact absurd h nofun
      | _ =>
        obtain rfl := Except.error.inj h
        exact absurd hf nofun

end

end Formula

namespace Engine

open Formula

/-- What reading promises: an expression, which the engine holds from now on, or one of two words
about the text, and then it holds what it held before. -/
def AsPromised (source : String) (r : Registry) (outcome : Except EngineFault Expr × Registry) :
    Prop :=
  (∃ e, outcome = (.ok e, r ++ [e])) ∨
    outcome = (.error (.unreadable source), r) ∨ outcome = (.error (.notScalar source), r)

theorem parse_of_ok {source : String} {names : List String} {e : Expr} (r : Registry)
    (h : Formula.parse source names = .ok e) : Engine.parse source names r = (.ok e, r ++ [e]) := by
  rw [Engine.parse, h]

theorem parse_of_error {source : String} {names : List String} {fault : ParseFault} (r : Registry)
    (h : Formula.parse source names = .error fault) :
    Engine.parse source names r = (.error (ofParseFault source fault), r) := by
  rw [Engine.parse, h]

theorem ofParseFault_injective (source : String) : Function.Injective (ofParseFault source) := by
  intro f g h
  cases f <;> cases g <;> first | rfl | exact absurd h nofun

/-- The two faults that reading promises are those that it does not pass on as they are. -/
theorem asPromised_error_iff (source : String) (fault : ParseFault) (r : Registry) :
    AsPromised source r (.error (ofParseFault source fault), r) ↔ fault.escapes = false := by
  cases fault <;> simp [AsPromised, ofParseFault, ParseFault.escapes]

/-- A calculation fails with the fault of reading its formula. -/
theorem reference_of_unread {source : String} {inputs : Datum} {vs : Variables} {fault : ParseFault}
    (mode : Correlation) (hsource : Propagator.readFormula (.text source) = .ok source)
    (hinputs : readVariables inputs = .ok vs)
    (h : Formula.parse source (vs.map Prod.fst) = .error fault) :
    Propagator.reference mode (.text source) inputs =
      .error (.engine (ofParseFault source fault)) := by
  have hopening : Propagator.opening (.text source) inputs =
      .error (.engine (ofParseFault source fault)) := by
    rw [Propagator.opening, hsource, hinputs]
    show Propagator.setting source vs = _
    rw [Propagator.setting, h]
  rw [Propagator.reference, hopening]
  rfl

/-- The kind of fault with which a text is not read. -/
def faultOf? (source : String) (names : List String) : Option ParseFault :=
  match Formula.parse source names with
  | .ok _ => none
  | .error fault => some fault

theorem parse_of_faultOf? {source : String} {names : List String} {fault : ParseFault}
    (h : faultOf? source names = some fault) : Formula.parse source names = .error fault := by
  rw [faultOf?] at h
  split at h
  · exact absurd h nofun
  · rw [← Option.some.inj h]
    assumption

end Engine

end ErrorBars
