import ErrorBars.Measurement
import ErrorBars.Engine
import ErrorBars.Proofs.Arithmetic.Parse
import ErrorBars.Proofs.Names.Formula
import ErrorBars.Proofs.Places.Pieces

/-!
# Which names can be read back

A variable can be named by any text that is neither empty nor reserved.  That is not enough for a
formula to mention it: a name is read back (`ReadsBack`) if the formula that consists of the name is
the variable of this name.

What is read back is accepted, but not the other way round.  A text with a blank, a sign or a digit
in front is a product, a sum or a number when it is read, and a word that is not in its compatibility
form is another variable.  Among the names without quotes, those that are read back are the words
that `IsName` describes (`parse_self_iff`), so acceptance and reading agree on them, on the empty
name and on the reserved words, and on no others (`accepted_and_readsBack`).  Quotes are left out
because a formula can make a variable of any text that it quotes.

That only words are read back follows from where variables come from (`freeSymbols_of_parse`).  That
they are read back is followed through the scanner, the passes and the grammar.
-/

set_option autoImplicit false

namespace ErrorBars

namespace Formula

open Token

/-! ## A formula that is a word -/

variable {s : String} {c : Char}

theorem not_mem_marks_of_isWordChar (hc : Text.isWordChar c = true) : c ∉ marks := by
  have hall : ∀ c ∈ marks, (!Text.isWordChar c) = true := List.all_eq_true.1 (by decide)
  intro hmem
  have hnot := hall c hmem
  rw [hc] at hnot
  exact Bool.false_ne_true hnot

/-- No digit begins an identifier. -/
theorem isDigit_of_startsIdentifier (hc : Text.startsIdentifier c = true) :
    c.isDigit = false := by
  refine Bool.eq_false_iff.2 fun hdigit => ?_
  have hle : c.toNat ≤ 57 := (Char.isDigit_iff_toNat.1 hdigit).2
  rw [Text.startsIdentifier, if_pos (by omega), Bool.or_eq_true, beq_iff_eq] at hc
  rcases hc with halpha | rfl
  · rw [isDigit_of_isAlpha halpha] at hdigit
    contradiction
  · exact absurd hdigit (by decide)

/-- A word is one token. -/
theorem scan_word (h : IsSingleWord s) : Token.scan s = some [.name s, .newline] := by
  have hall : ∀ c ∈ s.toList, Text.isWordChar c = true := List.all_eq_true.1 h.2
  cases hs : s.toList with
  | nil => simp [IsSingleWord, hs] at h
  | cons c cs =>
    rw [hs] at hall
    have hstart : Text.startsIdentifier c = true := by simpa [hs] using h.1
    have hword := hall c List.mem_cons_self
    have hunmarked : ∀ d ∈ c :: cs, d ∉ marks := fun d hd =>
      not_mem_marks_of_isWordChar (hall d hd)
    have hne {d : Char} (hd : Text.startsIdentifier d = false) : c ≠ d := by
      rintro rfl
      rw [hd] at hstart
      contradiction
    have hblank : ∀ d ∈ c :: cs, Text.isBlank d = false := by
      intro d hd
      by_contra hblank
      have hnot := isWordChar_of_isBlank (Bool.not_eq_false _ ▸ hblank)
      rw [hall d hd] at hnot
      contradiction
    have hstrip := strip_blanks (fun d hd => hblank d (List.mem_of_mem_head? hd))
      (fun d hd => hblank d (List.mem_of_getLast? hd)) (List.cons_ne_nil c cs) 0 0
    rw [List.replicate_zero, List.nil_append, List.append_nil] at hstrip
    have hnumeral : numeralRun? (c :: cs) = none :=
      numeralRun?_of_not_digit (isDigit_of_startsIdentifier hstart) (hne (by decide))
    have hrun : Token.scanFrom (2 * (c :: cs).length + 1) ⟨0, false⟩
        (List.replicate 0 ' ' ++ c :: cs) = _ :=
      scanFrom_word hunmarked (hne (by decide)) hnumeral (operatorRun?_of_isWordChar hword) hword
        hstart
    have hwhole : (c :: cs ++ []).takeWhile Text.isWordChar = c :: cs ∧
        (c :: cs ++ []).dropWhile Text.isWordChar = [] := takeWhile_word hall (by rintro d ⟨⟩)
    rw [List.append_nil] at hwhole
    rw [List.replicate_zero, List.nil_append, hwhole.1, hwhole.2, ← hs, String.ofList_toList] at hrun
    rw [Token.scan, hs, hstrip, scanFrom_start hunmarked (hne (by decide)), ← hs, hrun, hs]
    rfl

/-- No pass changes a word that is given. -/
theorem explicit_word (hs : s ≠ "lambda") :
    explicit [s] [.name s, .newline] = .ok [.name s, .newline] := by
  have hpowers : explicitPowers [s] [.name s, .newline] = .ok [.name s, .newline] := by
    refine explicitPowers_eq (fun w hw => by simpa using hw) ?_ ?_ ?_
    · intro t ht
      simp only [List.mem_cons, List.not_mem_nil, or_false] at ht
      rcases ht with rfl | rfl <;> rfl
    · simp [readNumerals, readPowers]
    · simpa [readNumerals, readPowers] using hs.symm
  have hjoin : joinFactors [s] .newline [.name s, .newline] = [.name s, .newline] := by
    rw [joinFactors_cons_cons, if_neg (by simp [startsFactor])]
    rfl
  rw [explicit, hpowers]
  exact congrArg Except.ok hjoin

/-- A word is a phrase exactly if it is an identifier. -/
theorem ofTokens?_word (hs : s ∉ reservedWords) :
    Phrase.ofTokens? [.name s, .newline] =
      if Text.isIdentifier s.toList = true then some (.name s) else none := by
  have hregroup : regroup [] [.name s, .newline] =
      if Text.isIdentifier s.toList = true then some [.name s, .newline] else none := rfl
  have hword : isOperandWord s = true := by simp [isOperandWord, hs]
  have hstarts : StartsPlain [.name s] := .name hword []
  have hitems : readItems 24 [.name s] = some (([.name s], false), []) := by
    have hchain := (((readsAtom_name hword).power Nat.one_pos).sign hstarts).chain Nat.one_pos
    exact hchain.loosen.items (.plain hstarts) (by simp) .nil (by simp)
  have hlast : dropLastLines [.name s, .newline] = [.name s] := by
    rw [← List.singleton_append, dropLastLines_newline (by simp)]
  rw [Phrase.ofTokens?, returnsToLines_of_no_return (by simp), hregroup]
  split
  · rw [Option.bind_eq_bind, Option.bind_some, hlast]
    simp [nesting, hitems, Phrase.isBare]
  · rfl

/-- By itself, a word means what it means to the reader. -/
theorem meaningOf_name (names : List String) (read : TextReader) :
    meaningOf ⟨names, read⟩ (.name s) = wordValue names s := by
  show (currentValue names s).run' [] = _
  cases hword : wordValue names s <;> simp [currentValue, hword]

/-- A name that the reader takes as it stands: a word that is an identifier, that is its own
compatibility form and that is not reserved. -/
def IsName (s : String) : Prop :=
  IsSingleWord s ∧ Text.isIdentifier s.toList = true ∧ Text.compatibilityForm s = s ∧
    s ∉ reservedWords

instance (s : String) : Decidable (IsName s) := inferInstanceAs (Decidable (_ ∧ _))

/-- **A word is read back exactly if it is a name.** -/
theorem parse_word_iff (h : IsSingleWord s) (hs : s ∉ reservedWords) :
    parse s [s] = .ok (.symbol s) ↔ IsName s := by
  have hempty : "" ∉ [s] := by
    rintro hmem
    rw [← List.mem_singleton.1 hmem] at h
    exact absurd h (by decide)
  have hlambda : s ≠ "lambda" := by
    rintro rfl
    exact hs (by decide)
  have hgiven : ([s].contains s && !reservedWords.contains s) = true := by simp [hs]
  have hphrase := ofTokens?_word hs
  constructor
  · intro hparse
    obtain ⟨ts, us, phrase, read, hscan, hus, hof, hmeaning⟩ := exists_of_parse_eq_ok hparse
    obtain rfl := Option.some.inj ((scan_word h).symm.trans hscan)
    obtain rfl := Except.ok.inj ((explicit_word hlambda).symm.trans hus)
    rw [hphrase] at hof
    split at hof
    · rename_i hidentifier
      obtain rfl := Option.some.inj hof
      refine ⟨h, hidentifier, ?_, hs⟩
      rw [meaningOf_name, wordValue, if_pos hgiven] at hmeaning
      simp only at hmeaning
      split at hmeaning
      · exact Expr.symbol.inj (Value.scalar.inj (Except.ok.inj hmeaning))
      · split at hmeaning
        · cases hmeaning
        · -- a word that is not given is no variable
          have hclosed := gives_knownValue (S := fun _ => False) _ hmeaning
          exact (Expr.over_symbol.1 hclosed).elim
    · cases hof
  · rintro ⟨-, hidentifier, hform, -⟩
    rw [if_pos hidentifier] at hphrase
    refine parse_eq_ok hempty (scan_word h) (explicit_word hlambda) hphrase fun read => ?_
    rw [meaningOf_name, wordValue, if_pos hgiven, hform]
    exact if_pos (List.contains_iff_mem.2 List.mem_cons_self)

/-! ## Any text -/

/-- What is read back is a word, unless there are quotes in it. -/
theorem isWord_of_parse (hquotes : ∀ c ∈ s.toList, c ≠ '\'' ∧ c ≠ '"')
    (h : parse s [s] = .ok (.symbol s)) : IsSingleWord s := by
  by_cases hreader : s ∈ readerWords
  · have hall : ∀ w ∈ readerWords, IsSingleWord w := by decide
    exact hall s hreader
  · obtain ⟨ts, us, phrase, read, hscan, -⟩ := exists_of_parse_eq_ok h
    have hscanned := Token.scannedFrom_scan hscan
    have hplain : ∀ q, Token.text q ∉ ts := by
      intro q hq
      obtain ⟨c, hc, hquote⟩ := hscanned _ hq
      exact hquote.elim (hquotes c hc).1 (hquotes c hc).2
    have hother {w : String} (hw : w ∈ readerWords) : w ∉ [s] := by
      rintro hmem
      exact hreader (List.mem_singleton.1 hmem ▸ hw)
    have hnameable := Expr.over_iff_freeSymbols.2 (freeSymbols_of_parse hscan hplain
      (hother (by decide)) (hother (by decide)) (hother (by decide)) h)
    have hwords : s ∈ wordsOf ts ++ readerWords := by
      rcases Expr.over_symbol.1 hnameable with hmem | ⟨-, w, hw, hgiven, -⟩
      · exact hmem
      · exact List.mem_singleton.1 hgiven ▸ hw
    obtain ⟨t, ht, hword⟩ := List.mem_filterMap.1 ((List.mem_append.1 hwords).resolve_right hreader)
    cases t with
    | name w => exact Option.some.inj hword ▸ hscanned _ ht
    | _ => cases hword

/-- The empty text and the reserved words are not read back. -/
theorem parse_self_ne (h : s = "" ∨ s ∈ reservedWords) : parse s [s] ≠ .ok (.symbol s) := by
  have hall : ∀ w ∈ "" :: reservedWords, (parse w [w]).isOk = false := by decide +kernel
  have hnone := hall s (List.mem_cons.2 h)
  intro hparse
  rw [hparse] at hnone
  exact Bool.false_ne_true hnone.symm

/-- **What is read back, among the texts without quotes, are the names.** -/
theorem parse_self_iff (hquotes : ∀ c ∈ s.toList, c ≠ '\'' ∧ c ≠ '"') :
    parse s [s] = .ok (.symbol s) ↔ IsName s := by
  by_cases hs : s ∈ reservedWords
  · exact iff_of_false (parse_self_ne (.inr hs)) fun h => h.2.2.2 hs
  · exact ⟨fun h => (parse_word_iff (isWord_of_parse hquotes h) hs).1 h,
      fun h => (parse_word_iff h.1 hs).2 h⟩

end Formula

/-! ## Accepted names -/

/-- This measurement is accepted as that of a variable with this name. -/
def Accepted (name : String) (entry : Datum) (m : Measurement) : Prop :=
  readVariables (.mapping [(.text name, entry)]) = .ok [(name, m)]

/-- Where it is given, a name is read as the variable of this name. -/
def ReadsBack (name : String) : Prop :=
  ∀ r, (Engine.parse name [name] r).1 = .ok (.symbol name)

theorem readsBack_iff {name : String} :
    ReadsBack name ↔ Formula.parse name [name] = .ok (.symbol name) := by
  have hengine (r : Registry) : (Engine.parse name [name] r).1 =
      (Formula.parse name [name]).mapError (Engine.ofParseFault name) := by
    rw [Engine.parse]
    cases Formula.parse name [name] <;> rfl
  simp only [ReadsBack, hengine]
  cases Formula.parse name [name] <;> simp [Except.mapError]

section

variable {name : String} {entry : Datum} {m : Measurement}

/-- What a variable with this name and a measurement that is in order is taken for. -/
theorem readVariables_single (h : Measurement.check entry = .ok (.ok m)) :
    readVariables (.mapping [(.text name, entry)]) =
      if name = "" then .error (.input (.badName (.text name)))
      else if name ∈ reservedWords then .error (.input (.reservedName name))
      else .ok [(name, m)] := by
  by_cases hempty : name = ""
  · simp [readVariables, readEntries, readVariable, readName, hempty, bind, Except.bind]
  · by_cases hs : name ∈ reservedWords <;>
      simp [readVariables, readEntries, readVariable, readName, h, hempty, hs, bind, Except.bind,
        pure, Except.pure]

theorem accepted_iff (h : Measurement.check entry = .ok (.ok m)) :
    Accepted name entry m ↔ name ≠ "" ∧ name ∉ reservedWords := by
  rw [Accepted, readVariables_single h]
  split
  · simp [*]
  · split <;> simp [*]

/-- **Every name is accepted that is neither empty nor reserved, and more names than can be read.**
What is not accepted is reported.  Whatever is read back is accepted; but among the names without
quotes, only the words of `IsName` are read back, so that the two agree exactly on these words and on
what is not accepted. -/
theorem accepted_and_readsBack (name : String) (entry : Datum) (m : Measurement)
    (h : Measurement.check entry = .ok (.ok m)) :
    (Accepted name entry m ↔ name ≠ "" ∧ name ∉ reservedWords) ∧
    (¬ Accepted name entry m →
      ∃ fault, readVariables (.mapping [(.text name, entry)]) = .error (.input fault)) ∧
    (ReadsBack name → Accepted name entry m) ∧
    ((∀ c ∈ name.toList, c ≠ '\'' ∧ c ≠ '"') →
      ((Accepted name entry m ↔ ReadsBack name) ↔
        name = "" ∨ name ∈ reservedWords ∨ Formula.IsName name)) := by
  have haccepted : Accepted name entry m ↔ name ≠ "" ∧ name ∉ reservedWords := accepted_iff h
  have hreads : ReadsBack name → Accepted name entry m := by
    intro hread
    by_contra hnot
    rw [haccepted, not_and_or, not_ne_iff, not_not] at hnot
    exact Formula.parse_self_ne hnot (readsBack_iff.1 hread)
  refine ⟨haccepted, fun hnot => ?_, hreads, fun hquotes => ?_⟩
  · rw [readVariables_single h]
    split
    · exact ⟨_, rfl⟩
    · split
      · exact ⟨_, rfl⟩
      · exact absurd (haccepted.2 ⟨‹_›, ‹_›⟩) hnot
  · have hname : ReadsBack name ↔ Formula.IsName name :=
      readsBack_iff.trans (Formula.parse_self_iff hquotes)
    have hfree : Formula.IsName name → name ≠ "" ∧ name ∉ reservedWords := fun h =>
      haccepted.1 (hreads (hname.2 h))
    rw [haccepted, hname]
    tauto

end

/-- The number one, known exactly. -/
def unity : Datum := .mapping [(.text "value", .number (.int 1)), (.text "error", .number (.int 0))]

/-- With a blank in it a name is accepted and not read back; a word is both. -/
theorem accepted_and_readsBack_blank :
    ∃ m, Measurement.check unity = .ok (.ok m) ∧
      (∀ c ∈ "x y".toList, c ≠ '\'' ∧ c ≠ '"') ∧ Accepted "x y" unity m ∧ ¬ ReadsBack "x y" ∧
        Accepted "x_1" unity m ∧ ReadsBack "x_1" := by
  obtain ⟨m, hm⟩ : ∃ m, Measurement.check unity = .ok (.ok m) := ⟨_, rfl⟩
  have hquotes : ∀ c ∈ "x y".toList, c ≠ '\'' ∧ c ≠ '"' := by simp
  obtain ⟨haccepted, -, -, hagree⟩ := accepted_and_readsBack "x y" unity m hm
  obtain ⟨hword, -, -, hagree'⟩ := accepted_and_readsBack "x_1" unity m hm
  have haccepted := haccepted.2 (by decide)
  have hword := hword.2 (by decide)
  refine ⟨m, hm, hquotes, haccepted, fun hread => ?_, hword, ?_⟩
  · exact absurd ((hagree hquotes).1 (iff_of_true haccepted hread)) (by decide)
  · exact ((hagree' (by simp)).2 (by decide)).1 hword

/-- A name can be accepted though it cannot be read. -/
theorem accepted_unread :
    ∃ m, Measurement.check unity = .ok (.ok m) ∧ Accepted "x y" unity m ∧ ¬ ReadsBack "x y" := by
  obtain ⟨m, hm⟩ : ∃ m, Measurement.check unity = .ok (.ok m) := ⟨_, rfl⟩
  refine ⟨m, hm, (accepted_iff hm).2 (by decide), fun hread => ?_⟩
  have hname := (Formula.parse_self_iff (by simp)).1 (readsBack_iff.1 hread)
  exact absurd hname (by decide)

end ErrorBars
