import ErrorBars.Proofs.Arithmetic.Scan

/-!
# Reading keeps what arithmetic means

A tree of arithmetic is written down and read again.  Its text is scanned (`Spells.scan`), the
tokens are made explicit and read as the phrase of the tree (`Writes.explicit_eq`,
`Writes.ofTokens?`), and the phrase means the expression that the operations of the tree give
(`Arithmetic.calculate_phrase`).  So reading comes to that expression (`parse_text`), and its value
is the one of the tree (`Engine.parse_arithmetic`).

The one thing that can go wrong is a number that is too long: then the text is refused
(`parse_text_of_long`).
-/

set_option autoImplicit false

namespace ErrorBars.Formula

namespace Arithmetic

variable {t : Arithmetic} {around : Surroundings}

theorem wordValue_of_isVariable {names : List String} {s : String} (hs : s ∈ names)
    (hvariable : IsVariable s) : wordValue names s = .ok (.scalar (.symbol s)) := by
  have hcontains : names.contains s = true := List.contains_iff_mem.2 hs
  have hfree : reservedWords.contains s = false := by simpa using hvariable.2.2
  rw [wordValue, hcontains, hfree, hvariable.compatibilityForm]
  exact if_pos hcontains

/-- **The phrase of a tree means the expression that the operations give.** -/
theorem calculate_phrase (hwords : ∀ s ∈ t.words, s ∈ around.names ∧ IsVariable s) :
    calculate around t.phrase [] = .ok (.scalar t.toExpr, []) := by
  induction t with
  | literal n => rfl
  | word s =>
    obtain ⟨hs, hvariable⟩ := hwords s List.mem_cons_self
    show (wordValue around.names s).bind _ = _
    rw [wordValue_of_isVariable hs hvariable]
    rfl
  | add a b iha ihb | sub a b iha ihb | mul a b iha ihb | div a b iha ihb =>
    have iha := iha fun s hs => hwords s (List.mem_append_left _ hs)
    have ihb := ihb fun s hs => hwords s (List.mem_append_right _ hs)
    simp only [phrase, calculate, bind, StateT.bind, Except.bind, iha, ihb]
    rfl
  | neg a ih =>
    simp only [phrase, calculate, bind, StateT.bind, Except.bind, ih hwords]
    rfl
  | pow a negative n ih =>
    cases negative <;>
    · simp only [phrase, calculate, bind, StateT.bind, Except.bind, ih hwords]
      rfl

end Arithmetic

/-- **Every tree has a text.** -/
theorem Arithmetic.exists_text (t : Arithmetic) :
    ∃ d ls cs, Writes d .sum t ls ∧ Spells ls cs := by
  obtain ⟨d, ls, h⟩ := t.exists_writes
  have hspells (ls : List Lexeme) : ∃ cs, Spells ls cs := by
    induction ls with
    | nil => exact ⟨[], .nil⟩
    | cons l ls ih =>
      obtain ⟨cs, hcs⟩ := ih
      exact ⟨_, .cons l 0 hcs⟩
  obtain ⟨cs, hcs⟩ := hspells ls
  exact ⟨d, ls, cs, .ofProduct (.ofSign (.ofPower (.ofAtom h))), hcs⟩

/-! ## Reading a text -/

variable {source : String} {names : List String} {ts us : List Token}

/-- The steps of reading, where each of them succeeds. -/
theorem parse_eq_ok {phrase : Phrase} {e : Expr} (hempty : "" ∉ names)
    (hscan : Token.scan source = some ts) (hexplicit : explicit names ts = .ok us)
    (hphrase : Phrase.ofTokens? us = some phrase)
    (hmeaning : ∀ read, meaningOf ⟨names, read⟩ phrase = .ok (.scalar e)) :
    parse source names = .ok e := by
  have hnames : names.contains "" = false := by simpa using hempty
  rw [parse, hnames, if_neg Bool.false_ne_true, valueOf, hscan]
  dsimp only
  rw [hexplicit]
  simp only [bind, Except.bind, hphrase, hmeaning]

/-- Where a text is read, each of the steps has succeeded. -/
theorem exists_of_parse_eq_ok {e : Expr} (h : parse source names = .ok e) :
    ∃ ts us phrase read, Token.scan source = some ts ∧ explicit names ts = .ok us ∧
      Phrase.ofTokens? us = some phrase ∧
        meaningOf ⟨names, read⟩ phrase = .ok (.scalar e) := by
  unfold parse at h
  split at h
  · cases h
  · rw [valueOf] at h
    cases hscan : Token.scan source with
    | none => simp [hscan, bind, Except.bind] at h
    | some ts =>
      cases hus : explicit names ts with
      | error fault => simp [hscan, hus, bind, Except.bind] at h
      | ok us =>
        cases hphrase : Phrase.ofTokens? us with
        | none => simp [hscan, hus, hphrase, bind, Except.bind] at h
        | some phrase =>
          simp only [hscan, hus, hphrase, bind, Except.bind] at h
          split at h
          · cases h
          · rename_i hmeaning
            split at h
            · cases h
              exact ⟨ts, us, phrase, _, rfl, hus, hphrase, hmeaning⟩
            · cases h

/-- The tokens of a text may be none of a phrase. -/
theorem parse_eq_unreadable (hempty : "" ∉ names) (hscan : Token.scan source = some ts)
    (hexplicit : explicit names ts = .ok us) (hphrase : Phrase.ofTokens? us = none) :
    parse source names = .error .unreadable := by
  have hnames : names.contains "" = false := by simpa using hempty
  rw [parse, hnames, if_neg Bool.false_ne_true, valueOf, hscan]
  dsimp only
  rw [hexplicit]
  simp only [bind, Except.bind, hphrase]

section Text

variable {t : Arithmetic} {d : ℕ} {ls : List Lexeme} {cs : List Char}

theorem Writes.readable {r : Rank} (h : Writes d r t ls)
    (hwords : ∀ s ∈ t.words, s ∈ names ∧ IsVariable s) : ∀ l ∈ ls, l.Readable names := by
  intro l hl
  cases l with
  | word s => exact hwords s (h.word_mem hl)
  | _ => trivial

variable (hempty : "" ∉ names) (hinteger : "Integer" ∉ names)
  (hwords : ∀ s ∈ t.words, s ∈ names ∧ IsVariable s) (hwrites : Writes d .sum t ls)
  (hspells : Spells ls cs) (k : ℕ)
include hempty hinteger hwords hwrites hspells

/-- **A formula is read as the expression that its operations give.** -/
theorem parse_text (hd : d < nestingLimit)
    (hliterals : ∀ n ∈ t.literals, decimalLength n ≤ digitLimit) :
    parse (String.ofList (cs ++ List.replicate k ' ')) names = .ok t.toExpr := by
  have hread := hwrites.readable hwords
  have hshort : ∀ l ∈ ls, l.Short := by
    intro l hl
    cases l with
    | numeral n => exact hliterals n (hwrites.numeral_mem_iff.1 hl)
    | _ => trivial
  have hexplicit := hwrites.explicit_eq hinteger hread
  rw [joinFactors_joined hwrites hread hshort] at hexplicit
  refine parse_eq_ok hempty (hspells.scan hwrites hread k) hexplicit
    (hwrites.ofTokens? hd hread) fun read => ?_
  show (calculate ⟨names, read⟩ t.phrase []).map Prod.fst = _
  rw [Arithmetic.calculate_phrase hwords]
  rfl

/-- **A formula that holds a number with too many digits is refused.** -/
theorem parse_text_of_long (hlong : ∃ n ∈ t.literals, digitLimit < decimalLength n) :
    parse (String.ofList (cs ++ List.replicate k ' ')) names = .error .unreadable := by
  obtain ⟨n, hn, hlong⟩ := hlong
  have hread := hwrites.readable hwords
  exact parse_eq_unreadable hempty (hspells.scan hwrites hread k)
    (hwrites.explicit_eq hinteger hread)
    (ofTokens?_of_long ⟨.numeral n, hwrites.numeral_mem_iff.2 hn, Nat.not_le.2 hlong⟩)

end Text

end ErrorBars.Formula

namespace ErrorBars.Engine

open Formula Formula.Arithmetic

/-- A product with zero is not read if its other factor has more digits than can be read. -/
theorem parse_long_factor {k : ℕ} (hk : digitLimit ≤ k) (r : Registry) :
    Writes 0 .sum (mul (literal 0) (literal (10 ^ k))) [.numeral 0, .times, .numeral (10 ^ k)] ∧
      Spells [.numeral 0, .times, .numeral (10 ^ k)] ('0' :: '*' :: '1' :: List.replicate k '0') ∧
      parse (String.ofList ('0' :: '*' :: '1' :: List.replicate k '0')) [] r =
        (.error (.unreadable (String.ofList ('0' :: '*' :: '1' :: List.replicate k '0'))), r) := by
  have hdigits := toDigits_ten_pow k
  have hwrites : Writes 0 .sum (mul (literal 0) (literal (10 ^ k)))
      [.numeral 0, .times, .numeral (10 ^ k)] :=
    .ofProduct (.times (.ofSign (.ofPower (.ofAtom (.literal 0))))
      (.ofPower (.ofAtom (.literal (10 ^ k)))))
  have hspells : Spells [.numeral 0, .times, .numeral (10 ^ k)]
      ('0' :: '*' :: (Nat.toDigits 10 (10 ^ k) ++ [])) :=
    .cons (.numeral 0) 0 (.cons .times 0 (.cons (.numeral (10 ^ k)) 0 .nil))
  rw [hdigits, List.append_nil] at hspells
  have hlong : digitLimit < decimalLength (10 ^ k) := by
    rw [decimalLength, hdigits, List.length_cons, List.length_replicate]
    omega
  have hparse := parse_text_of_long (by decide : "" ∉ ([] : List String)) (by decide)
    (by simp [words]) hwrites hspells 0 ⟨10 ^ k, by simp [literals], hlong⟩
  rw [List.replicate_zero, List.append_nil] at hparse
  refine ⟨hwrites, hspells, ?_⟩
  rw [parse, hparse]
  rfl

end ErrorBars.Engine
