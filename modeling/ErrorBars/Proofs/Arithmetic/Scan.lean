import ErrorBars.Proofs.Arithmetic.Tokens

/-!
# Written formulas as texts

A row of lexemes is spelled with blanks wherever they are wanted.  Two factors side by side need one
between them, unless the second one begins with a parenthesis.  Scanning such a text gives the
lexemes back (`Spells.scan`).

Every piece is scanned alone (`numeralRun?_toDigits`, `operatorRun?_spelling`, `scanFrom_word`):
what stands behind it cannot be taken for a part of it, because lexemes side by side fit.
-/

set_option autoImplicit false

namespace ErrorBars.Formula

/-- The characters of a lexeme. -/
def Lexeme.spelling : Lexeme → List Char
  | numeral n => Nat.toDigits 10 n
  | word s => s.toList
  | power true => ['^']
  | juxtaposed => [' ']
  | l => l.sign

open Lexeme in
/-- The texts of a row of lexemes, with any number of blanks in front of each. -/
inductive Spells : List Lexeme → List Char → Prop where
  | nil : Spells [] []
  | cons {ls : List Lexeme} {cs : List Char} (l : Lexeme) (blanks : ℕ) (rest : Spells ls cs) :
      Spells (l :: ls) (List.replicate blanks ' ' ++ (l.spelling ++ cs))
  | touching {ls : List Lexeme} {cs : List Char} (rest : Spells (opening :: ls) cs) :
      Spells (juxtaposed :: opening :: ls) cs

/-! ## Numerals -/

variable {cs rest : List Char} {c : Char} {n : ℕ}

/-- What may stand right behind a number or a word. -/
def delimiters : List Char := [' ', '+', '-', '*', '/', '^', '(', ')']

/-- The text is empty or begins with a delimiter. -/
def Delimits (cs : List Char) : Prop := ∀ c ∈ cs.head?, c ∈ delimiters

theorem digitRun_append {isDigit : Char → Bool} {ds : List Char}
    (hds : ∀ c ∈ ds, isDigit c = true) (hunderscore : isDigit '_' = false)
    (hrest : ∀ c ∈ rest.head?, c ≠ '_' ∧ isDigit c = false) :
    digitRun isDigit (ds ++ rest) = (ds, rest) := by
  induction ds with
  | nil =>
    cases rest with
    | nil => rfl
    | cons c rest =>
      obtain ⟨hne, hc⟩ := hrest c rfl
      rw [List.nil_append, digitRun]
      · rw [if_neg (by rw [hc]; exact Bool.false_ne_true)]
      · rintro - - rfl
        exact absurd rfl hne
  | cons c ds ih =>
    obtain ⟨hc, hds⟩ := List.forall_mem_cons.1 hds
    rw [List.cons_append, digitRun, if_pos hc, ih hds]
    rintro - - rfl
    rw [hunderscore] at hc
    contradiction

/-- What a delimiter is not. -/
theorem of_mem_delimiters (h : c ∈ delimiters) :
    c.isDigit = false ∧ Text.isWordChar c = false ∧
      c ∉ ['_', '.', 'e', 'E', 'j', 'J', 'x', 'X', 'o', 'O', 'b', 'B'] := by
  have hall : ∀ c ∈ delimiters, (!c.isDigit && !Text.isWordChar c &&
      !(['_', '.', 'e', 'E', 'j', 'J', 'x', 'X', 'o', 'O', 'b', 'B'].contains c)) = true :=
    List.all_eq_true.1 (by decide)
  have hnot := hall c h
  rw [Bool.and_eq_true, Bool.and_eq_true, Bool.not_eq_true', Bool.not_eq_true',
    Bool.not_eq_true'] at hnot
  exact ⟨hnot.1.1, hnot.1.2, by simpa using hnot.2⟩

theorem decimalRun_digits {ds : List Char} (hds : ∀ c ∈ ds, c.isDigit = true) (hne : ds ≠ [])
    (hrest : Delimits rest) : decimalRun (ds ++ rest) = (ds, rest) := by
  have hrun : digitRun Char.isDigit (ds ++ rest) = (ds, rest) := by
    refine digitRun_append hds rfl fun c hc => ?_
    obtain ⟨hdigit, -, hnot⟩ := of_mem_delimiters (hrest c hc)
    refine ⟨?_, hdigit⟩
    rintro rfl
    exact hnot (by decide)
  cases ds with
  | nil => exact absurd rfl hne
  | cons c ds => rw [← hrun]; exact if_pos (hds c List.mem_cons_self)

theorem decimalRun_of_not_digit (hc : c.isDigit = false) : decimalRun (c :: cs) = ([], c :: cs) :=
  if_neg (by rw [hc]; exact Bool.false_ne_true)

/-- No exponent begins with a delimiter. -/
theorem exponentRun_of_delimits (h : Delimits rest) : exponentRun rest = ([], rest) := by
  cases rest with
  | nil => rfl
  | cons c rest =>
    have hc := (of_mem_delimiters (h c rfl)).2.2
    have hmark : ¬ (c = 'e' ∨ c = 'E') := by
      rintro (rfl | rfl) <;> exact hc (by decide)
    cases rest with
    | nil => rfl
    | cons d rest => exact if_neg hmark

theorem withUnit?_of_delimits (h : Delimits rest) (run : List Char) :
    withUnit? (run, rest) = none := by
  cases rest with
  | nil => rfl
  | cons c rest =>
    have hc := (of_mem_delimiters (h c rfl)).2.2
    refine if_neg ?_
    rintro (rfl | rfl) <;> exact hc (by decide)

theorem basePrefix?_of_delimiter (h : c ∈ delimiters) : basePrefix? c = none := by
  have hall : ∀ c ∈ delimiters, (basePrefix? c).isNone = true := List.all_eq_true.1 (by decide)
  exact Option.isNone_iff_eq_none.1 (hall c h)

/-- The digits of a whole number in front of a delimiter are a numeral. -/
theorem numeralRun?_toDigits (n : ℕ) (h : Delimits rest) :
    numeralRun? (Nat.toDigits 10 n ++ rest) = some (Nat.toDigits 10 n, rest) := by
  have hdecimal : decimalRun (Nat.toDigits 10 n ++ rest) = (Nat.toDigits 10 n, rest) :=
    decimalRun_digits (fun c => isDigit_of_mem_toDigits) Nat.toDigits_ne_nil h
  have happroximate : approximateRun? (Nat.toDigits 10 n ++ rest) = none := by
    rw [approximateRun?, hdecimal]
    split
    · rename_i heq
      exact absurd (congrArg Prod.fst heq) Nat.toDigits_ne_nil
    · rfl
    · rename_i heq
      rw [(Prod.mk.inj heq).2] at h
      exact absurd (h '.' rfl) (by decide)
    · rename_i heq
      rw [← (Prod.mk.inj heq).2, exponentRun_of_delimits h]
  have hinteger : integerRun? (Nat.toDigits 10 n ++ rest) = some (Nat.toDigits 10 n, rest) := by
    by_cases hn : n = 0
    · subst hn
      have hzeros : wholeRun? ('0' :: rest) = some (['0'], rest) := by
        have hdigits : ∀ c ∈ ['0'], (c == '0') = true := List.all_eq_true.1 rfl
        refine congrArg some (digitRun_append hdigits rfl fun c hc => ?_)
        obtain ⟨hdigit, -, hnot⟩ := of_mem_delimiters (h c hc)
        refine ⟨?_, beq_false_of_ne ?_⟩
        · rintro rfl
          exact hnot (by decide)
        · rintro rfl
          exact absurd hdigit (by decide)
      cases rest with
      | nil => rfl
      | cons c rest =>
        show integerRun? ('0' :: c :: rest) = _
        rw [integerRun?, basePrefix?_of_delimiter (h c rfl)]
        exact hzeros
    · obtain ⟨c, cs, heq, hc⟩ := head_toDigits hn
      have hwhole : wholeRun? (Nat.toDigits 10 n ++ rest) = some (Nat.toDigits 10 n, rest) := by
        rw [wholeRun?, hdecimal]
        · split
          · rename_i heq
            exact absurd (congrArg Prod.fst heq) Nat.toDigits_ne_nil
          · rfl
        · intro ds hds
          rw [heq] at hds
          exact hc (List.cons.inj hds).1
      rw [integerRun?, hwhole]
      intro d ds hds
      rw [heq] at hds
      exact hc (List.cons.inj hds).1
  rw [numeralRun?, hdecimal, happroximate, hinteger]
  dsimp only
  split
  · rename_i heq
    split at heq
    · cases heq
    · rw [withUnit?_of_delimits h] at heq
      cases heq
  · rfl

/-- No numeral begins with a character that is neither a digit nor a point. -/
theorem numeralRun?_of_not_digit (hc : c.isDigit = false) (hpoint : c ≠ '.') :
    numeralRun? (c :: cs) = none := by
  have hzero : c ≠ '0' := by
    rintro rfl
    exact absurd hc (by decide)
  have happroximate : approximateRun? (c :: cs) = none := by
    rw [approximateRun?, decimalRun_of_not_digit hc]
    split <;> simp_all
  have hinteger : integerRun? (c :: cs) = none := by
    rw [integerRun?]
    · rw [wholeRun?, decimalRun_of_not_digit hc]
      simp_all
    · simp_all
  rw [numeralRun?, decimalRun_of_not_digit hc, happroximate, hinteger]

/-! ## Pieces -/

theorem Quotation.scanBehind_absent (letters : List Char) (h : ∀ c ∈ cs, c ≠ '\'' ∧ c ≠ '"') :
    Quotation.scanBehind letters cs = .absent := by
  cases cs with
  | nil => rfl
  | cons a cs =>
    have ha := h a List.mem_cons_self
    rcases cs with _ | ⟨b, _ | ⟨c, cs⟩⟩ <;> exact if_pos ha

/-- Without a quote there is no quoted text. -/
theorem Quotation.scan_absent (h : ∀ c ∈ cs, c ≠ '\'' ∧ c ≠ '"') :
    Quotation.scan cs = .absent := by
  have hdrop (n : ℕ) : (if Quotation.markings.contains ((cs.take n).map Char.toLower) then
      Quotation.scanBehind (cs.take n) (cs.drop n) else .absent) = .absent := by
    rw [Quotation.scanBehind_absent _ fun c hc => h c (List.mem_of_mem_drop hc), ite_self]
  rw [Quotation.scan, List.map_cons, List.map_cons, List.map_cons, hdrop, hdrop, hdrop]
  rfl

/-- A character of a text without quotes, comments and line ends. -/
def isPlain (c : Char) : Bool := c.isAlphanum || c == '_' || delimiters.contains c

/-- Quotes, the sign of a comment, line ends and the blanks that are no spaces. -/
def marks : List Char := ['\'', '"', '#', '\n', '\r', '\t', '\x0c']

theorem not_mem_marks_of_isPlain (h : isPlain c = true) : c ∉ marks := by
  intro hmem
  have hall : ∀ c ∈ marks, (!isPlain c) = true := List.all_eq_true.1 (by decide)
  have hnot := hall c hmem
  rw [h] at hnot
  exact Bool.false_ne_true hnot

theorem dropWhile_blanks {p : Char → Bool} (hp : p ' ' = true)
    (hcs : ∀ c ∈ cs.head?, p c = false) (k : ℕ) :
    (List.replicate k ' ' ++ cs).dropWhile p = cs := by
  have hblanks : ∀ c ∈ List.replicate k ' ', p c = true := fun c hc =>
    List.eq_of_mem_replicate hc ▸ hp
  rw [List.dropWhile_append_of_pos hblanks]
  cases cs with
  | nil => rfl
  | cons c cs => exact List.dropWhile_cons_of_neg (by rw [hcs c rfl]; exact Bool.false_ne_true)

open Token

variable {fuel k : ℕ} {depth : ℤ} {s : String} {run after : List Char}

/-- No blank, comment, line end or quoted text begins a text without marks. -/
theorem unmarked_head (hunmarked : ∀ d ∈ c :: cs, d ∉ marks) (hc : c ≠ ' ') :
    isSpace c = false ∧ c ≠ '#' ∧ lineEnd? (c :: cs) = none ∧
      Quotation.scan (c :: cs) = .absent := by
  have hnot := hunmarked c List.mem_cons_self
  simp only [marks, List.mem_cons, not_or, List.not_mem_nil, not_false_eq_true, and_true] at hnot
  obtain ⟨-, -, hcomment, hnewline, hreturn, htab, hfeed⟩ := hnot
  refine ⟨?_, hcomment, ?_, Quotation.scan_absent fun d hd => ?_⟩
  · simp [isSpace, hc, htab, hfeed]
  · rw [lineEnd?]
    · rintro rest heq
      exact hnewline (List.cons.inj heq).1
    · rintro rest heq
      exact hreturn (List.cons.inj heq).1
  · have hquote := hunmarked d hd
    constructor <;> rintro rfl <;> exact hquote (by decide)

section Piece

variable (hunmarked : ∀ d ∈ c :: cs, d ∉ marks) (hc : c ≠ ' ')
include hunmarked hc

/-- A text that begins a line is scanned like one inside a line. -/
theorem scanFrom_start :
    scanFrom (fuel + 1) ⟨depth, true⟩ (c :: cs) = scanFrom fuel ⟨depth, false⟩ (c :: cs) := by
  obtain ⟨hspace, hcomment, hline, -⟩ := unmarked_head hunmarked hc
  have hneg : ¬ isSpace c = true := by rw [hspace]; exact Bool.false_ne_true
  rw [scanFrom, List.takeWhile_cons_of_neg hneg, List.dropWhile_cons_of_neg hneg]
  simp only [hline, if_true]
  split
  · contradiction
  · rename_i heq
    exact absurd (List.cons.inj heq).1 hcomment
  · rfl

theorem scanFrom_numeral (hrun : numeralRun? (c :: cs) = some (run, after)) :
    scanFrom (fuel + 1) ⟨depth, false⟩ (List.replicate k ' ' ++ c :: cs) =
      (scanFrom fuel ⟨depth, false⟩ after).map (Token.numeral run :: ·) := by
  obtain ⟨hspace, hcomment, hline, hquote⟩ := unmarked_head hunmarked hc
  rw [scanFrom, dropWhile_blanks rfl (by rintro d ⟨⟩; exact hspace)]
  simp only [hline, if_neg hcomment, hquote, hrun]
  rfl

theorem scanFrom_operator (hnumeral : numeralRun? (c :: cs) = none)
    (hrun : operatorRun? (c :: cs) = some (s, after)) :
    scanFrom (fuel + 1) ⟨depth, false⟩ (List.replicate k ' ' ++ c :: cs) =
      (scanFrom fuel ⟨depth + depthChange s, false⟩ after).map (Token.op s :: ·) := by
  obtain ⟨hspace, hcomment, hline, hquote⟩ := unmarked_head hunmarked hc
  rw [scanFrom, dropWhile_blanks rfl (by rintro d ⟨⟩; exact hspace)]
  simp only [hline, if_neg hcomment, hquote, hnumeral, hrun]
  rfl

theorem scanFrom_word (hnumeral : numeralRun? (c :: cs) = none)
    (hoperator : operatorRun? (c :: cs) = none) (hword : Text.isWordChar c = true)
    (hstart : Text.startsIdentifier c = true) :
    scanFrom (fuel + 1) ⟨depth, false⟩ (List.replicate k ' ' ++ c :: cs) =
      (scanFrom fuel ⟨depth, false⟩ ((c :: cs).dropWhile Text.isWordChar)).map
        (Token.name (String.ofList ((c :: cs).takeWhile Text.isWordChar)) :: ·) := by
  obtain ⟨hspace, hcomment, hline, hquote⟩ := unmarked_head hunmarked hc
  rw [scanFrom, dropWhile_blanks rfl (by rintro d ⟨⟩; exact hspace)]
  simp only [hline, if_neg hcomment, hquote, hnumeral, hoperator, if_pos hword, if_pos hstart]
  rfl

end Piece

/-- No operator begins with a character of words. -/
theorem operatorRun?_of_isWordChar (hc : Text.isWordChar c = true) :
    operatorRun? (c :: cs) = none := by
  have hall : ∀ p ∈ longOperators ++ pairOperators,
      (p.toList.head?.all fun c => !Text.isWordChar c) = true := by decide
  have hsingle : ∀ c ∈ singleOperators, (!Text.isWordChar c) = true :=
    List.all_eq_true.1 (by decide)
  have hnone (n : ℕ) :
      String.ofList ((c :: cs).take (n + 1)) ∉ longOperators ++ pairOperators := by
    intro h
    have hfirst := hall _ h
    rw [String.toList_ofList, List.take_succ_cons, List.head?_cons, Option.all_some, hc] at hfirst
    exact Bool.false_ne_true hfirst
  have hlong := fun h => hnone 2 (List.mem_append_left _ h)
  have hpair := fun h => hnone 1 (List.mem_append_right _ h)
  have hother : c ∉ singleOperators := by
    intro h
    have hfirst := hsingle c h
    rw [hc] at hfirst
    exact Bool.false_ne_true hfirst
  rw [operatorRun?]
  simp only [List.contains_iff_mem, if_neg hlong, if_neg hpair, if_neg hother]

/-- The characters of a word up to a delimiter. -/
theorem takeWhile_word {w : List Char} (hw : ∀ c ∈ w, Text.isWordChar c = true)
    (hrest : Delimits rest) :
    (w ++ rest).takeWhile Text.isWordChar = w ∧ (w ++ rest).dropWhile Text.isWordChar = rest := by
  rw [List.takeWhile_append_of_pos hw, List.dropWhile_append_of_pos hw]
  cases rest with
  | nil => exact ⟨List.append_nil w, rfl⟩
  | cons c rest =>
    have hc := (of_mem_delimiters (hrest c rfl)).2.1
    have hneg : ¬ Text.isWordChar c = true := by rw [hc]; exact Bool.false_ne_true
    rw [List.takeWhile_cons_of_neg hneg, List.dropWhile_cons_of_neg hneg]
    exact ⟨List.append_nil w, rfl⟩

/-! ## Lexemes -/

namespace Lexeme

variable {l : Lexeme} {names : List String}

theorem isPlain_of_mem_spelling (hread : l.Readable names) (hc : c ∈ l.spelling) :
    isPlain c = true := by
  cases l with
  | numeral n =>
    rw [isPlain, Char.isAlphanum, isDigit_of_mem_toDigits hc]
    simp
  | word s =>
    rw [isPlain, (hread.2.of_mem hc).2, Bool.true_or]
  | juxtaposed => rw [List.mem_singleton.1 hc]; decide
  | power caret =>
    have hall : (power caret).spelling.all isPlain = true := by cases caret <;> decide
    exact List.all_eq_true.1 hall c hc
  | _ => rw [List.mem_singleton.1 hc]; decide

theorem operatorRun?_spelling (hl : l.isOperator = true) (hne : l ≠ juxtaposed)
    (hcs : l = closing ∨ ∀ d ∈ cs.head?, d ∉ ['*', '/', '=', '>']) :
    operatorRun? (l.spelling ++ cs) = some (String.ofList l.spelling, cs) := by
  cases l with
  | juxtaposed => exact absurd rfl hne
  | power caret =>
    cases caret with
    | false => exact operatorRun?_sign hl hcs
    | true => exact operatorRun?_cons (by decide) (.inr (hcs.resolve_left nofun))
  | _ => first | exact operatorRun?_sign hl hcs | exact absurd hl Bool.false_ne_true

theorem scanned_of_isOperator (hl : l.isOperator = true) (hne : l ≠ juxtaposed) :
    l.scanned = [.op (String.ofList l.spelling)] := by
  cases l with
  | juxtaposed => exact absurd rfl hne
  | power caret => cases caret <;> rfl
  | _ => first | rfl | exact absurd hl Bool.false_ne_true

/-- How an operator changes the number of open parentheses. -/
theorem depthChange_spelling (hl : l.isOperator = true) (hne : l ≠ juxtaposed) :
    depthChange (String.ofList l.spelling) = [l].count opening - [l].count closing := by
  cases l with
  | juxtaposed => exact absurd rfl hne
  | power caret => cases caret <;> decide
  | _ => first | decide | exact absurd hl Bool.false_ne_true

/-- No operator can be taken for a numeral. -/
theorem numeralRun?_spelling (hl : l.isOperator = true) (cs : List Char) :
    numeralRun? (l.spelling ++ cs) = none := by
  cases l with
  | power caret => cases caret <;> exact numeralRun?_of_not_digit (by decide) (by decide)
  | _ =>
    first
    | exact numeralRun?_of_not_digit (by decide) (by decide)
    | exact absurd hl Bool.false_ne_true

theorem spelling_of_isOperator (hl : l.isOperator = true) (hne : l ≠ juxtaposed) :
    ∃ c ds, l.spelling = c :: ds ∧ c ≠ ' ' := by
  cases l with
  | juxtaposed => exact absurd rfl hne
  | power caret => cases caret <;> exact ⟨_, _, rfl, by decide⟩
  | _ => first | exact ⟨_, _, rfl, by decide⟩ | exact absurd hl Bool.false_ne_true

end Lexeme

namespace Spells

variable {ls : List Lexeme} {names : List String}

theorem isPlain (h : Spells ls cs) (hread : ∀ l ∈ ls, l.Readable names) :
    ∀ c ∈ cs, isPlain c = true := by
  induction h with
  | nil => exact nofun
  | cons l blanks rest ih =>
    obtain ⟨hl, hls⟩ := List.forall_mem_cons.1 hread
    intro c hc
    rcases List.mem_append.1 hc with hc | hc
    · rw [List.eq_of_mem_replicate hc]
      decide
    · rcases List.mem_append.1 hc with hc | hc
      · exact l.isPlain_of_mem_spelling hl hc
      · exact ih hls c hc
  | touching rest ih => exact ih (List.forall_mem_cons.1 hread).2

/-- What does not begin an operand delimits what stands in front of it. -/
theorem delimits (h : Spells ls cs) (hfirst : ∀ l ∈ ls.head?, l.startsPlain = false) :
    Delimits cs := by
  cases h with
  | nil => exact nofun
  | @cons ls cs l blanks rest =>
    cases blanks with
    | succ k => rintro c ⟨⟩; decide
    | zero =>
      have hl := hfirst l rfl
      cases l with
      | power caret => cases caret <;> (rintro c ⟨⟩; decide)
      | _ => first | (rintro c ⟨⟩; decide) | exact absurd hl.symm Bool.false_ne_true
  | touching rest =>
    cases rest with
    | cons l blanks rest =>
      cases blanks with
      | succ k => rintro c ⟨⟩; decide
      | zero => rintro c ⟨⟩; decide

/-- An operand makes no longer operator with what stands in front of it. -/
theorem clears (h : Spells ls cs) (hread : ∀ l ∈ ls, l.Readable names)
    (hfirst : ∀ l ∈ ls.head?, l.startsOperand = true) :
    ∀ d ∈ cs.head?, d ∉ ['*', '/', '=', '>'] := by
  have hall : ∀ d ∈ ['*', '/', '=', '>'], (!d.isAlphanum) = true :=
    List.all_eq_true.1 (by decide)
  have halphanum {d : Char} (hd : d.isAlphanum = true) : d ∉ ['*', '/', '=', '>'] := by
    intro hmem
    have hnot := hall d hmem
    rw [hd] at hnot
    exact Bool.false_ne_true hnot
  cases h with
  | nil => exact nofun
  | touching rest => exact absurd (hfirst _ rfl) Bool.false_ne_true
  | @cons ls cs l blanks rest =>
    cases blanks with
    | succ k => rintro c ⟨⟩; decide
    | zero =>
      have hl := hfirst l rfl
      cases l with
      | numeral n =>
        cases hds : Nat.toDigits 10 n with
        | nil => exact absurd hds Nat.toDigits_ne_nil
        | cons c ds =>
          have hc : c.isDigit = true := isDigit_of_mem_toDigits (hds ▸ List.mem_cons_self)
          show ∀ d ∈ (Nat.toDigits 10 n ++ cs).head?, _
          rw [hds]
          rintro d ⟨⟩
          exact halphanum (by rw [Char.isAlphanum, hc, Bool.or_true])
      | word s =>
        obtain ⟨c, ds, hs, hc⟩ := (hread _ List.mem_cons_self).2.cons
        show ∀ d ∈ (s.toList ++ cs).head?, _
        rw [hs]
        rintro d ⟨⟩
        exact halphanum (isAlphanum_of_isAlpha hc)
      | _ => first | (rintro c ⟨⟩; decide) | exact absurd hl Bool.false_ne_true

/-- What stands behind an operator in a spelled row makes no longer one with it. -/
theorem clears_behind {l : Lexeme} (h : Spells ls cs) (hchain : (l :: ls).IsChain Lexeme.Fits)
    (hread : ∀ l ∈ ls, l.Readable names) (hl : l.isOperator = true) (hne : l ≠ .juxtaposed) :
    l = .closing ∨ ∀ d ∈ cs.head?, d ∉ ['*', '/', '=', '>'] := by
  by_cases hends : l.endsOperand = true
  · left
    cases l <;>
      first
      | rfl
      | exact absurd hl Bool.false_ne_true
      | exact absurd hends Bool.false_ne_true
  · right
    refine h.clears hread fun m hm => ?_
    cases ls with
    | nil => cases hm
    | cons m' ls =>
      obtain rfl := Option.some.inj hm
      have hfits := (List.isChain_cons_cons.1 hchain).1
      rwa [Lexeme.Fits, if_neg hends, if_neg hne] at hfits

/-- What stands behind a number or a word in a spelled row delimits it. -/
theorem delimits_behind {l : Lexeme} (h : Spells ls cs) (hchain : (l :: ls).IsChain Lexeme.Fits)
    (hl : l.endsOperand = true) : Delimits cs := by
  refine h.delimits fun m hm => ?_
  cases ls with
  | nil => cases hm
  | cons m' ls =>
    obtain rfl := Option.some.inj hm
    have hfits := (List.isChain_cons_cons.1 hchain).1
    rwa [Lexeme.Fits, if_pos hl] at hfits

/-- The characters of a spelled lexeme, and what stands behind them, are plain. -/
theorem isPlain_behind {l : Lexeme} (h : Spells ls cs) (hread : ∀ m ∈ l :: ls, m.Readable names) :
    ∀ c ∈ l.spelling ++ cs, Formula.isPlain c = true := by
  have hplain := (Spells.cons l 0 h).isPlain hread
  rwa [List.replicate_zero, List.nil_append] at hplain

theorem scanFrom_toDigits {n : ℕ} (h : Spells ls cs)
    (hchain : (.numeral n :: ls).IsChain Lexeme.Fits)
    (hread : ∀ l ∈ .numeral n :: ls, l.Readable names) (k : ℕ) :
    Token.scanFrom (fuel + 1) ⟨depth, false⟩
        (List.replicate k ' ' ++ (Nat.toDigits 10 n ++ cs)) =
      (Token.scanFrom fuel ⟨depth, false⟩ cs).map (.numeral (Nat.toDigits 10 n) :: ·) := by
  have hplain := h.isPlain_behind hread
  have hrun := numeralRun?_toDigits n (h.delimits_behind hchain rfl)
  rw [Lexeme.spelling] at hplain
  cases hds : Nat.toDigits 10 n with
  | nil => exact absurd hds Nat.toDigits_ne_nil
  | cons c ds =>
    have hdigit : c.isDigit = true := isDigit_of_mem_toDigits (hds ▸ List.mem_cons_self)
    have hc : c ≠ ' ' := by
      rintro rfl
      exact absurd hdigit (by decide)
    rw [hds] at hplain hrun
    exact scanFrom_numeral (fun d hd => not_mem_marks_of_isPlain (hplain d hd)) hc hrun

theorem scanFrom_name {s : String} (h : Spells ls cs)
    (hchain : (.word s :: ls).IsChain Lexeme.Fits)
    (hread : ∀ l ∈ .word s :: ls, l.Readable names) (k : ℕ) :
    Token.scanFrom (fuel + 1) ⟨depth, false⟩ (List.replicate k ' ' ++ (s.toList ++ cs)) =
      (Token.scanFrom fuel ⟨depth, false⟩ cs).map (.name s :: ·) := by
  have hplain := h.isPlain_behind hread
  have hvariable : IsVariable s := (hread _ List.mem_cons_self).2
  obtain ⟨htake, hdrop⟩ := takeWhile_word (fun c => hvariable.isWordChar)
    (h.delimits_behind hchain rfl)
  obtain ⟨c, ds, hs, halpha⟩ := hvariable.cons
  have hword : Text.isWordChar c = true := hvariable.isWordChar (hs ▸ List.mem_cons_self)
  have hstart : Text.startsIdentifier c = true := by
    rw [Text.startsIdentifier, if_pos (toNat_lt_of_isAlphanum (isAlphanum_of_isAlpha halpha)),
      halpha, Bool.true_or]
  have hdigit := isDigit_of_isAlpha halpha
  have hne {d : Char} (hd : d.isAlpha = false) : c ≠ d := by
    rintro rfl
    rw [hd] at halpha
    contradiction
  rw [Lexeme.spelling] at hplain
  rw [hs, List.cons_append] at hplain htake hdrop ⊢
  rw [scanFrom_word (fun d hd => not_mem_marks_of_isPlain (hplain d hd)) (hne (by decide))
    (numeralRun?_of_not_digit hdigit (hne (by decide)))
    (operatorRun?_of_isWordChar hword) hword hstart, htake, hdrop, ← hs, String.ofList_toList]

theorem scanFrom_sign {l : Lexeme} (h : Spells ls cs) (hchain : (l :: ls).IsChain Lexeme.Fits)
    (hread : ∀ m ∈ l :: ls, m.Readable names) (hop : l.isOperator = true) (hne : l ≠ .juxtaposed)
    (k : ℕ) :
    Token.scanFrom (fuel + 1) ⟨depth, false⟩ (List.replicate k ' ' ++ (l.spelling ++ cs)) =
      (Token.scanFrom fuel ⟨depth + depthChange (String.ofList l.spelling), false⟩ cs).map
        (.op (String.ofList l.spelling) :: ·) := by
  have hplain := h.isPlain_behind hread
  have hrun := l.operatorRun?_spelling hop hne
    (h.clears_behind hchain (List.forall_mem_cons.1 hread).2 hop hne)
  have hnumeral := l.numeralRun?_spelling hop cs
  obtain ⟨c, ds, hs, hc⟩ := l.spelling_of_isOperator hop hne
  rw [hs] at hplain hrun hnumeral ⊢
  exact scanFrom_operator (fun d hd => not_mem_marks_of_isPlain (hplain d hd)) hc hnumeral hrun

/-- **One lexeme of a spelled row** is one token. -/
theorem scanFrom_lexeme {l : Lexeme} (h : Spells ls cs) (hchain : (l :: ls).IsChain Lexeme.Fits)
    (hread : ∀ m ∈ l :: ls, m.Readable names) (hne : l ≠ .juxtaposed) (k : ℕ) :
    Token.scanFrom (fuel + 1) ⟨depth, false⟩ (List.replicate k ' ' ++ (l.spelling ++ cs)) =
      (Token.scanFrom fuel ⟨depth + ([l].count .opening - [l].count .closing), false⟩ cs).map
        (l.scanned ++ ·) := by
  by_cases hop : l.isOperator = true
  · rw [h.scanFrom_sign hchain hread hop hne, l.scanned_of_isOperator hop hne,
      l.depthChange_spelling hop hne]
    rfl
  · have hdepth : depth + ([l].count .opening - [l].count .closing) = depth := by
      cases l <;> first | exact absurd rfl hop | simp
    rw [hdepth]
    cases l with
    | numeral n => exact h.scanFrom_toDigits hchain hread k
    | word s => exact h.scanFrom_name hchain hread k
    | _ => exact absurd rfl hop

theorem length_spelling_pos {l : Lexeme} (hread : l.Readable names) : 0 < l.spelling.length := by
  cases l with
  | numeral n => exact Nat.length_toDigits_pos
  | word s =>
    obtain ⟨c, ds, hs, -⟩ := hread.2.cons
    rw [Lexeme.spelling, hs]
    exact Nat.succ_pos _
  | power caret => cases caret <;> exact Nat.succ_pos _
  | _ => exact Nat.succ_pos _

/-- **A spelled row is scanned as it stands.** -/
theorem scanFrom (h : Spells ls cs) (hchain : ls.IsChain Lexeme.Fits)
    (hread : ∀ l ∈ ls, l.Readable names)
    (hdepth : depth + ls.count .opening = ls.count .closing) (k : ℕ) (hfuel : cs.length < fuel) :
    Token.scanFrom fuel ⟨depth, false⟩ (List.replicate k ' ' ++ cs) =
      some (ls.flatMap Lexeme.scanned ++ [.newline]) := by
  induction h generalizing fuel depth k with
  | nil =>
    obtain ⟨fuel, rfl⟩ : ∃ f, fuel = f + 1 := ⟨fuel - 1, by omega⟩
    obtain rfl : depth = 0 := by simpa using hdepth
    rw [Token.scanFrom, dropWhile_blanks rfl (by simp)]
    rfl
  | touching rest ih =>
    rw [List.count_cons_of_ne (show Lexeme.juxtaposed ≠ .opening by decide),
      List.count_cons_of_ne (show Lexeme.juxtaposed ≠ .closing by decide)] at hdepth
    exact ih hchain.of_cons (List.forall_mem_cons.1 hread).2 hdepth k hfuel
  | @cons ls cs l blanks rest ih =>
    have hls := (List.forall_mem_cons.1 hread).2
    have hcount (x : Lexeme) : (l :: ls).count x = [l].count x + ls.count x := by
      rw [← List.count_append, List.singleton_append]
    rw [hcount, hcount] at hdepth
    rw [List.length_append, List.length_append] at hfuel
    rw [← List.append_assoc, List.replicate_append_replicate]
    by_cases hne : l = .juxtaposed
    · subst hne
      have htext : List.replicate (k + blanks) ' ' ++ (Lexeme.juxtaposed.spelling ++ cs) =
          List.replicate (k + blanks + 1) ' ' ++ cs := by
        rw [List.replicate_succ', List.append_assoc]
        rfl
      rw [htext]
      exact ih hchain.of_cons hls (by simpa using hdepth) _ (by omega)
    · have hpos := length_spelling_pos (hread l List.mem_cons_self)
      obtain ⟨fuel, rfl⟩ : ∃ f, fuel = f + 1 := ⟨fuel - 1, by omega⟩
      have ih := @ih fuel (depth + ([l].count .opening - [l].count .closing)) hchain.of_cons hls
        (by omega) 0 (by omega)
      rw [List.replicate_zero, List.nil_append] at ih
      rw [rest.scanFrom_lexeme hchain hread hne, ih, List.flatMap_cons, List.append_assoc]
      rfl

end Spells

/-! ## Whole texts -/

theorem toNat_lt_of_isPlain (h : isPlain c = true) : c.toNat < 128 := by
  have hall : ∀ c ∈ '_' :: delimiters, decide (c.toNat < 128) = true :=
    List.all_eq_true.1 (by decide)
  rw [isPlain, Bool.or_assoc, Bool.or_eq_true] at h
  rcases h with h | h
  · exact toNat_lt_of_isAlphanum h
  · exact of_decide_eq_true (hall c (by simpa using h))

theorem isBlank_of_isPlain (h : isPlain c = true) (hc : c ≠ ' ') : Text.isBlank c = false := by
  have hall : ∀ n < 128, isPlain (Char.ofNat n) = true → Char.ofNat n ≠ ' ' →
      Text.isBlank (Char.ofNat n) = false := by decide +kernel
  have hofNat := hall c.toNat (toNat_lt_of_isPlain h)
  rw [Char.ofNat_toNat] at hofNat
  exact hofNat h hc

theorem isBlank_space : Text.isBlank ' ' = true := by decide +kernel

theorem strip_blanks (hfirst : ∀ c ∈ cs.head?, Text.isBlank c = false)
    (hlast : ∀ c ∈ cs.getLast?, Text.isBlank c = false) (hne : cs ≠ []) (j k : ℕ) :
    Text.strip (List.replicate j ' ' ++ (cs ++ List.replicate k ' ')) = cs := by
  have hfront : ∀ c ∈ (cs ++ List.replicate k ' ').head?, Text.isBlank c = false := by
    rwa [List.head?_append_of_ne_nil _ hne]
  have hback : ∀ c ∈ cs.reverse.head?, Text.isBlank c = false := by
    rwa [List.head?_reverse]
  rw [Text.strip, dropWhile_blanks isBlank_space hfront, List.reverse_append,
    List.reverse_replicate, dropWhile_blanks isBlank_space hback, List.reverse_reverse]

namespace Lexeme

variable {l : Lexeme} {names : List String}

theorem space_not_mem_spelling (hread : l.Readable names) (hne : l ≠ juxtaposed) :
    ' ' ∉ l.spelling := by
  cases l with
  | juxtaposed => exact absurd rfl hne
  | numeral n => exact not_mem_toDigits (by decide) n
  | word s => exact fun h => absurd (hread.2.of_mem h).2 (by decide)
  | power caret => cases caret <;> decide
  | _ => decide

end Lexeme

namespace Writes

variable {d : ℕ} {r : Rank} {t : Arithmetic} {ls : List Lexeme}

/-- Every parenthesis that is opened is closed. -/
theorem count_opening (h : Writes d r t ls) : ls.count .opening = ls.count .closing := by
  induction h with
  | literal n | word s => rfl
  | parentheses inner ih =>
    rw [List.count_append, List.count_append, List.count_cons_self, ih,
      List.count_cons_of_ne (show Lexeme.opening ≠ .closing by decide)]
    rfl
  | ofAtom _ ih | ofPower _ ih | ofSign _ ih | ofProduct _ ih => exact ih
  | sign operand ih => simpa using ih
  | power _ _ _ _ _ ihl ihr | times _ _ ihl ihr | divided _ _ ihl ihr | plus _ _ ihl ihr
    | minus _ _ ihl ihr | juxtaposed _ _ _ ihl ihr =>
    simp [List.count_cons] at ihl ihr ⊢
    omega

theorem juxtaposed_ne_getLast (h : Writes d r t ls) : .juxtaposed ∉ ls.getLast? := by
  obtain ⟨us, u, rfl, hu⟩ := h.getLast
  rw [List.getLast?_concat]
  rintro ⟨⟩
  contradiction

end Writes

namespace Spells

variable {ls : List Lexeme} {names : List String} {l : Lexeme}

theorem ne_nil (h : Spells (l :: ls) cs) (hread : ∀ m ∈ l :: ls, m.Readable names) : cs ≠ [] := by
  have hcons {l : Lexeme} {cs : List Char} {blanks : ℕ} (hl : l.Readable names) :
      List.replicate blanks ' ' ++ (l.spelling ++ cs) ≠ [] := by
    have hpos := length_spelling_pos hl
    intro heq
    have hlength := congrArg List.length heq
    simp only [List.length_append, List.length_nil] at hlength
    omega
  cases h with
  | cons l blanks rest => exact hcons (hread l List.mem_cons_self)
  | touching rest =>
    cases rest with
    | cons l blanks rest => exact hcons trivial

/-- No blank ends the text of an operand. -/
theorem getLast_ne (h : Spells ls cs) (hread : ∀ m ∈ ls, m.Readable names)
    (hlast : .juxtaposed ∉ ls.getLast?) : ' ' ∉ cs.getLast? := by
  induction h with
  | nil => exact nofun
  | touching rest ih => exact ih (List.forall_mem_cons.1 hread).2 (by simpa using hlast)
  | @cons ls cs l blanks rest ih =>
    obtain ⟨hl, hls⟩ := List.forall_mem_cons.1 hread
    cases ls with
    | nil =>
      cases rest
      have hpos := length_spelling_pos hl
      have hne : l.spelling ≠ [] := List.ne_nil_of_length_pos hpos
      rw [List.append_nil, List.getLast?_append_of_ne_nil _ hne]
      have hspace := l.space_not_mem_spelling hl fun heq => hlast (heq ▸ rfl)
      exact fun h => hspace (List.mem_of_getLast? h)
    | cons m ls =>
      have hne := rest.ne_nil hls
      rw [List.getLast?_append_of_ne_nil _ (by simp [hne]), List.getLast?_append_of_ne_nil _ hne]
      exact ih hls (by simpa using hlast)

/-- **The text of a formula is scanned as it stands**, whatever blanks surround it. -/
theorem scan {d : ℕ} {r : Rank} {t : Arithmetic} (h : Spells ls cs) (hwrites : Writes d r t ls)
    (hread : ∀ m ∈ ls, m.Readable names) (k : ℕ) :
    Token.scan (String.ofList (cs ++ List.replicate k ' ')) =
      some (ls.flatMap Lexeme.scanned ++ [.newline]) := by
  have hcount := hwrites.count_opening
  obtain ⟨l, rs, rfl, hl⟩ := hwrites.head
  cases h with
  | touching rest => exact absurd hl Bool.false_ne_true
  | @cons _ cs _ blanks rest =>
    have hne : l ≠ .juxtaposed := by
      rintro rfl
      contradiction
    have hinner : Spells (l :: rs) (l.spelling ++ cs) := by
      have h := Spells.cons l 0 rest
      rwa [List.replicate_zero, List.nil_append] at h
    have hspace := l.space_not_mem_spelling (hread l List.mem_cons_self) hne
    have hlast := hinner.getLast_ne hread hwrites.juxtaposed_ne_getLast
    have hplain := hinner.isPlain hread
    have hnil := hinner.ne_nil hread
    cases htext : l.spelling ++ cs with
    | nil => exact absurd htext hnil
    | cons c ds =>
      rw [htext] at hinner hplain hlast
      have hc : c ≠ ' ' := by
        rintro rfl
        have hpos := length_spelling_pos (hread l List.mem_cons_self)
        cases hs : l.spelling with
        | nil => rw [hs] at hpos; exact Nat.lt_irrefl 0 hpos
        | cons e es =>
          rw [hs] at htext hspace
          exact hspace ((List.cons.inj htext).1 ▸ List.mem_cons_self)
      have hfront : ∀ e ∈ (c :: ds).head?, Text.isBlank e = false := by
        rintro e ⟨⟩
        exact isBlank_of_isPlain (hplain c List.mem_cons_self) hc
      have hback : ∀ e ∈ (c :: ds).getLast?, Text.isBlank e = false := by
        intro e he
        refine isBlank_of_isPlain (hplain e (List.mem_of_getLast? he)) ?_
        rintro rfl
        exact hlast he
      have hfuel : (c :: ds).length < 2 * (c :: ds).length + 1 := by omega
      rw [Token.scan, String.toList_ofList, List.append_assoc,
        strip_blanks hfront hback (List.cons_ne_nil c ds),
        scanFrom_start (fun d hd => not_mem_marks_of_isPlain (hplain d hd)) hc]
      exact hinner.scanFrom hwrites.isChain hread (by omega) 0 hfuel

end Spells

end ErrorBars.Formula
