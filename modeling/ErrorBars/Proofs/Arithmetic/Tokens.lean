import ErrorBars.Proofs.Arithmetic.Phrase

/-!
# From tokens to a phrase

The tokens of a written formula are changed before the grammar sees them, and operators side by side
are read anew.  Here each of these steps is followed on the rows that stand for a tree.

* A whole number of no more digits than can be read becomes itself (`readWhole?_toDigits`).
* The variables stay words, and nothing looks like a repeating decimal or a factorial
  (`explicitPowers_scanned`).
* A multiplication sign is put exactly where a product is written without one
  (`joinFactors_joined`).
* Operators that stand side by side are taken apart again as they were (`regroup_token`).

Together, the tokens of a row give the phrase of the tree (`Writes.explicit_eq`,
`Writes.ofTokens?`), unless they hold a number with too many digits (`ofTokens?_of_long`).
-/

set_option autoImplicit false

namespace ErrorBars.Formula

/-! ## Whole numbers in decimal -/

/-- No number but zero begins with a zero. -/
theorem head_toDigits {n : ℕ} (h : n ≠ 0) :
    ∃ c cs, Nat.toDigits 10 n = c :: cs ∧ c ≠ '0' := by
  induction n using Nat.strongRecOn with
  | ind n ih =>
    by_cases hn : n < 10
    · have hdigit : ∀ k < 10, k ≠ 0 → k.digitChar ≠ '0' := by decide
      exact ⟨_, _, Nat.toDigits_of_lt_base hn, hdigit n hn h⟩
    · obtain ⟨c, cs, heq, hc⟩ := ih (n / 10) (by omega) (by omega)
      refine ⟨c, cs ++ [(n % 10).digitChar], ?_, hc⟩
      rw [Nat.toDigits_of_base_le (by decide) (by omega), heq, List.cons_append]

theorem isDigit_of_mem_toDigits {n : ℕ} {c : Char} (h : c ∈ Nat.toDigits 10 n) :
    c.isDigit = true :=
  Nat.isDigit_of_mem_toDigits (by decide) le_rfl h

theorem ofDigits_eq_ofDigitChars {cs : List Char} (h : ∀ c ∈ cs, c.isDigit = true) :
    ofDigits 10 cs = Nat.ofDigitChars 10 cs 0 := by
  rw [ofDigits, Nat.ofDigitChars_eq_foldl]
  refine List.foldl_ext _ _ 0 fun n c hc => ?_
  rw [digitValue, if_pos (h c hc), Nat.mul_comm]
  rfl

theorem filter_toDigits (n : ℕ) :
    (Nat.toDigits 10 n).filter (· ≠ '_') = Nat.toDigits 10 n := by
  rw [List.filter_eq_self]
  rintro c hc
  have hne : c ≠ '_' := by
    rintro rfl
    exact Nat.underscore_not_in_toDigits hc
  simpa using hne

/-- The digits of a whole number stand for it, unless they are too many. -/
theorem readWhole?_toDigits (n : ℕ) :
    readWhole? (Nat.toDigits 10 n) = if decimalLength n ≤ digitLimit then some n else none := by
  by_cases hn : n = 0
  · subst hn
    exact (if_pos (by decide)).symm
  · obtain ⟨c, cs, heq, hc⟩ := head_toDigits hn
    have hvalue : ofDigits 10 (c :: cs) = n := by
      rw [← heq, ofDigits_eq_ofDigitChars fun c => isDigit_of_mem_toDigits,
        Nat.ofDigitChars_ten_toDigits]
    rw [decimalLength, readWhole?, filter_toDigits, heq]
    split
    · contradiction
    · simp_all
    · rw [hvalue]

/-- A character that is not a digit is not among those of a whole number. -/
theorem not_mem_toDigits {c : Char} (h : c.isDigit = false) (n : ℕ) : c ∉ Nat.toDigits 10 n := by
  intro hc
  rw [isDigit_of_mem_toDigits hc] at h
  contradiction

theorem toDigits_ten_pow (k : ℕ) : Nat.toDigits 10 (10 ^ k) = '1' :: List.replicate k '0' := by
  induction k with
  | zero => rfl
  | succ k ih =>
    have happend := Nat.toDigits_append_toDigits (b := 10) (n := 10 ^ k) (d := 0) (by decide)
      (Nat.pow_pos (by decide)) (by decide)
    rw [ih, Nat.add_zero, ← Nat.pow_succ'] at happend
    rw [← happend, List.replicate_succ']
    rfl

/-! ## Words -/

/-- A name that can be written in a formula: letters, digits and underscores, the first of them a
letter.  It is no word of the grammar. -/
def IsVariable (s : String) : Prop :=
  s.toList.head?.any Char.isAlpha = true ∧
    (s.toList.all fun c => c.isAlphanum || c == '_') = true ∧ s ∉ reservedWords

instance (s : String) : Decidable (IsVariable s) :=
  inferInstanceAs (Decidable (_ ∧ _ ∧ _))

/-- The letters lie between these code points. -/
theorem toNat_of_isAlpha {c : Char} (h : c.isAlpha = true) : 65 ≤ c.toNat ∧ c.toNat ≤ 122 := by
  have hcases : (c.isUpper || c.isLower) = true := h
  rcases Bool.or_eq_true_iff.1 hcases with hupper | hlower
  · obtain ⟨hfirst, hlast⟩ := of_decide_eq_true hupper
    have hle : c.toNat ≤ 90 := UInt32.le_iff_toNat_le.1 hlast
    exact ⟨UInt32.le_iff_toNat_le.1 hfirst, by omega⟩
  · obtain ⟨hfirst, hlast⟩ := Bool.and_eq_true_iff.1 hlower
    have hle : 97 ≤ c.toNat := UInt32.le_iff_toNat_le.1 (of_decide_eq_true hfirst)
    exact ⟨by omega, UInt32.le_iff_toNat_le.1 (of_decide_eq_true hlast)⟩

theorem toNat_lt_of_isAlphanum {c : Char} (h : c.isAlphanum = true) : c.toNat < 128 := by
  have hcases : (c.isAlpha || c.isDigit) = true := h
  rcases Bool.or_eq_true_iff.1 hcases with halpha | hdigit
  · have hle := (toNat_of_isAlpha halpha).2
    omega
  · have hle : c.toNat ≤ 57 := (Char.isDigit_iff_toNat.1 hdigit).2
    omega

theorem isAlphanum_of_isAlpha {c : Char} (h : c.isAlpha = true) : c.isAlphanum = true := by
  rw [Char.isAlphanum, h, Bool.true_or]

theorem isDigit_of_isAlpha {c : Char} (h : c.isAlpha = true) : c.isDigit = false := by
  have hle := (toNat_of_isAlpha h).1
  refine Bool.eq_false_iff.2 fun hdigit => ?_
  have hge : c.toNat ≤ 57 := (Char.isDigit_iff_toNat.1 hdigit).2
  omega

namespace IsVariable

variable {s : String}

theorem cons (h : IsVariable s) : ∃ c cs, s.toList = c :: cs ∧ c.isAlpha = true := by
  obtain ⟨hfirst, -, -⟩ := h
  cases hs : s.toList with
  | nil => simp [hs] at hfirst
  | cons c cs =>
    rw [hs] at hfirst
    exact ⟨c, cs, rfl, by simpa using hfirst⟩

/-- All characters of a name are ASCII characters of words. -/
theorem of_mem (h : IsVariable s) {c : Char} (hc : c ∈ s.toList) :
    c.toNat < 128 ∧ (c.isAlphanum || c == '_') = true := by
  have hword := List.all_eq_true.1 h.2.1 c hc
  refine ⟨?_, hword⟩
  rcases Bool.or_eq_true _ _ ▸ hword with hc | hc
  · exact toNat_lt_of_isAlphanum hc
  · rw [beq_iff_eq.1 hc]
    decide

theorem isWordChar (h : IsVariable s) {c : Char} (hc : c ∈ s.toList) :
    Text.isWordChar c = true := by
  obtain ⟨hascii, hword⟩ := h.of_mem hc
  rw [Text.isWordChar, if_pos hascii]
  exact hword

theorem isIdentifier (h : IsVariable s) : Text.isIdentifier s.toList = true := by
  obtain ⟨c, cs, hs, hc⟩ := h.cons
  have hascii := toNat_lt_of_isAlphanum (isAlphanum_of_isAlpha hc)
  rw [hs, Text.isIdentifier, Text.startsIdentifier, if_pos hascii, hc, Bool.true_or, Bool.true_and,
    List.all_eq_true]
  intro e he
  obtain ⟨hascii, hword⟩ := h.of_mem (hs ▸ List.mem_cons_of_mem c he)
  rw [Text.continuesIdentifier, if_pos hascii]
  exact hword

theorem isOperandWord (h : IsVariable s) : isOperandWord s = true := by
  have hfree : reservedWords.contains s = false := by simpa using h.2.2
  rw [Formula.isOperandWord, hfree]
  simp

theorem compatibilityForm (h : IsVariable s) : Text.compatibilityForm s = s := by
  refine if_pos (List.all_eq_true.2 fun c hc => ?_)
  simpa using (h.of_mem hc).1

end IsVariable

/-! ## Steps that change nothing -/

variable {names : List String} {ts us : List Token}

theorem readWords_of_mem (h : ∀ s, .name s ∈ ts → s ∈ names) (before : Token) :
    readWords names before ts = ts := by
  induction ts generalizing before with
  | nil => rfl
  | cons t ts ih =>
    have ih := ih fun s hs => h s (List.mem_cons_of_mem t hs)
    cases t with
    | name s =>
      have hs : names.contains s = true := List.contains_iff_mem.2 (h s List.mem_cons_self)
      have hkeeps : keepsWord names before s (ts.headD .newline) = true := by
        rw [keepsWord, hs]
        simp
      rw [readWords, ih]
      exact congrArg (· ++ ts) (if_pos hkeeps)
    | _ => exact congrArg _ (ih _)

theorem readRepeating_of_start (h : ∀ t ∈ ts, Repeating.start.next t = .start) :
    readRepeating names .start [] ts = ts := by
  induction ts with
  | nil => rfl
  | cons t ts ih =>
    obtain ⟨ht, hts⟩ := List.forall_mem_cons.1 h
    rw [readRepeating, ht]
    · exact congrArg _ (ih hts)
    all_goals simp

theorem readFactorials_of_no_mark (h : .stray '!' ∉ ts) (before : List Token) :
    readFactorials 0 before ts = some (before.reverse ++ ts) := by
  induction ts generalizing before with
  | nil => rw [readFactorials, List.append_nil]
  | cons t ts ih =>
    have ih := ih (fun hc => h (List.mem_cons_of_mem t hc)) (t :: before)
    rw [List.reverse_cons, List.append_assoc, List.singleton_append] at ih
    cases t with
    | stray c =>
      have hc : c ≠ '!' := by
        rintro rfl
        exact h List.mem_cons_self
      exact (if_neg hc).trans ih
    | _ => exact ih

theorem returnsToLines_of_no_return (h : .stray '\r' ∉ ts) (depth : ℕ) :
    returnsToLines depth ts = ts := by
  induction ts generalizing depth with
  | nil => rfl
  | cons t ts ih =>
    have ih := ih fun hc => h (List.mem_cons_of_mem t hc)
    cases t with
    | stray c =>
      have hc : c ≠ '\r' := by
        rintro rfl
        exact h List.mem_cons_self
      rw [returnsToLines, ih]
      exact congrArg (· :: ts) (if_neg hc)
    | _ => exact congrArg _ (ih _)

theorem mem_readPowers {t : Token} (ht : t ∈ ts) (hne : t ≠ .op "^") : t ∈ readPowers ts := by
  refine List.mem_map.2 ⟨t, ht, ?_⟩
  cases t with
  | op s =>
    have hs : s ≠ "^" := by
      rintro rfl
      exact hne rfl
    split
    · simp_all
    · rfl
  | _ => rfl

/-- The changes before multiplication signs are put in, where only numerals and power signs have to
be changed. -/
theorem explicitPowers_eq (hwords : ∀ s, .name s ∈ ts → s ∈ names)
    (hstart : ∀ t ∈ ts, Repeating.start.next t = .start)
    (hmark : .stray '!' ∉ readPowers (readNumerals names ts))
    (hlambda : .name "lambda" ∉ readPowers (readNumerals names ts)) :
    explicitPowers names ts = .ok (readPowers (readNumerals names ts)) := by
  have hmark' : .stray '!' ∉ readNumerals names ts :=
    fun hm => hmark (mem_readPowers hm (by simp))
  have hlambda' : .name "lambda" ∉ readNumerals names ts :=
    fun hl => hlambda (mem_readPowers hl (by simp))
  rw [explicitPowers, readWords_of_mem hwords, readRepeating_of_start hstart,
    readFactorials_of_no_mark hmark', List.reverse_nil, List.nil_append]
  split
  · rename_i heq
    exact absurd (heq ▸ List.mem_cons_self) hlambda'
  · contradiction
  · rename_i heq _
    rw [← Option.some.inj heq]

/-! ## Rows of lexemes as tokens -/

namespace Lexeme

/-- The tokens that a lexeme is scanned as.  A product without a sign is none. -/
def scanned : Lexeme → List Token
  | numeral n => [.numeral (Nat.toDigits 10 n)]
  | power true => [.op "^"]
  | juxtaposed => []
  | l => [l.token]

/-- The tokens of a lexeme before multiplication signs are put in.  Too many digits become a
character that begins no token. -/
def joined : Lexeme → List Token
  | numeral n => if decimalLength n ≤ digitLimit then [.value (Expr.int n)] else [.stray '0']
  | juxtaposed => []
  | l => [l.token]

/-- A lexeme that can be read where these names are given, but for too many digits. -/
def Readable (names : List String) : Lexeme → Prop
  | word s => s ∈ names ∧ IsVariable s
  | _ => True

/-- A lexeme without too many digits. -/
def Short : Lexeme → Prop
  | numeral n => decimalLength n ≤ digitLimit
  | _ => True

theorem joined_of_ne {l : Lexeme} (hshort : l.Short) (h : l ≠ juxtaposed) :
    l.joined = [l.token] := by
  cases l with
  | juxtaposed => exact absurd rfl h
  | numeral n => exact if_pos hshort
  | _ => rfl

variable {l : Lexeme} {s : String} {t : Token}

theorem name_mem_scanned (h : .name s ∈ l.scanned) : l = word s := by
  cases l with
  | power caret => cases caret <;> simp [scanned, token] at h
  | word s => rw [Token.name.inj (List.mem_singleton.1 h)]
  | _ => simp [scanned, token] at h

theorem name_mem_joined (h : .name s ∈ l.joined) : l = word s := by
  cases l with
  | word s => rw [Token.name.inj (List.mem_singleton.1 h)]
  | numeral n =>
    rw [joined] at h
    split at h <;> simp at h
  | _ => simp [joined, token] at h

theorem stray_mem_joined {c : Char} (h : .stray c ∈ l.joined) : c = '0' := by
  cases l with
  | numeral n =>
    rw [joined] at h
    split at h
    · simp at h
    · exact Token.stray.inj (List.mem_singleton.1 h)
  | _ => simp [joined, token] at h

theorem isPlainDecimal_toDigits (n : ℕ) : isPlainDecimal (Nat.toDigits 10 n) = false := by
  have hpoint : (Nat.toDigits 10 n).contains '.' = false := by
    simpa using not_mem_toDigits (c := '.') (by decide) n
  rw [isPlainDecimal, hpoint, Bool.false_and]

/-- A whole number is no part of a repeating decimal. -/
theorem next_scanned (h : t ∈ l.scanned) : Repeating.start.next t = .start := by
  cases l with
  | numeral n =>
    rw [List.mem_singleton.1 h, Repeating.next, isPlainDecimal_toDigits]
    rfl
  | juxtaposed => cases h
  | power caret => cases caret <;> (rw [List.mem_singleton.1 h]; rfl)
  | _ => rw [List.mem_singleton.1 h]; rfl

theorem numeralTokens_toDigits {names : List String} (hnames : "Integer" ∉ names) (n : ℕ) :
    numeralTokens names (Nat.toDigits 10 n) = (numeral n).joined := by
  have hlast {c : Char} (hc : c.isDigit = false) :
      ((Nat.toDigits 10 n).getLast? == some c) = false := by
    refine beq_false_of_ne fun h => not_mem_toDigits hc n ?_
    exact List.mem_of_getLast? h
  have hcontains {c : Char} (hc : c.isDigit = false) :
      (Nat.toDigits 10 n).contains c = false := by
    simpa using not_mem_toDigits hc n
  have happroximate : isApproximate (Nat.toDigits 10 n) = false := by
    show (_ || (!_ && (_ || _))) = false
    rw [hcontains (by decide), hcontains (by decide), hcontains (by decide), Bool.or_false,
      Bool.and_false, Bool.or_false]
  have hwhole : wholeTokens names (Nat.toDigits 10 n) = (numeral n).joined := by
    rw [wholeTokens, readWhole?_toDigits, joined]
    by_cases hn : decimalLength n ≤ digitLimit
    · rw [if_pos hn, if_pos hn]
      exact if_neg (by simpa using hnames)
    · rw [if_neg hn, if_neg hn]
  rw [numeralTokens, hlast (by decide), hlast (by decide)]
  simp [happroximate, hwhole]

theorem readPowers_joined (n : ℕ) : readPowers (numeral n).joined = (numeral n).joined := by
  rw [joined]
  split <;> rfl

theorem readPowers_readNumerals_scanned {names : List String} (hnames : "Integer" ∉ names)
    (l : Lexeme) : readPowers (readNumerals names l.scanned) = l.joined := by
  cases l with
  | numeral n =>
    have hn : readNumerals names [.numeral (Nat.toDigits 10 n)] =
        numeralTokens names (Nat.toDigits 10 n) := List.append_nil _
    rw [scanned, hn, numeralTokens_toDigits hnames, readPowers_joined]
  | power caret => cases caret <;> rfl
  | _ => rfl

end Lexeme

theorem readNumerals_append (names : List String) (ts us : List Token) :
    readNumerals names (ts ++ us) = readNumerals names ts ++ readNumerals names us :=
  List.flatMap_append

theorem readPowers_append (ts us : List Token) :
    readPowers (ts ++ us) = readPowers ts ++ readPowers us :=
  List.map_append

open Lexeme

variable {ls : List Lexeme}

theorem readPowers_readNumerals_flatMap (hnames : "Integer" ∉ names) (ls : List Lexeme) :
    readPowers (readNumerals names (ls.flatMap scanned ++ [.newline])) =
      ls.flatMap joined ++ [.newline] := by
  induction ls with
  | nil => rfl
  | cons l ls ih =>
    rw [List.flatMap_cons, List.append_assoc, readNumerals_append, readPowers_append, ih,
      readPowers_readNumerals_scanned hnames, List.flatMap_cons, List.append_assoc]

/-- Where a token of a row comes from. -/
theorem exists_of_mem_row {f : Lexeme → List Token} {t : Token}
    (h : t ∈ ls.flatMap f ++ [.newline]) (ht : t ≠ .newline) : ∃ l ∈ ls, t ∈ f l :=
  List.mem_flatMap.1 ((List.mem_append.1 h).resolve_right fun h => ht (List.mem_singleton.1 h))

/-- **What the row of a formula is before multiplication signs are put in.** -/
theorem explicitPowers_scanned (hnames : "Integer" ∉ names) (h : ∀ l ∈ ls, l.Readable names) :
    explicitPowers names (ls.flatMap scanned ++ [.newline]) =
      .ok (ls.flatMap joined ++ [.newline]) := by
  have hjoined := readPowers_readNumerals_flatMap hnames ls
  rw [← hjoined]
  refine explicitPowers_eq ?_ ?_ ?_ ?_
  · intro s hs
    obtain ⟨l, hl, hs⟩ := exists_of_mem_row hs (by simp)
    exact (name_mem_scanned hs ▸ h l hl : (word s).Readable names).1
  · intro t ht
    rcases List.mem_append.1 ht with ht | ht
    · obtain ⟨l, -, ht⟩ := List.mem_flatMap.1 ht
      exact next_scanned ht
    · rw [List.mem_singleton.1 ht]
      rfl
  · intro hmark
    rw [hjoined] at hmark
    obtain ⟨l, -, hmark⟩ := exists_of_mem_row hmark (by simp)
    exact absurd (stray_mem_joined hmark) (by decide)
  · intro hlambda
    rw [hjoined] at hlambda
    obtain ⟨l, hl, hlambda⟩ := exists_of_mem_row hlambda (by simp)
    have hvariable : IsVariable "lambda" :=
      (name_mem_joined hlambda ▸ h l hl : (word "lambda").Readable names).2
    exact absurd hvariable (by decide)

/-! ## Multiplication signs -/

namespace Writes

variable {d : ℕ} {r : Rank} {t : Arithmetic}

/-- Every parenthesis that a formula opens is closed. -/
theorem openParentheses_joined (h : Writes d r t ls) (depth : ℕ) (rest : List Token) :
    openParentheses depth (ls.flatMap joined ++ rest) = openParentheses depth rest := by
  induction h generalizing depth rest with
  | literal n =>
    rw [List.flatMap_singleton, joined]
    split <;> rfl
  | word s => rfl
  | parentheses inner ih =>
    have hclose : openParentheses (depth + 1) (.op ")" :: rest) = openParentheses depth rest := rfl
    rw [List.flatMap_append, List.flatMap_cons, List.append_assoc, List.append_assoc, ← hclose]
    exact ih (depth + 1) (.op ")" :: rest)
  | ofAtom _ ih | ofPower _ ih | ofSign _ ih | ofProduct _ ih => exact ih depth rest
  | sign operand ih => exact ih depth rest
  | power _ _ _ _ _ ihl ihr | times _ _ ihl ihr | divided _ _ ihl ihr | plus _ _ ihl ihr
    | minus _ _ ihl ihr | juxtaposed _ _ _ ihl ihr =>
    rw [List.flatMap_append, List.append_assoc, ihl, List.flatMap_cons, List.append_assoc]
    exact ihr depth rest

end Writes

theorem Lexeme.startsFactor_token (l : Lexeme) :
    Formula.startsFactor l.token = l.startsPlain := by
  cases l <;> rfl

theorem Lexeme.endsFactor_token {l : Lexeme} (h : l.Readable names) {before : Token}
    (hbefore : before.isOp "." = false) : endsFactor names before l.token = l.endsOperand := by
  cases l with
  | word s =>
    have hs : names.contains s = true := List.contains_iff_mem.2 h.1
    have hcallable : isCallable names s = false := by rw [isCallable, hs]; rfl
    rw [Lexeme.token, endsFactor, hcallable, hbefore]
    rfl
  | _ => rfl

theorem Lexeme.isOp_point_token (l : Lexeme) : l.token.isOp "." = false := by
  cases l <;> rfl

theorem Lexeme.Fits.endsOperand {l : Lexeme} (h : l.Fits .juxtaposed) : l.endsOperand = true := by
  by_contra hl
  rw [Fits, if_neg hl] at h
  split at h <;> cases h

theorem Lexeme.Fits.startsPlain {l : Lexeme} (h : Lexeme.juxtaposed.Fits l) :
    l.startsPlain = true := by
  have hl : l.startsFactor = true := h
  cases l <;> first | rfl | cases hl

/-- A token with another one behind it. -/
theorem joinFactors_cons_cons (before t u : Token) (us : List Token) :
    joinFactors names before (t :: u :: us) =
      if endsFactor names before t && Formula.startsFactor u then
        t :: .op "*" :: joinFactors names t (u :: us)
      else t :: joinFactors names t (u :: us) := rfl

/-- A row with a product sign at its head, which has no token, gives the same as the row behind it.
-/
theorem joinFactors_dropWhile (hchain : ls.IsChain Fits) (hread : ∀ l ∈ ls, l.Readable names)
    (hshort : ∀ l ∈ ls, l.Short) (hlast : ls.getLast? ≠ some .juxtaposed) {before : Token}
    (hbefore : before.isOp "." = false) :
    joinFactors names before (ls.flatMap joined ++ [.newline]) =
      (ls.dropWhile (· = .juxtaposed)).map token ++ [.newline] := by
  induction ls generalizing before with
  | nil => rfl
  | cons l ls ih =>
    have hread' := fun x hx => hread x (List.mem_cons_of_mem l hx)
    obtain ⟨hl', hshort'⟩ := List.forall_mem_cons.1 hshort
    by_cases hl : l = .juxtaposed
    · subst hl
      cases ls with
      | nil => exact absurd rfl hlast
      | cons m ls => exact ih hchain.of_cons hread' hshort' (by simpa using hlast) hbefore
    · have hends := endsFactor_token (hread l List.mem_cons_self) hbefore
      rw [List.flatMap_cons, joined_of_ne hl' hl, List.dropWhile_cons_of_neg (by simpa using hl),
        List.map_cons]
      cases ls with
      | nil =>
        rw [List.flatMap_nil, List.map_nil, List.append_nil]
        exact (joinFactors_cons_cons before l.token .newline []).trans
          (if_neg (by simp [Formula.startsFactor]))
      | cons m ls =>
        obtain ⟨hfits, hrest⟩ := List.isChain_cons_cons.1 hchain
        have ih := ih hrest hread' hshort' (by simpa using hlast) l.isOp_point_token
        by_cases hm : m = .juxtaposed
        · subst hm
          cases ls with
          | nil => exact absurd rfl hlast
          | cons k ls =>
            have hk := (List.isChain_cons_cons.1 hrest).1.startsPlain
            have hk' := hshort' k (List.mem_cons_of_mem _ List.mem_cons_self)
            have hne : k ≠ .juxtaposed := by
              rintro rfl
              exact absurd hk (by decide)
            have hpair :
                (endsFactor names before l.token && Formula.startsFactor k.token) = true := by
              rw [hends, hfits.endsOperand, startsFactor_token, hk, Bool.true_and]
            rw [List.dropWhile_cons_of_pos (by simp),
              List.dropWhile_cons_of_neg (by simpa using hne), List.flatMap_cons,
              List.flatMap_cons, joined_of_ne hk' hne] at ih
            rw [List.flatMap_cons, List.flatMap_cons, joined_of_ne hk' hne]
            exact (joinFactors_cons_cons before l.token k.token _).trans
              ((if_pos hpair).trans (congrArg (l.token :: .op "*" :: ·) ih))
        · have hpair :
              ¬ (endsFactor names before l.token && Formula.startsFactor m.token) = true := by
            rw [hends, startsFactor_token]
            intro h
            obtain ⟨hl, hm⟩ := Bool.and_eq_true_iff.1 h
            rw [Fits, if_pos hl, hm] at hfits
            contradiction
          rw [List.dropWhile_cons_of_neg (by simpa using hm), List.flatMap_cons,
            joined_of_ne (hshort' m List.mem_cons_self) hm] at ih
          rw [List.flatMap_cons, joined_of_ne (hshort' m List.mem_cons_self) hm]
          exact (joinFactors_cons_cons before l.token m.token _).trans
            ((if_neg hpair).trans (congrArg (l.token :: ·) ih))

/-- **A multiplication sign is put in front of a factor exactly where a product is written without
one.** -/
theorem joinFactors_joined {d : ℕ} {r : Rank} {t : Arithmetic} (h : Writes d r t ls)
    (hread : ∀ l ∈ ls, l.Readable names) (hshort : ∀ l ∈ ls, l.Short) :
    joinFactors names .newline (ls.flatMap joined ++ [.newline]) = ls.map token ++ [.newline] := by
  obtain ⟨us, u, heq, hu⟩ := h.getLast
  obtain ⟨l, rs, rfl, hl⟩ := h.head
  have hlast : (l :: rs).getLast? ≠ some .juxtaposed := by
    rw [heq, List.getLast?_concat]
    rintro ⟨⟩
    contradiction
  have hne : l ≠ .juxtaposed := by
    rintro rfl
    contradiction
  rw [joinFactors_dropWhile h.isChain hread hshort hlast rfl,
    List.dropWhile_cons_of_neg (by simpa using hne)]

theorem mem_joinFactors {t : Token} (ht : t ≠ .op "*") {before : Token} :
    t ∈ joinFactors names before ts ↔ t ∈ ts := by
  induction ts generalizing before with
  | nil => rfl
  | cons u us ih =>
    cases us with
    | nil => rfl
    | cons v vs =>
      rw [joinFactors_cons_cons]
      split <;> simp only [List.mem_cons, ih, ht, false_or]

/-- The changes of a row, but for the multiplication signs. -/
theorem Writes.explicit_eq {d : ℕ} {r : Rank} {t : Arithmetic} (h : Writes d r t ls)
    (hnames : "Integer" ∉ names) (hread : ∀ l ∈ ls, l.Readable names) :
    explicit names (ls.flatMap scanned ++ [.newline]) =
      .ok (joinFactors names .newline (ls.flatMap joined ++ [.newline])) := by
  have hopen : openParentheses 0 (ls.flatMap joined ++ [.newline]) = .ok 0 :=
    h.openParentheses_joined 0 [.newline]
  rw [Formula.explicit, explicitPowers_scanned hnames hread]
  show (openParentheses 0 (ls.flatMap joined ++ [.newline])).bind _ = _
  rw [hopen]
  rfl

/-! ## Operators side by side -/

/-- The operators of one character that arithmetic uses. -/
def signs : List Char := ['+', '-', '*', '/', '^', '(', ')']

/-- What a longer operator looks like that begins with one of them. -/
theorem longer_operator {p : String} (h : p ∈ Token.longOperators ++ Token.pairOperators)
    {c : Char} {cs : List Char} (hp : p.toList = c :: cs) (hc : c ∈ signs) :
    c ≠ ')' ∧ ∃ d ∈ cs.head?, d ∈ ['*', '/', '=', '>'] := by
  have hall : ∀ p ∈ Token.longOperators ++ Token.pairOperators,
      (p.toList.head?.all fun c => !signs.contains c || (c != ')' &&
        p.toList.tail.head?.any fun d => ['*', '/', '=', '>'].contains d)) = true := by decide
  have hlonger := hall p h
  have hsign : signs.contains c = true := List.contains_iff_mem.2 hc
  rw [hp, List.head?_cons, Option.all_some, hsign, Bool.not_true, Bool.false_or,
    Bool.and_eq_true] at hlonger
  obtain ⟨hne, hnext⟩ := hlonger
  obtain ⟨d, hd, hmem⟩ := (Option.any_eq_true _ _).1 hnext
  exact ⟨by simpa using hne, d, hd, List.contains_iff_mem.1 hmem⟩

/-- An operator of one character, in front of what makes no longer one with it. -/
theorem operatorRun?_cons {c : Char} {cs : List Char} (hc : c ∈ signs)
    (hcs : c = ')' ∨ ∀ d ∈ cs.head?, d ∉ ['*', '/', '=', '>']) :
    Token.operatorRun? (c :: cs) = some (c.toString, cs) := by
  have hnone (n : ℕ) (hn : n ≠ 0) :
      String.ofList ((c :: cs).take (n + 1)) ∉ Token.longOperators ++ Token.pairOperators := by
    intro h
    obtain ⟨hne, d, hd, hmem⟩ := longer_operator h String.toList_ofList hc
    rw [List.head?_take, if_neg hn] at hd
    exact hcs.elim hne fun hcs => hcs d hd hmem
  have hlong := fun h => hnone 2 (by decide) (List.mem_append_left _ h)
  have hpair := fun h => hnone 1 (by decide) (List.mem_append_right _ h)
  have hsingle : ∀ c ∈ signs, Token.singleOperators.contains c = true :=
    List.all_eq_true.1 (by decide)
  rw [Token.operatorRun?]
  simp only [List.contains_iff_mem, if_neg hlong, if_neg hpair]
  exact if_pos (List.contains_iff_mem.1 (hsingle c hc))

/-- The power operator of two stars. -/
theorem operatorRun?_stars {cs : List Char} (hcs : cs.head? ≠ some '=') :
    Token.operatorRun? ('*' :: '*' :: cs) = some ("**", cs) := by
  have hall : ∀ p ∈ Token.longOperators, p.toList.take 2 = ['*', '*'] →
      (p.toList.drop 2).head? = some '=' := by decide
  have hlong : String.ofList (('*' :: '*' :: cs).take 3) ∉ Token.longOperators := by
    intro h
    have hthird := hall _ h (by rw [String.toList_ofList]; rfl)
    rw [String.toList_ofList] at hthird
    cases cs with
    | nil => cases hthird
    | cons d cs => exact hcs hthird
  rw [Token.operatorRun?]
  simp only [List.contains_iff_mem, if_neg hlong]
  rfl

namespace Lexeme

/-- Whether a lexeme is neither a number nor a variable. -/
def isOperator : Lexeme → Bool
  | numeral _ | word _ => false
  | _ => true

/-- The characters of an operator as the grammar sees it. -/
def sign : Lexeme → List Char
  | numeral _ | word _ => []
  | plus => ['+']
  | minus => ['-']
  | times | juxtaposed => ['*']
  | divided => ['/']
  | power _ => ['*', '*']
  | opening => ['(']
  | closing => [')']

variable {l : Lexeme}

theorem token_of_isOperator (h : l.isOperator = true) : l.token = .op (String.ofList l.sign) := by
  cases l <;> first | rfl | exact absurd h Bool.false_ne_true

end Lexeme

/-- What may stand behind an operator makes no longer one with it. -/
theorem Lexeme.Fits.sign_head {l m : Lexeme} (h : l.Fits m) (hl : l.isOperator = true)
    (hm : m.isOperator = true) (cs : List Char) :
    l = .closing ∨ ∀ d ∈ (m.sign ++ cs).head?, d ∉ ['*', '/', '=', '>'] := by
  by_cases hends : l.endsOperand = true
  · left
    cases l <;>
      first
      | rfl
      | exact absurd hl Bool.false_ne_true
      | exact absurd hends Bool.false_ne_true
  · right
    have hstarts : m.startsOperand = true := by
      rw [Fits, if_neg hends] at h
      split at h
      · cases m <;> first | rfl | cases h
      · exact h
    cases m <;>
      first
      | exact absurd hm Bool.false_ne_true
      | exact absurd hstarts Bool.false_ne_true
      | (rintro d ⟨⟩; decide)

theorem operatorRun?_sign {l : Lexeme} (hl : l.isOperator = true) {cs : List Char}
    (hcs : l = .closing ∨ ∀ d ∈ cs.head?, d ∉ ['*', '/', '=', '>']) :
    Token.operatorRun? (l.sign ++ cs) = some (String.ofList l.sign, cs) := by
  cases l with
  | numeral n => cases hl
  | word s => cases hl
  | closing => exact operatorRun?_cons (by decide) (.inl rfl)
  | power caret =>
    refine operatorRun?_stars fun h => ?_
    obtain h' | h' := hcs
    · cases h'
    · exact h' '=' h (by decide)
  | _ => exact operatorRun?_cons (by decide) (.inr (hcs.resolve_left nofun))

/-- Operators that fit side by side are taken apart as they were. -/
theorem splitOperators_sign {ps : List Lexeme} (hops : ∀ l ∈ ps, l.isOperator = true)
    (hchain : ps.IsChain Fits) {fuel : ℕ} (hfuel : (ps.flatMap sign).length < fuel) :
    splitOperators fuel (ps.flatMap sign) = some (ps.map token) := by
  induction ps generalizing fuel with
  | nil =>
    obtain ⟨fuel, rfl⟩ : ∃ f, fuel = f + 1 := ⟨fuel - 1, by omega⟩
    rfl
  | cons l ps ih =>
    obtain ⟨hl, hps⟩ := List.forall_mem_cons.1 hops
    have hnext : l = .closing ∨ ∀ d ∈ (ps.flatMap sign).head?, d ∉ ['*', '/', '=', '>'] := by
      cases ps with
      | nil => exact .inr nofun
      | cons m ps =>
        exact (List.isChain_cons_cons.1 hchain).1.sign_head hl (hps m List.mem_cons_self) _
    have hrun := operatorRun?_sign hl hnext
    have hpos : 0 < l.sign.length := by
      cases l <;> first | exact absurd hl Bool.false_ne_true | exact Nat.succ_pos _
    rw [List.flatMap_cons, List.length_append] at hfuel
    obtain ⟨fuel, rfl⟩ : ∃ f, fuel = f + 1 := ⟨fuel - 1, by omega⟩
    have ih := ih hps hchain.of_cons (by omega : (ps.flatMap sign).length < fuel)
    have hsplit : splitOperators (fuel + 1) (l.sign ++ ps.flatMap sign) =
        (Token.operatorRun? (l.sign ++ ps.flatMap sign)).bind fun r =>
          (splitOperators fuel r.2).bind fun ts => some (.op r.1 :: ts) := by
      cases l <;> first | exact absurd hl Bool.false_ne_true | rfl
    rw [List.flatMap_cons, hsplit, hrun, Option.bind_some, ih, List.map_cons,
      token_of_isOperator hl]
    rfl

/-- **Reading operators anew changes nothing** in a row whose lexemes fit. -/
theorem regroup_token {ps : List Lexeme} (hops : ∀ l ∈ ps, l.isOperator = true)
    (hchain : (ps ++ ls).IsChain Fits)
    (hwords : ∀ s, .word s ∈ ls → Text.isIdentifier s.toList = true) :
    regroup (ps.flatMap sign) (ls.map token ++ [.newline]) =
      some (ps.map token ++ (ls.map token ++ [.newline])) := by
  induction ls generalizing ps with
  | nil =>
    rw [List.append_nil] at hchain
    have hsplit := splitOperators_sign hops hchain (Nat.lt_succ_self _)
    show (splitOperators ((ps.flatMap sign).length + 1) (ps.flatMap sign)).bind _ = _
    rw [hsplit]
    rfl
  | cons l ls ih =>
    have hwords' := fun s hs => hwords s (List.mem_cons_of_mem l hs)
    by_cases hl : l.isOperator = true
    · rw [List.map_cons, List.cons_append, token_of_isOperator hl, regroup]
      have ih := @ih (ps ++ [l]) (by simpa [or_imp, forall_and] using ⟨hops, hl⟩)
        (by simpa using hchain) hwords'
      rw [String.toList_ofList]
      simpa [token_of_isOperator hl] using ih
    · have hchain' := List.isChain_append.1 hchain
      have hsplit := splitOperators_sign hops hchain'.1 (Nat.lt_succ_self _)
      have ih := @ih [] (by simp) hchain'.2.1.of_cons hwords'
      cases l with
      | numeral n =>
        show (splitOperators ((ps.flatMap sign).length + 1) (ps.flatMap sign)).bind (fun ops =>
          (regroup [] (ls.map token ++ [.newline])).bind _) = _
        rw [hsplit, Option.bind_some]
        exact congrArg (Option.bind · _) ih
      | word s =>
        have hs := hwords s List.mem_cons_self
        show (splitOperators ((ps.flatMap sign).length + 1) (ps.flatMap sign)).bind (fun ops =>
          (regroup [] (ls.map token ++ [.newline])).bind fun rest =>
            if Text.isIdentifier s.toList then some (ops ++ .name s :: rest) else none) = _
        rw [hsplit, Option.bind_some]
        refine (congrArg (Option.bind · _) ih).trans ?_
        exact if_pos hs
      | _ => exact absurd rfl hl

theorem dropLastLines_newline (h : .newline ∉ ts) : dropLastLines (ts ++ [.newline]) = ts := by
  rw [dropLastLines, List.reverse_append, List.reverse_singleton, List.singleton_append,
    List.dropWhile_cons_of_pos rfl]
  cases hrev : ts.reverse with
  | nil =>
    rw [List.reverse_eq_nil_iff.1 hrev]
    rfl
  | cons t us =>
    have ht : t ∈ ts := List.mem_reverse.1 (hrev ▸ List.mem_cons_self)
    rw [List.dropWhile_cons_of_neg, ← hrev, List.reverse_reverse]
    cases t with
    | newline => exact absurd ht h
    | _ => exact Bool.false_ne_true

namespace Writes

variable {d : ℕ} {r : Rank} {t : Arithmetic}

/-- A formula nests one level deeper than its parentheses. -/
theorem nesting_token (h : Writes d r t ls) (depth : ℕ) (rest : List Token) :
    nesting depth (ls.map token ++ rest) ≤ max (depth + d + 1) (nesting depth rest) := by
  induction h generalizing depth rest with
  | literal n =>
    show max (depth + 1) (nesting depth rest) ≤ _
    omega
  | word s => exact Nat.le_max_right _ _
  | @parentheses d t ls inner ih =>
    have hopen : nesting depth ((Lexeme.opening :: ls ++ [Lexeme.closing]).map token ++ rest) =
        max (depth + 1) (nesting (depth + 1) (ls.map token ++ (.op ")" :: rest))) := by
      rw [List.map_append, List.append_assoc]
      rfl
    have hclose : nesting (depth + 1) (.op ")" :: rest) = nesting depth rest := rfl
    have ih := ih (depth + 1) (.op ")" :: rest)
    rw [hclose] at ih
    rw [hopen]
    omega
  | ofAtom _ ih | ofPower _ ih | ofSign _ ih | ofProduct _ ih => exact ih depth rest
  | sign operand ih => exact ih depth rest
  | power _ _ _ _ _ ihl ihr | times _ _ ihl ihr | divided _ _ ihl ihr | plus _ _ ihl ihr
    | minus _ _ ihl ihr | juxtaposed _ _ _ ihl ihr =>
    rw [List.map_append, List.append_assoc]
    refine (ihl depth _).trans (max_le (Nat.le_max_left _ _) ?_)
    exact ihr depth rest

/-- **The tokens of a row are read as the phrase of its tree.** -/
theorem ofTokens? (h : Writes d .sum t ls) (hd : d < nestingLimit)
    (hread : ∀ l ∈ ls, l.Readable names) :
    Phrase.ofTokens? (ls.map token ++ [.newline]) = some t.phrase := by
  have hvariable : ∀ s, .word s ∈ ls → IsVariable s := fun s hs => (hread _ hs).2
  have hreturn : .stray '\r' ∉ ls.map token ++ [.newline] := by
    intro hc
    rcases List.mem_append.1 hc with hc | hc
    · obtain ⟨l, -, hl⟩ := List.mem_map.1 hc
      cases l <;> cases hl
    · simp at hc
  have hnewline : .newline ∉ ls.map token := by
    intro hc
    obtain ⟨l, -, hl⟩ := List.mem_map.1 hc
    cases l <;> cases hl
  have hregroup : regroup [] (ls.map token ++ [.newline]) = some (ls.map token ++ [.newline]) :=
    regroup_token (List.forall_mem_nil fun l : Lexeme => l.isOperator = true) h.isChain
      fun s hs => (hvariable s hs).isIdentifier
  have hnesting : nesting 0 (ls.map token) ≤ nestingLimit := by
    have hle := h.nesting_token 0 []
    rw [List.append_nil, nesting] at hle
    omega
  have hwords : ∀ s, .word s ∈ ls → isOperandWord s = true :=
    fun s hs => (hvariable s hs).isOperandWord
  have hitems : readItems (8 * (ls.map token).length + 16) (ls.map token) =
      some (([t.phrase], false), []) := by
    have hreads := (h.reads hwords).items (h.startsOperand hwords) (naming_not_mem ls) .nil
      (by omega : 8 * (ls.map token).length ≤ 8 * (ls.map token).length + 16)
    rwa [List.append_nil] at hreads
  have hbare : t.phrase.isBare = true := by cases t <;> rfl
  rw [Phrase.ofTokens?, returnsToLines_of_no_return hreturn, hregroup, Option.bind_eq_bind,
    Option.bind_some, dropLastLines_newline hnewline]
  dsimp only
  rw [if_neg (Nat.not_lt.2 hnesting), hitems]
  simp [hbare]

end Writes

/-! ## Numbers with too many digits -/

/-- An operator is what it takes from a text, and no digit zero is a part of it. -/
theorem operatorRun?_eq_some {cs rest : List Char} {s : String}
    (h : Token.operatorRun? cs = some (s, rest)) : cs = s.toList ++ rest ∧ '0' ∉ s.toList := by
  have hall : ∀ p ∈ Token.longOperators ++ Token.pairOperators, '0' ∉ p.toList := by decide
  have hsingle : ∀ c ∈ Token.singleOperators, (c.toString.toList == [c] && c != '0') = true :=
    List.all_eq_true.1 (by decide)
  rw [Token.operatorRun?.eq_def] at h
  simp only [List.contains_iff_mem] at h
  split at h
  · rename_i hlong
    obtain ⟨rfl, rfl⟩ := Prod.mk.inj (Option.some.inj h)
    refine ⟨?_, hall _ (List.mem_append_left _ hlong)⟩
    rw [String.toList_ofList, List.take_append_drop]
  · split at h
    · rename_i hpair
      obtain ⟨rfl, rfl⟩ := Prod.mk.inj (Option.some.inj h)
      refine ⟨?_, hall _ (List.mem_append_right _ hpair)⟩
      rw [String.toList_ofList, List.take_append_drop]
    · cases cs with
      | nil => cases h
      | cons c cs =>
        by_cases hc : c ∈ Token.singleOperators
        · obtain ⟨rfl, rfl⟩ := Prod.mk.inj (Option.some.inj ((if_pos hc).symm.trans h))
          obtain ⟨hlist, hzero⟩ := Bool.and_eq_true_iff.1 (hsingle c hc)
          rw [beq_iff_eq.1 hlist]
          exact ⟨rfl, by simpa using (bne_iff_ne.1 hzero).symm⟩
        · exact absurd ((if_neg hc).symm.trans h) nofun

theorem splitOperators_eq_none {run : List Char} (h : '0' ∈ run) (fuel : ℕ) :
    splitOperators fuel run = none := by
  induction fuel generalizing run with
  | zero => rfl
  | succ fuel ih =>
    cases run with
    | nil => cases h
    | cons c cs =>
      by_cases hc : c = ' '
      · subst hc
        exact ih (by simpa using h)
      · rw [splitOperators]
        · cases hrun : Token.operatorRun? (c :: cs) with
          | none => rfl
          | some r =>
            obtain ⟨heq, hzero⟩ := operatorRun?_eq_some hrun
            rw [heq, List.mem_append] at h
            show (splitOperators fuel r.2).bind _ = none
            rw [ih (h.resolve_left hzero)]
            rfl
        · simp
        · rintro rest heq
          exact hc (List.cons.inj heq).1

/-- A digit that no numeral holds makes a row unreadable. -/
theorem regroup_eq_none {run : List Char} (h : '0' ∈ run ∨ .stray '0' ∈ ts) :
    regroup run ts = none := by
  induction ts generalizing run with
  | nil => exact splitOperators_eq_none (h.resolve_right nofun) _
  | cons t ts ih =>
    have hflush (f : List Token → List Token → Option (List Token)) (ht : t ≠ .stray '0') :
        (splitOperators (run.length + 1) run).bind (fun ops =>
          (regroup [] ts).bind (f ops)) = none := by
      rcases h with h | h
      · rw [splitOperators_eq_none h]
        rfl
      · have hts := (List.mem_cons.1 h).resolve_left ht.symm
        rw [ih (.inr hts)]
        exact Option.bind_fun_none _
    cases t with
    | op s => exact ih (h.imp (List.mem_append_left _) (fun h => by simpa using h))
    | stray c =>
      refine ih ?_
      rcases h with h | h
      · exact .inl (List.mem_append_left _ h)
      · rcases List.mem_cons.1 h with h | h
        · exact .inl (List.mem_append_right _ (by simpa using h))
        · exact .inr h
    | indent => rfl
    | _ => exact hflush _ nofun

/-- **A number with too many digits makes a formula unreadable.** -/
theorem ofTokens?_of_long (hlong : ∃ l ∈ ls, ¬ l.Short) :
    Phrase.ofTokens? (joinFactors names .newline (ls.flatMap joined ++ [.newline])) = none := by
  obtain ⟨l, hl, hlong⟩ := hlong
  have hstray : .stray '0' ∈ l.joined := by
    cases l with
    | numeral n =>
      have hn : ¬ decimalLength n ≤ digitLimit := hlong
      rw [joined, if_neg hn]
      exact List.mem_singleton_self _
    | _ => exact absurd trivial hlong
  have hmem : .stray '0' ∈ ls.flatMap joined ++ [.newline] :=
    List.mem_append_left _ (List.mem_flatMap.2 ⟨l, hl, hstray⟩)
  have hreturn : .stray '\r' ∉ joinFactors names .newline (ls.flatMap joined ++ [.newline]) := by
    rw [mem_joinFactors (by simp)]
    intro h
    obtain ⟨m, -, h⟩ := exists_of_mem_row h (by simp)
    exact absurd (stray_mem_joined h) (by decide)
  rw [Phrase.ofTokens?, returnsToLines_of_no_return hreturn,
    regroup_eq_none (.inr ((mem_joinFactors (by simp)).2 hmem))]
  rfl

end ErrorBars.Formula
