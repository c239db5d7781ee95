import ErrorBars.Formula.Parse

/-!
# What the passes make of tokens

Before the grammar sees a formula, several passes make its tokens explicit.  They put a few words,
numbers and signs of their own between the tokens of the text, and otherwise only move, drop and
repeat what is there.

So a property of all tokens of a text holds of all tokens that the passes make of them, if it holds
of what the passes bring in themselves (`HoldsOfReader`).  There is one lemma for each pass, and
`forall_explicit` is about all of them.
-/

set_option autoImplicit false

namespace ErrorBars.Formula

/-- The words through which the passes read what they find. -/
def readerWords : List String :=
  ["Symbol", "Function", "Integer", "Float", "Rational", "I", "factorial", "factorial2"]

/-- The sum that a token makes of a decimal with repeating digits, if it closes one. -/
def closing? (names : List String) (state : Repeating) (t : Token) : Option (List Token) :=
  match state with
  | .digits s r => if t.isOp "]" then some (repeatingTokens names s r) else none
  | .moreDigits s r q => if t.isOp "]" then some (repeatingTokens names s (r ++ q)) else none
  | _ => none

theorem readRepeating_cons (names : List String) (state : Repeating) (seen : List Token)
    (t : Token) (rest : List Token) :
    readRepeating names state seen (t :: rest) =
      match closing? names state t with
      | some tokens => tokens ++ readRepeating names .start [] rest
      | none =>
        match state.next t with
        | .start => seen.reverse ++ t :: readRepeating names .start [] rest
        | state => readRepeating names state (t :: seen) rest := by
  cases state <;> rfl

/-- The tokens so far once the exclamation marks behind them have been applied. -/
def applyMarks (marks : Nat) (before : List Token) : Option (List Token) :=
  match marks with
  | 0 => some before
  | 1 => applyFactorial "factorial" before
  | 2 => applyFactorial "factorial2" before
  | _ => none

theorem readFactorials_cons {marks : Nat} {before rest : List Token} {t : Token}
    (h : ∀ c, t ≠ .stray c) :
    readFactorials marks before (t :: rest) =
      (applyMarks marks before).bind fun before => readFactorials 0 (t :: before) rest := by
  cases t with
  | stray c => exact absurd rfl (h c)
  | _ => rfl

/-! ## What the passes bring in -/

/-- Whether a token can mean something by itself: a word, a quoted text, a number or a variable. -/
def Token.isMeaningful : Token → Bool
  | .name _ => true
  | .text _ => true
  | .value _ => true
  | _ => false

/-- A property holds of what the passes bring in. -/
structure HoldsOfReader (names : List String) (P : Token → Prop) : Prop where
  /-- all tokens that mean nothing by themselves -/
  plain : ∀ t, t.isMeaningful = false → P t
  /-- the words of the reader -/
  word : ∀ w ∈ readerWords, P (.name w)
  /-- whole numbers -/
  whole : ∀ n, P (.value (Expr.int n))
  /-- approximate numbers -/
  approximate : ∀ digits, ∀ t ∈ approximateTokens names digits, P t
  /-- what takes the place of a word that means nothing -/
  unknown : ∀ word next, P (.name word) → ∀ t ∈ variableTokens names word next, P t

/-! ## The passes -/

section

variable {P : Token → Prop} {names : List String} {ts : List Token}

theorem forall_readThrough (hP : HoldsOfReader names P) {word : String} {content : Token}
    (hword : word ∈ readerWords) (hcontent : P content) : ∀ t ∈ readThrough word content, P t := by
  simp only [readThrough, List.forall_mem_cons, List.not_mem_nil, false_imp_iff, implies_true,
    and_true]
  exact ⟨hP.word word hword, hP.plain _ rfl, hcontent, hP.plain _ rfl⟩

theorem forall_readWords (hP : HoldsOfReader names P) (before : Token) (hts : ∀ t ∈ ts, P t) :
    ∀ t ∈ readWords names before ts, P t := by
  induction ts generalizing before with
  | nil => exact hts
  | cons t rest ih =>
    obtain ⟨ht, hrest⟩ := List.forall_mem_cons.1 hts
    cases t with
    | name word =>
      rw [readWords, List.forall_mem_append]
      refine ⟨?_, ih _ hrest⟩
      split
      · exact List.forall_mem_singleton.2 ht
      · exact hP.unknown word _ ht
    | _ => exact List.forall_mem_cons.2 ⟨ht, ih _ hrest⟩

theorem forall_wholeTokens (hP : HoldsOfReader names P) (digits : List Char) :
    ∀ t ∈ wholeTokens names digits, P t := by
  rw [wholeTokens]
  split
  · exact List.forall_mem_singleton.2 (hP.plain _ rfl)
  · split
    · exact forall_readThrough hP (by simp [readerWords]) (hP.plain _ rfl)
    · exact List.forall_mem_singleton.2 (hP.whole _)

theorem forall_numeralTokens (hP : HoldsOfReader names P) (s : List Char) :
    ∀ t ∈ numeralTokens names s, P t := by
  have hnumber : ∀ cs, ∀ t ∈
      (if isApproximate cs then approximateTokens names cs else wholeTokens names cs), P t := by
    intro cs
    split
    · exact hP.approximate cs
    · exact forall_wholeTokens hP cs
  rw [numeralTokens, List.forall_mem_append]
  refine ⟨hnumber _, ?_⟩
  split
  · refine List.forall_mem_cons.2 ⟨hP.plain _ rfl, List.forall_mem_singleton.2 ?_⟩
    exact hP.word "I" (by simp [readerWords])
  · exact List.forall_mem_nil P

theorem forall_readNumerals (hP : HoldsOfReader names P) (hts : ∀ t ∈ ts, P t) :
    ∀ t ∈ readNumerals names ts, P t := by
  intro u hu
  obtain ⟨t, ht, hu⟩ := List.mem_flatMap.1 hu
  cases t with
  | numeral cs => exact forall_numeralTokens hP cs u hu
  | _ => exact List.mem_singleton.1 hu ▸ hts _ ht

theorem forall_repeatingTokens (hP : HoldsOfReader names P) (s r : List Char) :
    ∀ t ∈ repeatingTokens names s r, P t := by
  have hop : ∀ word, ∀ t ∈ [Token.op word], P t := fun _ =>
    List.forall_mem_singleton.2 (hP.plain _ rfl)
  have hnumeral : ∀ cs, ∀ t ∈ readThrough "Integer" (.numeral cs), P t := fun _ =>
    forall_readThrough hP (by simp [readerWords]) (hP.plain _ rfl)
  have hopen : ∀ t ∈ [Token.name "Rational", .op "("], P t :=
    List.forall_mem_cons.2 ⟨hP.word _ (by simp [readerWords]), hop _⟩
  rw [repeatingTokens]
  simp only [List.forall_mem_append]
  exact ⟨⟨⟨⟨⟨⟨hop _, hnumeral _⟩, hop _⟩, ⟨⟨⟨hopen, forall_wholeTokens hP _⟩, hop _⟩,
    forall_wholeTokens hP _⟩, hop _⟩, hop _⟩, ⟨⟨⟨hopen, forall_wholeTokens hP _⟩, hop _⟩,
    forall_wholeTokens hP _⟩, hop _⟩, hop _⟩

theorem forall_closing? (hP : HoldsOfReader names P) {state : Repeating} {t : Token}
    {tokens : List Token} (h : closing? names state t = some tokens) : ∀ t ∈ tokens, P t := by
  cases state with
  | digits s r =>
    simp only [closing?, Option.ite_none_right_eq_some, Option.some.injEq] at h
    exact h.2 ▸ forall_repeatingTokens hP s r
  | moreDigits s r q =>
    simp only [closing?, Option.ite_none_right_eq_some, Option.some.injEq] at h
    exact h.2 ▸ forall_repeatingTokens hP s (r ++ q)
  | _ => simp [closing?] at h

theorem forall_readRepeating (hP : HoldsOfReader names P) (state : Repeating) (seen : List Token)
    (hts : ∀ t ∈ ts, P t) (hseen : ∀ t ∈ seen, P t) :
    ∀ t ∈ readRepeating names state seen ts, P t := by
  have hreverse : ∀ t ∈ seen.reverse, P t := fun t ht => hseen t (List.mem_reverse.1 ht)
  induction ts generalizing state seen with
  | nil => exact hreverse
  | cons t rest ih =>
    obtain ⟨ht, hrest⟩ := List.forall_mem_cons.1 hts
    have hstart := ih .start [] hrest (List.forall_mem_nil P) (List.forall_mem_nil P)
    rw [readRepeating_cons]
    cases hc : closing? names state t with
    | some tokens => exact List.forall_mem_append.2 ⟨forall_closing? hP hc, hstart⟩
    | none =>
      have hseen := List.forall_mem_cons.2 ⟨ht, hseen⟩
      have hopen := ih (state.next t) (t :: seen) hrest hseen fun u hu =>
        hseen u (List.mem_reverse.1 hu)
      simp only
      split
      · exact List.forall_mem_append.2 ⟨hreverse, List.forall_mem_cons.2 ⟨ht, hstart⟩⟩
      · exact hopen

theorem forall_splitOperand {depth : Int} {operand before : List Token}
    (h : splitOperand depth ts = some (operand, before)) (hts : ∀ t ∈ ts, P t) :
    (∀ t ∈ operand, P t) ∧ ∀ t ∈ before, P t := by
  induction ts generalizing depth operand with
  | nil => simp [splitOperand] at h
  | cons t rest ih =>
    obtain ⟨ht, hrest⟩ := List.forall_mem_cons.1 hts
    rw [splitOperand] at h
    generalize (if t.isOp ")" then depth + 1 else if t.isOp "(" then depth - 1 else depth) = d at h
    split at h
    · simp only [Option.some.injEq, Prod.mk.injEq] at h
      obtain ⟨rfl, rfl⟩ := h
      exact ⟨List.forall_mem_singleton.2 ht, hrest⟩
    · simp only [Option.map_eq_some_iff, Prod.mk.injEq, Prod.exists] at h
      obtain ⟨inner, outer, hs, rfl, rfl⟩ := h
      obtain ⟨hinner, houter⟩ := ih hs hrest
      exact ⟨List.forall_mem_cons.2 ⟨ht, hinner⟩, houter⟩

/-- A factorial brings in its own word, and parentheses around its operand. -/
theorem forall_applyFactorial (hP : HoldsOfReader names P) {word : String}
    {before after : List Token} (hword : word ∈ readerWords)
    (h : applyFactorial word before = some after) (hbefore : ∀ t ∈ before, P t) :
    ∀ t ∈ after, P t := by
  have hop : ∀ s, P (.op s) := fun s => hP.plain _ rfl
  have hword := hP.word word hword
  have hwrap : ∀ operand rest : List Token, (∀ t ∈ operand, P t) → (∀ t ∈ rest, P t) →
      ∀ t ∈ .op ")" :: operand ++ .op "(" :: .name word :: rest, P t := by
    intro operand rest hoperand hrest
    simp only [List.cons_append, List.forall_mem_cons, List.forall_mem_append]
    exact ⟨hop _, hoperand, hop _, hword, hrest⟩
  unfold applyFactorial at h
  split at h
  · cases h
  · cases h
  · obtain ⟨hvalue, hrest⟩ := List.forall_mem_cons.1 hbefore
    exact Option.some.inj h ▸ hwrap _ _ (List.forall_mem_singleton.2 hvalue) hrest
  · split at h
    · exact Option.some.inj h ▸ hbefore
    · rename_i operand s rest hs
      obtain ⟨hoperand, hrest⟩ := forall_splitOperand hs hbefore
      obtain ⟨hname, hrest⟩ := List.forall_mem_cons.1 hrest
      refine Option.some.inj h ▸ hwrap _ _ (List.forall_mem_append.2 ⟨hoperand, ?_⟩) hrest
      exact List.forall_mem_singleton.2 hname
    · rename_i operand rest hrest hs
      obtain ⟨hoperand, hrest⟩ := forall_splitOperand hs hbefore
      exact Option.some.inj h ▸ hwrap _ _ hoperand hrest

theorem forall_readFactorials (hP : HoldsOfReader names P) (marks : Nat)
    {before after : List Token} (h : readFactorials marks before ts = some after)
    (hts : ∀ t ∈ ts, P t) (hbefore : ∀ t ∈ before, P t) : ∀ t ∈ after, P t := by
  induction ts generalizing marks before with
  | nil =>
    obtain rfl := Option.some.inj h
    exact fun t ht => hbefore t (List.mem_reverse.1 ht)
  | cons t rest ih =>
    obtain ⟨ht, hrest⟩ := List.forall_mem_cons.1 hts
    by_cases hstray : ∃ c, t = .stray c
    · obtain ⟨c, rfl⟩ := hstray
      rw [readFactorials] at h
      split at h
      · exact ih _ h hrest hbefore
      · exact ih _ h hrest (List.forall_mem_cons.2 ⟨ht, hbefore⟩)
    · rw [readFactorials_cons (by simpa using hstray)] at h
      obtain ⟨operand, hoperand, h⟩ := Option.bind_eq_some_iff.1 h
      refine ih 0 h hrest (List.forall_mem_cons.2 ⟨ht, ?_⟩)
      unfold applyMarks at hoperand
      split at hoperand
      · exact Option.some.inj hoperand ▸ hbefore
      · exact forall_applyFactorial hP (by simp [readerWords]) hoperand hbefore
      · exact forall_applyFactorial hP (by simp [readerWords]) hoperand hbefore
      · cases hoperand

theorem forall_readPowers (hP : HoldsOfReader names P) (hts : ∀ t ∈ ts, P t) :
    ∀ t ∈ readPowers ts, P t := by
  intro u hu
  obtain ⟨t, ht, hu⟩ := List.mem_map.1 hu
  split at hu
  · exact hu ▸ hP.plain _ rfl
  · exact hu ▸ hts _ ht

theorem forall_explicitPowers (hP : HoldsOfReader names P) {after : List Token}
    (h : explicitPowers names ts = .ok after) (hts : ∀ t ∈ ts, P t) : ∀ t ∈ after, P t := by
  have hread := forall_readNumerals hP (forall_readRepeating hP .start []
    (forall_readWords hP .newline hts) (List.forall_mem_nil P))
  unfold explicitPowers at h
  simp only at h
  split at h
  · cases h
  · cases h
  · rename_i us hus _
    have husP := forall_readFactorials hP 0 hus hread (List.forall_mem_nil P)
    exact Except.ok.inj h ▸ forall_readPowers hP husP

theorem forall_joinFactors (hP : HoldsOfReader names P) (before : Token) (hts : ∀ t ∈ ts, P t) :
    ∀ t ∈ joinFactors names before ts, P t := by
  induction ts generalizing before with
  | nil => exact hts
  | cons t rest ih =>
    obtain ⟨ht, hrest⟩ := List.forall_mem_cons.1 hts
    have hrest' := ih t hrest
    cases rest with
    | nil => exact List.forall_mem_singleton.2 ht
    | cons next rest =>
      rw [joinFactors]
      split
      · exact List.forall_mem_cons.2 ⟨ht, List.forall_mem_cons.2 ⟨hP.plain _ rfl, hrest'⟩⟩
      · exact List.forall_mem_cons.2 ⟨ht, hrest'⟩

/-- **What holds of all tokens of a text, and of what the passes bring in, holds of all tokens that
the passes make.** -/
theorem forall_explicit (hP : HoldsOfReader names P) {after : List Token}
    (h : explicit names ts = .ok after) (hts : ∀ t ∈ ts, P t) : ∀ t ∈ after, P t := by
  rw [explicit] at h
  cases hus : explicitPowers names ts with
  | error fault =>
    rw [hus] at h
    cases h
  | ok us =>
    rw [hus] at h
    cases hdepth : openParentheses 0 us with
    | error fault =>
      simp only [bind, Except.bind, hdepth] at h
      cases h
    | ok depth =>
      simp only [bind, Except.bind, hdepth] at h
      split at h
      · cases h
      · exact Except.ok.inj h ▸ forall_joinFactors hP _ (forall_explicitPowers hP hus hts)

end

end ErrorBars.Formula
