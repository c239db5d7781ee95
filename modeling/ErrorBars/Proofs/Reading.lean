import ErrorBars.Proofs.Passes

/-!
# What a reading looks up

The names that a caller gives are consulted while a text is read: by the passes over its tokens, and
when the words of the phrase that comes out get their meaning.  Each time the question is only
whether one word is among them.

`sought` collects the words about which that question is asked.  Two lists of names that agree on
them (`Agree`) are read alike, which is `parse_agree`.  The passes ask about the words of the text
and about the eight words through which they read numbers, variables and factorials themselves
(`readerWords`); the phrase asks about its words and their compatibility forms, and about the words
in the fields of its templates.
-/

set_option autoImplicit false

namespace ErrorBars.Formula

/-- The same words of a list are given. -/
def Agree (ws names names' : List String) : Prop :=
  ∀ w ∈ ws, names'.contains w = names.contains w

theorem Agree.mono {ws vs names names' : List String} (h : Agree ws names names')
    (hsub : ∀ w ∈ vs, w ∈ ws) : Agree vs names names' := fun w hw => h w (hsub w hw)

/-- A name more makes a difference only to itself. -/
theorem agree_append {ws names : List String} {n : String} (h : n ∉ ws) :
    Agree ws names (names ++ [n]) := by
  intro w hw
  have hne : w ≠ n := fun heq => h (heq ▸ hw)
  simp [List.contains_eq_mem, hne]

/-! ## Words among tokens -/

/-- The word that a token is. -/
def Token.word? : Token → Option String
  | .name s => some s
  | _ => none

/-- The words among tokens. -/
def wordsOf (ts : List Token) : List String := ts.filterMap Token.word?

/-- Whether all words of tokens are among these. -/
def WordsIn (ws : List String) (ts : List Token) : Prop := ∀ s, Token.name s ∈ ts → s ∈ ws

theorem wordsIn_wordsOf (ts : List Token) : WordsIn (wordsOf ts) ts := fun s h =>
  List.mem_filterMap.2 ⟨.name s, h, rfl⟩

theorem wordsIn_cons {ws : List String} {t : Token} {ts : List Token} :
    WordsIn ws (t :: ts) ↔ (∀ s, t = .name s → s ∈ ws) ∧ WordsIn ws ts := by
  simp only [WordsIn, List.mem_cons, or_imp, forall_and, eq_comm]

/-! ## The passes ask about words of the text and their own

Throughout, `ws` holds the words of the tokens and those of the reader. -/

section Lookups

variable {ws names names' : List String} {ts : List Token}
variable (hreader : ∀ w ∈ readerWords, w ∈ ws)

include hreader

theorem wordsIn_explicitPowers {names : List String} {after : List Token}
    (h : explicitPowers names ts = .ok after) (hts : WordsIn ws ts) : WordsIn ws after := by
  have hthrough : ∀ {word : String} {content : Token}, word ∈ readerWords →
      (∀ s, content ≠ .name s) → ∀ t ∈ readThrough word content, ∀ s, t = .name s → s ∈ ws := by
    intro word content hword hcontent
    simp [readThrough, hreader word hword, hcontent]
  have hP : HoldsOfReader names fun t => ∀ s, t = .name s → s ∈ ws :=
    { plain := by
        rintro _ hplain s rfl
        cases hplain
      word := fun w hw s heq => Token.name.inj heq ▸ hreader w hw
      whole := by
        intro n s heq
        cases heq
      approximate := by
        intro digits
        rw [approximateTokens]
        split
        · exact hthrough (by simp [readerWords]) (by simp)
        · simp
      unknown := by
        intro word next _
        rw [variableTokens]
        split
        · exact hthrough (by simp [readerWords]) (by simp)
        · split
          · exact hthrough (by simp [readerWords]) (by simp)
          · simp }
  exact fun s hs => forall_explicitPowers hP h (fun t ht s heq => hts s (heq ▸ ht)) _ hs s rfl

/-! ## Agreeing names make the same tokens -/

variable (h : Agree ws names names')

include h

theorem variableTokens_agree (word : String) (next : Token) :
    variableTokens names' word next = variableTokens names word next := by
  rw [variableTokens, variableTokens, h "Symbol" (hreader _ (by simp [readerWords])),
    h "Function" (hreader _ (by simp [readerWords]))]

theorem readWords_agree (before : Token) (hts : WordsIn ws ts) :
    readWords names' before ts = readWords names before ts := by
  induction ts generalizing before with
  | nil => rfl
  | cons t rest ih =>
    obtain ⟨ht, hrest⟩ := wordsIn_cons.1 hts
    cases t with
    | name word =>
      have hkeeps : ∀ next, keepsWord names' before word next = keepsWord names before word next := by
        intro next
        rw [keepsWord, keepsWord, h word (ht word rfl)]
      simp only [readWords, hkeeps, variableTokens_agree hreader h, ih _ hrest]
    | _ => exact congrArg (_ :: ·) (ih _ hrest)

theorem wholeTokens_agree (digits : List Char) :
    wholeTokens names' digits = wholeTokens names digits := by
  simp only [wholeTokens]
  rw [h "Integer" (hreader _ (by simp [readerWords]))]

theorem numeralTokens_agree (s : List Char) :
    numeralTokens names' s = numeralTokens names s := by
  have happrox : ∀ digits, approximateTokens names' digits = approximateTokens names digits := by
    intro digits
    rw [approximateTokens, approximateTokens, h "Float" (hreader _ (by simp [readerWords]))]
  simp only [numeralTokens, happrox, wholeTokens_agree hreader h]

theorem readNumerals_agree (ts : List Token) :
    readNumerals names' ts = readNumerals names ts := by
  simp only [readNumerals, numeralTokens_agree hreader h]

theorem readRepeating_agree (state : Repeating) (seen ts : List Token) :
    readRepeating names' state seen ts = readRepeating names state seen ts := by
  have hclosing : ∀ state t, closing? names' state t = closing? names state t := by
    intro state t
    simp only [closing?, repeatingTokens, wholeTokens_agree hreader h]
  induction ts generalizing state seen with
  | nil => rfl
  | cons t rest ih => simp only [readRepeating_cons, hclosing, ih]

theorem explicitPowers_agree (hts : WordsIn ws ts) :
    explicitPowers names' ts = explicitPowers names ts := by
  rw [explicitPowers, explicitPowers, readWords_agree hreader h _ hts,
    readRepeating_agree hreader h, readNumerals_agree hreader h]

omit hreader in
theorem joinFactors_agree (before : Token) (hts : WordsIn ws ts) :
    joinFactors names' before ts = joinFactors names before ts := by
  induction ts generalizing before with
  | nil => rfl
  | cons t rest ih =>
    obtain ⟨ht, hrest⟩ := wordsIn_cons.1 hts
    have hends : endsFactor names' before t = endsFactor names before t := by
      cases t with
      | name word => simp only [endsFactor, isCallable, h word (ht word rfl)]
      | _ => rfl
    cases rest with
    | nil => rfl
    | cons next rest => rw [joinFactors, joinFactors, hends, ih t hrest]

/-- **The same tokens.** -/
theorem explicit_agree (hts : WordsIn ws ts) : explicit names' ts = explicit names ts := by
  rw [explicit, explicit, explicitPowers_agree hreader h hts]
  cases hp : explicitPowers names ts with
  | error fault => rfl
  | ok us =>
    have hus := wordsIn_explicitPowers hreader hp hts
    simp only [bind, Except.bind, joinFactors_agree h _ hus]

end Lookups

/-! ## The phrase asks about its words -/

mutual

/-- The words of a phrase whose meaning is asked for. -/
def Phrase.words : Phrase → List String
  | .value _ => []
  | .whole _ => []
  | .text q => q.fieldWords?.getD []
  | .name s => [s]
  | .ellipsis => []
  | .unary _ a => a.words
  | .binary _ a b => a.words ++ b.words
  | .both a b => a.words ++ b.words
  | .either a b => a.words ++ b.words
  | .choice condition a b => condition.words ++ (a.words ++ b.words)
  | .compare a rest => a.words ++ wordsOfChain rest
  | .call f args => f.words ++ wordsOfAll args
  | .spread a => a.words
  | .keyword _ a => a.words
  | .index a i => a.words ++ i.words
  | .range first stop step => first.words ++ (stop.words ++ step.words)
  | .part a _ => a.words
  | .items _ xs => wordsOfAll xs
  | .collection xs => wordsOfAll xs
  | .mapping xs => wordsOfAll xs
  | .assign _ a => a.words

/-- The words of several phrases. -/
def wordsOfAll : List Phrase → List String
  | [] => []
  | x :: xs => x.words ++ wordsOfAll xs

/-- The words of the right operands of comparisons. -/
def wordsOfChain : List (Comparison × Phrase) → List String
  | [] => []
  | (_, x) :: rest => x.words ++ wordsOfChain rest

end

/-- Words whose meaning is asked for, with their compatibility forms. -/
def withForms (ws : List String) : List String := ws ++ ws.map Text.compatibilityForm

theorem withForms_append (ws vs : List String) (w : String) :
    w ∈ withForms (ws ++ vs) ↔ w ∈ withForms ws ∨ w ∈ withForms vs := by
  simp only [withForms, List.map_append, List.mem_append]
  exact or_or_or_comm

section

variable {names names' : List String}

theorem agree_withForms_append {ws vs : List String} :
    Agree (withForms (ws ++ vs)) names names' ↔
      Agree (withForms ws) names names' ∧ Agree (withForms vs) names names' := by
  simp only [Agree, withForms_append, or_imp, forall_and]

theorem currentValue_agree {word : String} (h : Agree (withForms [word]) names names') :
    currentValue names' word = currentValue names word := by
  have hword := h word (by simp [withForms])
  have hform := h (Text.compatibilityForm word) (by simp [withForms])
  have hvalue : wordValue names' word = wordValue names word := by
    simp only [wordValue, hword, hform]
  rw [currentValue, currentValue, hvalue]

theorem textValue_agree {q : Quotation}
    (h : Agree (withForms (q.fieldWords?.getD [])) names names') :
    textValue names' q = textValue names q := by
  rw [textValue, textValue]
  cases hw : q.fieldWords? with
  | none => rfl
  | some words =>
    rw [hw] at h
    have hword : ∀ word ∈ words, currentValue names' word = currentValue names word := by
      intro word hmem
      refine currentValue_agree (h.mono fun w hw => ?_)
      simp only [withForms, List.map_cons, List.map_nil, List.mem_append, List.mem_singleton] at hw
      rcases hw with rfl | rfl
      · exact List.mem_append_left _ hmem
      · exact List.mem_append_right _ (List.mem_map_of_mem hmem)
    have hloop :
        (forIn words PUnit.unit fun word _ => do
          let _ ← currentValue names' word
          pure (ForInStep.yield PUnit.unit)) =
        (forIn words PUnit.unit fun word _ => do
          let _ ← currentValue names word
          pure (ForInStep.yield PUnit.unit)) := by
      rw [forIn_eq_forIn', forIn_eq_forIn']
      exact List.forIn'_congr rfl rfl fun word hmem _ => by rw [hword word hmem]
    simp only [hloop]

mutual

/-- A phrase means the same where its words do.  The induction follows the phrase. -/
theorem calculate_agree (read : TextReader) (p : Phrase)
    (h : Agree (withForms p.words) names names') :
    calculate ⟨names', read⟩ p = calculate ⟨names, read⟩ p := by
  cases p with
  | value e => rfl
  | whole n => rfl
  | text q => exact textValue_agree h
  | name s => exact currentValue_agree h
  | ellipsis => rfl
  | unary op a =>
    rw [calculate, calculate, calculate_agree read a h]
  | binary op a b =>
    obtain ⟨ha, hb⟩ := agree_withForms_append.1 h
    rw [calculate, calculate, calculate_agree read a ha, calculate_agree read b hb]
  | both a b =>
    obtain ⟨ha, hb⟩ := agree_withForms_append.1 h
    rw [calculate, calculate, calculate_agree read a ha, calculate_agree read b hb]
  | either a b =>
    obtain ⟨ha, hb⟩ := agree_withForms_append.1 h
    rw [calculate, calculate, calculate_agree read a ha, calculate_agree read b hb]
  | choice c a b =>
    obtain ⟨hc, hab⟩ := agree_withForms_append.1 h
    obtain ⟨ha, hb⟩ := agree_withForms_append.1 hab
    rw [calculate, calculate, calculate_agree read c hc, calculate_agree read a ha,
      calculate_agree read b hb]
  | compare a rest =>
    obtain ⟨ha, hrest⟩ := agree_withForms_append.1 h
    rw [calculate, calculate, calculate_agree read a ha]
    simp only [calculateChain_agree read rest hrest]
  | call f args =>
    obtain ⟨hf, hargs⟩ := agree_withForms_append.1 h
    rw [calculate, calculate, calculate_agree read f hf, calculateArguments_agree read args hargs]
  | spread a => rfl
  | keyword name a => rfl
  | index a i =>
    obtain ⟨ha, hi⟩ := agree_withForms_append.1 h
    rw [calculate, calculate, calculate_agree read a ha, calculate_agree read i hi]
  | range first stop step =>
    obtain ⟨hfirst, hrest⟩ := agree_withForms_append.1 h
    obtain ⟨hstop, hstep⟩ := agree_withForms_append.1 hrest
    rw [calculate, calculate, calculate_agree read first hfirst, calculate_agree read stop hstop,
      calculate_agree read step hstep]
  | part a name => rw [calculate, calculate, calculate_agree read a h]
  | items isList xs => rw [calculate, calculate, calculateAll_agree read xs h]
  | collection xs => rw [calculate, calculate, calculateAll_agree read xs h]
  | mapping xs => rw [calculate, calculate, calculateAll_agree read xs h]
  | assign name a => rw [calculate, calculate, calculate_agree read a h]

theorem calculateAll_agree (read : TextReader) (ps : List Phrase)
    (h : Agree (withForms (wordsOfAll ps)) names names') :
    calculateAll ⟨names', read⟩ ps = calculateAll ⟨names, read⟩ ps := by
  cases ps with
  | nil => rfl
  | cons p rest =>
    obtain ⟨hp, hrest⟩ := agree_withForms_append.1 h
    have ih := calculateAll_agree read rest hrest
    cases p with
    | spread a =>
      have ha := calculate_agree read a hp
      simp only [calculateAll, ha, ih]
    | _ =>
      have ha := calculate_agree read _ hp
      simp only [calculateAll, ha, ih]

theorem calculateArguments_agree (read : TextReader) (ps : List Phrase)
    (h : Agree (withForms (wordsOfAll ps)) names names') :
    calculateArguments ⟨names', read⟩ ps = calculateArguments ⟨names, read⟩ ps := by
  cases ps with
  | nil => rfl
  | cons p rest =>
    obtain ⟨hp, hrest⟩ := agree_withForms_append.1 h
    have ih := calculateArguments_agree read rest hrest
    cases p with
    | spread a =>
      have ha := calculate_agree read a hp
      simp only [calculateArguments, ha, ih]
    | keyword name a =>
      have ha := calculate_agree read a hp
      simp only [calculateArguments, ha, ih]
    | _ =>
      have ha := calculate_agree read _ hp
      simp only [calculateArguments, ha, ih]

theorem calculateChain_agree (read : TextReader) (rest : List (Comparison × Phrase))
    (h : Agree (withForms (wordsOfChain rest)) names names') (a : Value) :
    calculateChain ⟨names', read⟩ a rest = calculateChain ⟨names, read⟩ a rest := by
  cases rest with
  | nil => rfl
  | cons c rest =>
    obtain ⟨c, x⟩ := c
    obtain ⟨hx, hrest⟩ := agree_withForms_append.1 h
    have hx := calculate_agree read x hx
    have ih := calculateChain_agree read rest hrest
    rw [calculateChain, calculateChain, hx]
    cases rest with
    | nil => rfl
    | cons d rest => simp only [ih]

end

end

/-! ## Reading a text -/

/-- **The words that the reading of a text looks up**, where some names are given: those of the
text, those of the reader, and those of the phrase that comes out, with their compatibility
forms. -/
def sought (source : String) (names : List String) : List String :=
  match Token.scan source with
  | none => []
  | some ts =>
    wordsOf ts ++ readerWords ++
      match explicit names ts with
      | .error _ => []
      | .ok us => ((Phrase.ofTokens? us).map fun p => withForms p.words).getD []

/-- **Names that agree on all words that are looked up are read alike.** -/
theorem parse_agree {source : String} {names names' : List String}
    (h : Agree (sought source names) names names')
    (hempty : names'.contains "" = names.contains "") :
    parse source names' = parse source names := by
  have hvalue : valueOf explicit (source.length + 1) source names' =
      valueOf explicit (source.length + 1) source names := by
    rw [valueOf, valueOf]
    rw [sought] at h
    cases hts : Token.scan source with
    | none => rfl
    | some ts =>
      simp only [hts] at h ⊢
      have hwords : WordsIn (wordsOf ts ++ readerWords) ts := fun s hs =>
        List.mem_append_left _ (wordsIn_wordsOf ts s hs)
      have htokens : Agree (wordsOf ts ++ readerWords) names names' :=
        h.mono fun w hw => List.mem_append_left _ hw
      rw [explicit_agree (fun w hw => List.mem_append_right _ hw) htokens hwords]
      cases hus : explicit names ts with
      | error fault => rfl
      | ok us =>
        simp only [hus] at h
        simp only [bind, Except.bind]
        cases hp : Phrase.ofTokens? us with
        | none => rfl
        | some p =>
          have hphrase : Agree (withForms p.words) names names' := h.mono fun w hw => by
            refine List.mem_append_right _ ?_
            simpa [hp] using hw
          simp only [meaningOf]
          rw [calculate_agree _ p hphrase]
  rw [parse, parse, hempty, hvalue]

/-- A name that is not looked up makes no difference. -/
theorem parse_append {source n : String} {names : List String} (hne : n ≠ "")
    (h : n ∉ sought source names) : parse source (names ++ [n]) = parse source names := by
  refine parse_agree (agree_append h) ?_
  simp [List.contains_eq_mem, Ne.symm hne]

end ErrorBars.Formula
