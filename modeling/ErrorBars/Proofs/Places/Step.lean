import ErrorBars.Proofs.Places.Rest

/-!
# One step of scanning

`Token.scanFrom` gives the tokens of a text, but not where they stand.  `Token.step` is what it does
before it goes on with the rest of a text: it makes tokens out of the head of the text
(`scanFrom_succ`).  `fits_step` is all that is needed about places: what is left is the end of the
text, and a step that makes a name takes a whole word and nothing else.
-/

set_option autoImplicit false

namespace ErrorBars.Formula

variable {rest : List Char}

namespace Token

/-! ## Steps -/

/-- What scanning does before it goes on. -/
inductive Step where
  /-- the text ends: its last tokens, or none if it cannot be read -/
  | last (ts : Option (List Token))
  /-- tokens, what is open behind them, and what is left of the text -/
  | next (ts : List Token) (state : ScanState) (rest : List Char)

/-- The step at the first column of a line. -/
def lineStep (state : ScanState) (blanks body : List Char) : Step :=
  match body with
  | [] => .last (some [])
  | c :: _ =>
    if c = '#' then .next [.gap] state ((lineEnd? (skipComment body)).getD (skipComment body))
    else
      match lineEnd? body with
      | some after => .next [.gap] state after
      | none =>
        .next (if blanks.isEmpty then [] else [.indent]) { state with lineStart := false } body

/-- The step at a character that begins no token. -/
def strayStep (state : ScanState) (blanks : List Char) (c : Char) (rest : List Char) : Step :=
  if blanks.isEmpty then .next [.stray c] state rest
  else .next (blanks.map Token.stray) state (c :: rest)

/-- The step at a character that begins no numeral and no operator. -/
def wordStep (state : ScanState) (blanks : List Char) (c : Char) (rest : List Char) : Step :=
  if Text.isWordChar c then
    let word := String.ofList ((c :: rest).takeWhile Text.isWordChar)
    .next [if Text.startsIdentifier c then .name word else .op word] state
      ((c :: rest).dropWhile Text.isWordChar)
  else
    match if c = '\\' then lineEnd? rest else none with
    | some after => .next [] state after
    | none => strayStep state blanks c rest

/-- The step at a character that ends no line. -/
def bodyStep (state : ScanState) (blanks : List Char) (c : Char) (rest : List Char) : Step :=
  if c = '#' then .next [.gap] state (skipComment rest)
  else
    match Quotation.scan (c :: rest) with
    | .unclosed => .last none
    | .found quotation after =>
      .next [(quotation.map Token.text).getD (.stray '\\')] state after
    | .absent =>
      match numeralRun? (c :: rest) with
      | some (run, after) => .next [.numeral run] state after
      | none =>
        match operatorRun? (c :: rest) with
        | some (s, after) => .next [.op s] { state with depth := state.depth + depthChange s } after
        | none => wordStep state blanks c rest

/-- The step at a text that begins with no blank; `blanks` stand in front of it. -/
def step (state : ScanState) (blanks body : List Char) : Step :=
  if state.lineStart then lineStep state blanks body
  else
    match lineEnd? body with
    | some after =>
      if 0 < state.depth then .next [.gap] state after
      else .next [.newline] { state with lineStart := state.depth = 0 } after
    | none =>
      match body with
      | [] => .last (if state.depth = 0 then some [.newline] else none)
      | c :: rest => bodyStep state blanks c rest

/-- The tokens of a step and of what `scan` makes of the rest. -/
def Step.tokens? (scan : ScanState → List Char → Option (List Token)) :
    Step → Option (List Token)
  | last ts => ts
  | next ts state rest => (scan state rest).map (ts ++ ·)

theorem map_nil_append (ts : Option (List Token)) : ts.map ([] ++ ·) = ts := by
  cases ts <;> rfl

/-- **Scanning goes step by step.** -/
theorem scanFrom_succ (fuel : ℕ) (state : ScanState) (cs : List Char) :
    scanFrom (fuel + 1) state cs =
      (step state (cs.takeWhile isSpace) (cs.dropWhile isSpace)).tokens? (scanFrom fuel) := by
  rw [scanFrom]
  generalize cs.takeWhile isSpace = blanks, cs.dropWhile isSpace = body
  unfold step
  simp only
  by_cases hline : state.lineStart = true
  · rw [if_pos hline, if_pos hline]
    cases body with
    | nil => rfl
    | cons c rest =>
      by_cases hc : c = '#'
      · subst hc
        rfl
      · rw [lineStep, if_neg hc]
        cases hend : lineEnd? (c :: rest) with
        | some after => 
          split
          · contradiction
          · rename_i heq
            exact absurd (List.cons.inj heq).1 hc
          · rfl
        | none => 
          split
          · contradiction
          · rename_i heq
            exact absurd (List.cons.inj heq).1 hc
          · cases blanks with
            | nil => exact (map_nil_append _).symm
            | cons => rfl
  · rw [if_neg hline, if_neg hline]
    cases hend : lineEnd? body with
    | some after => by_cases hdepth : 0 < state.depth <;> simp [hdepth] <;> rfl
    | none =>
      cases body with
      | nil => rfl
      | cons c rest =>
        simp only [bodyStep]
        by_cases hc : c = '#'
        · simp [hc]; rfl
        · rw [if_neg hc, if_neg hc]
          cases hquote : Quotation.scan (c :: rest) with
          | unclosed => rfl
          | found quotation after => rfl
          | absent =>
            cases hnumeral : numeralRun? (c :: rest) with
            | some found => rfl
            | none =>
              cases hoperator : operatorRun? (c :: rest) with
              | some found => rfl
              | none =>
                simp only [wordStep]
                by_cases hword : Text.isWordChar c = true
                · rw [if_pos hword, if_pos hword]
                  rfl
                · rw [if_neg hword, if_neg hword]
                  have hstray : ∀ blanks : List Char,
                      (if blanks.isEmpty then (scanFrom fuel state rest).map (stray c :: ·)
                        else (scanFrom fuel state (c :: rest)).map (blanks.map stray ++ ·)) =
                      (strayStep state blanks c rest).tokens? (scanFrom fuel) := by
                    intro blanks
                    cases blanks <;> rfl
                  by_cases hslash : c = '\\'
                  · subst hslash
                    rw [if_pos rfl]
                    cases hafter : lineEnd? rest with
                    | none => exact hstray blanks
                    | some after => exact (map_nil_append _).symm
                  · rw [if_neg hslash]
                    split
                    · contradiction
                    · exact hstray blanks


/-! ## What a step takes -/

/-- The characters are a word that begins a name, and no word goes on behind it. -/
structure IsWord (chars rest : List Char) : Prop where
  /-- a name may begin with the first character -/
  starts : ∃ c ∈ chars.head?, Text.startsIdentifier c = true
  /-- all characters are letters, numerals and underscores -/
  isWordChar : ∀ c ∈ chars, Text.isWordChar c = true
  /-- no such character follows -/
  ends : ∀ c ∈ rest.head?, Text.isWordChar c = false

/-- A step leaves the end of the text; it makes a name of a word alone, and ends where nothing is
left. -/
def Step.Fits (body : List Char) : Step → Prop
  | last ts => ∀ us, ts = some us → body = [] ∧ ∀ s, us ≠ [.name s]
  | next ts _ rest =>
    rest <:+ body ∧ ∀ s, ts = [.name s] → body = s.toList ++ rest ∧ IsWord s.toList rest

variable {state : ScanState} {blanks body : List Char}

/-- A step that makes no name fits if it leaves the end of the text. -/
theorem Step.Fits.of_suffix {ts : List Token} (hrest : rest <:+ body)
    (hts : ∀ s, ts ≠ [.name s]) : (Step.next ts state rest).Fits body :=
  ⟨hrest, fun s hs => absurd hs (hts s)⟩

theorem fits_lineStep : (lineStep state blanks body).Fits body := by
  unfold lineStep
  split
  · rintro us ⟨⟩
    exact ⟨rfl, nofun⟩
  · split
    · refine .of_suffix ?_ nofun
      cases hend : lineEnd? (skipComment _) with
      | none => exact skipComment_suffix _
      | some after => exact (lineEnd?_suffix hend).trans (skipComment_suffix _)
    · split
      · rename_i hend
        exact .of_suffix (lineEnd?_suffix hend) nofun
      · refine .of_suffix List.suffix_rfl fun s => ?_
        split <;> nofun

theorem fits_wordStep (c : Char) : (wordStep state blanks c rest).Fits (c :: rest) := by
  unfold wordStep
  split
  · rename_i hword
    refine ⟨List.dropWhile_suffix _, fun s hs => ?_⟩
    split at hs
    · rename_i hstart
      obtain rfl := Token.name.inj (List.cons.inj hs).1
      rw [String.toList_ofList]
      refine ⟨List.takeWhile_append_dropWhile.symm, ⟨c, ?_, hstart⟩, fun d => ?_, fun d hd => ?_⟩
      · rw [List.takeWhile_cons_of_pos hword]
        rfl
      · exact List.all_eq_true.1 List.all_takeWhile d
      · have hnot := List.head?_dropWhile_not Text.isWordChar (c :: rest)
        rw [Option.mem_def.1 hd] at hnot
        exact hnot
    · cases hs
  · split
    · rename_i hafter
      split at hafter
      · exact .of_suffix ((lineEnd?_suffix hafter).trans (List.suffix_cons c rest)) nofun
      · contradiction
    · rw [strayStep]
      split
      · exact .of_suffix (List.suffix_cons c rest) nofun
      · refine .of_suffix List.suffix_rfl fun s hs => ?_
        cases blanks <;> cases hs

theorem fits_bodyStep (c : Char) : (bodyStep state blanks c rest).Fits (c :: rest) := by
  unfold bodyStep
  split
  · exact .of_suffix ((skipComment_suffix rest).trans (List.suffix_cons c rest)) nofun
  · split
    · nofun
    · rename_i quotation after hquote
      refine .of_suffix (Quotation.scan_suffix hquote) fun s => ?_
      cases quotation <;> nofun
    · split
      · rename_i hnumeral
        exact .of_suffix (numeralRun?_suffix hnumeral) nofun
      · split
        · rename_i hoperator
          exact .of_suffix (operatorRun?_suffix hoperator) nofun
        · exact fits_wordStep c

theorem fits_step : (step state blanks body).Fits body := by
  unfold step
  split
  · exact fits_lineStep
  · split
    · rename_i hend
      split <;> exact .of_suffix (lineEnd?_suffix hend) nofun
    · split
      · rintro us hus
        split at hus
        · cases hus
          exact ⟨rfl, nofun⟩
        · contradiction
      · exact fits_bodyStep _

end Token

end ErrorBars.Formula
