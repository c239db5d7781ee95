import ErrorBars.Proofs.Arithmetic.Basic

/-!
# Rows of tokens as phrases

The grammar reads a phrase by descending through its levels, from the loosest operator to what
stands alone.  For each rank of a written formula, `Reads` says what the step of that level does
with its tokens, whatever stands behind them: it takes them all and stops (`Stops`), or, between
operators that group to the left, it goes on from the phrase read so far (`ReadsChain`).

There is one lemma for each way of writing (`ReadsAtom.raised`, `ReadsSign.minus`,
`ReadsChain.multiplied`, `ReadsChain.added`, `ReadsChain.parentheses`), and an induction on the
writing puts them together (`Writes.reads`).
-/

set_option autoImplicit false

namespace ErrorBars.Formula

/-- The phrase of a tree. -/
def Arithmetic.phrase : Arithmetic → Phrase
  | literal n => .value (Expr.int n)
  | word s => .name s
  | add a b => .binary .add a.phrase b.phrase
  | sub a b => .binary .sub a.phrase b.phrase
  | mul a b => .binary .mul a.phrase b.phrase
  | div a b => .binary .div a.phrase b.phrase
  | neg a => .unary .minus a.phrase
  | pow a negative n =>
    .binary .power a.phrase
      (if negative then .unary .minus (.value (Expr.int n)) else .value (Expr.int n))

theorem Arithmetic.phrase_pow (a : Arithmetic) (negative : Bool) (n : ℕ) :
    (pow a negative n).phrase = .binary .power a.phrase (exponent negative n).phrase := by
  cases negative <;> rfl

/-- The token that the grammar sees. -/
def Lexeme.token : Lexeme → Token
  | numeral n => .value (Expr.int n)
  | word s => .name s
  | plus => .op "+"
  | minus => .op "-"
  | times | juxtaposed => .op "*"
  | divided => .op "/"
  | power _ => .op "**"
  | opening => .op "("
  | closing => .op ")"

/-! ## Where a phrase ends -/

/-- The tokens behind a phrase, if the operators among them that could take it as their left operand
bind no tighter than a level. -/
inductive Stops (level : ℕ) : List Token → Prop where
  | nil : Stops level []
  | closing (rest : List Token) : Stops level (.op ")" :: rest)
  | additive {s : String} (h : s = "+" ∨ s = "-") (low : 8 ≤ level) (rest : List Token) :
      Stops level (.op s :: rest)
  | multiplicative {s : String} (h : s = "*" ∨ s = "/") (low : 9 ≤ level) (rest : List Token) :
      Stops level (.op s :: rest)

variable {fuel level k n : ℕ} {ts rest : List Token} {p q : Phrase} {ls rs : List Lexeme}
  {result : Option (Phrase × List Token)} {s : String}

theorem Stops.mono (h : Stops k rest) (hk : k ≤ level) : Stops level rest := by
  cases h with
  | nil => exact .nil
  | closing rest => exact .closing rest
  | additive h low rest => exact .additive h (low.trans hk) rest
  | multiplicative h low rest => exact .multiplicative h (low.trans hk) rest

theorem readOperators_of_stops (h : Stops k rest) (hk : k < 8 ∨ k < level) (p : Phrase) :
    readOperators (fuel + 1) level p rest = some (p, rest) := by
  cases h with
  | nil => rfl
  | closing rest => rfl
  | additive h low rest =>
    have hlevel : ¬ level ≤ 8 := by omega
    rcases h with rfl | rfl <;> exact if_neg hlevel
  | multiplicative h low rest =>
    have hlevel : ¬ level ≤ 9 := by omega
    rcases h with rfl | rfl <;> exact if_neg hlevel

theorem readTrailers_of_stops (h : Stops k rest) (p : Phrase) :
    readTrailers (fuel + 1) p rest = some (p, rest) := by
  cases h with
  | nil => rfl
  | closing rest => rfl
  | additive h low rest => rcases h with rfl | rfl <;> rfl
  | multiplicative h low rest => rcases h with rfl | rfl <;> rfl

theorem Stops.ne_naming (h : Stops k ts) (us : List Token) : ts ≠ .op ":=" :: us := by
  cases h with
  | nil => simp
  | closing rest => simp
  | additive h low rest => rcases h with rfl | rfl <;> simp
  | multiplicative h low rest => rcases h with rfl | rfl <;> simp

/-! ## Ranks -/

/-- Tokens that are read as an atom. -/
def ReadsAtom (p : Phrase) (ts : List Token) : Prop :=
  ∀ fuel rest, 8 * ts.length ≤ fuel + 6 → readAtom fuel (ts ++ rest) = some (p, rest)

/-- Tokens that are read as a power, or as what can be the base of one. -/
def ReadsPower (p : Phrase) (ts : List Token) : Prop :=
  ∀ fuel rest, 8 * ts.length ≤ fuel + 5 → Stops 9 rest →
    readPower fuel (ts ++ rest) = some (p, rest)

/-- Tokens that are read as an operand with its signs. -/
def ReadsSign (p : Phrase) (ts : List Token) : Prop :=
  ∀ fuel level rest, 8 * ts.length ≤ fuel + 4 → Stops 9 rest →
    readOperand fuel level (ts ++ rest) = some (p, rest)

/-- Tokens that are read as operands with the operators of at least a level between them.  What
follows decides how reading goes on. -/
def ReadsChain (loosest : ℕ) (p : Phrase) (ts : List Token) : Prop :=
  ∀ n level rest result, level ≤ loosest → Stops loosest rest →
    (∀ fuel, n ≤ fuel → readOperators fuel level p rest = result) →
    ∀ fuel, 8 * ts.length + n ≤ fuel + 3 → readFrom fuel level (ts ++ rest) = result

/-- Tokens that are read as a phrase of a rank. -/
def Reads : Rank → Phrase → List Token → Prop
  | .atom => ReadsAtom
  | .power => ReadsPower
  | .sign => ReadsSign
  | .product => ReadsChain 9
  | .sum => ReadsChain 8

theorem readsAtom_value (e : Expr) : ReadsAtom (.value e) [.value e] := by
  intro fuel rest hfuel
  obtain ⟨fuel, rfl⟩ : ∃ f, fuel = f + 1 :=
    Nat.exists_eq_add_one_of_ne_zero (by simp at hfuel; omega)
  rfl

theorem readsAtom_name (hs : isOperandWord s = true) : ReadsAtom (.name s) [.name s] := by
  intro fuel rest hfuel
  obtain ⟨fuel, rfl⟩ : ∃ f, fuel = f + 1 :=
    Nat.exists_eq_add_one_of_ne_zero (by simp at hfuel; omega)
  exact if_pos hs

/-- The first token of an operand without a sign. -/
inductive StartsPlain : List Token → Prop where
  | value (e : Expr) (rest : List Token) : StartsPlain (.value e :: rest)
  | name {s : String} (h : isOperandWord s = true) (rest : List Token) :
      StartsPlain (.name s :: rest)
  | opening (rest : List Token) : StartsPlain (.op "(" :: rest)

theorem StartsPlain.append (h : StartsPlain ts) (rest : List Token) : StartsPlain (ts ++ rest) := by
  cases h with
  | value e us => exact .value e _
  | name h us => exact .name h _
  | opening us => exact .opening _

theorem StartsPlain.length_pos (h : StartsPlain ts) : 0 < ts.length := by
  cases h <;> exact Nat.succ_pos _

theorem ne_not (h : isOperandWord s = true) : s ≠ "not" := by
  rintro rfl
  revert h
  decide

theorem readOperand_of_startsPlain (h : StartsPlain ts) :
    readOperand (fuel + 1) level ts = readPower fuel ts := by
  cases h with
  | value e rest => rfl
  | name h rest => rw [readOperand] <;> simp [ne_not h]
  | opening rest => rfl

theorem ReadsAtom.power (h : ReadsAtom p ts) (hts : 0 < ts.length) : ReadsPower p ts := by
  intro fuel rest hfuel hrest
  obtain ⟨fuel, rfl⟩ : ∃ f, fuel = f + 1 + 1 := ⟨fuel - 2, by omega⟩
  rw [readPower, h _ _ (by omega), Option.bind_eq_bind, Option.bind_some]
  dsimp only
  rw [readTrailers_of_stops hrest]
  cases hrest with
  | nil => rfl
  | closing rest => rfl
  | additive h low rest => rcases h with rfl | rfl <;> rfl
  | multiplicative h low rest => rcases h with rfl | rfl <;> rfl

theorem ReadsAtom.raised {us : List Token} (h : ReadsAtom p ts) (hts : 0 < ts.length)
    (hq : ReadsSign q us) : ReadsPower (.binary .power p q) (ts ++ .op "**" :: us) := by
  intro fuel rest hfuel hrest
  simp only [List.length_append, List.length_cons] at hfuel
  obtain ⟨fuel, rfl⟩ : ∃ f, fuel = f + 1 + 1 := ⟨fuel - 2, by omega⟩
  rw [List.append_assoc, readPower, h _ _ (by omega), Option.bind_eq_bind, Option.bind_some]
  have htrailers : readTrailers (fuel + 1) p (.op "**" :: us ++ rest) =
      some (p, .op "**" :: us ++ rest) := rfl
  dsimp only
  rw [htrailers]
  show (readOperand (fuel + 1) signLevel (us ++ rest)).bind _ = _
  rw [hq _ _ _ (by omega) hrest]
  rfl

theorem ReadsPower.sign (h : ReadsPower p ts) (hts : StartsPlain ts) : ReadsSign p ts := by
  intro fuel level rest hfuel hrest
  have hpos := hts.length_pos
  obtain ⟨fuel, rfl⟩ : ∃ f, fuel = f + 1 := ⟨fuel - 1, by omega⟩
  rw [readOperand_of_startsPlain (hts.append rest)]
  exact h _ _ (by omega) hrest

theorem ReadsSign.minus (h : ReadsSign p ts) : ReadsSign (.unary .minus p) (.op "-" :: ts) := by
  intro fuel level rest hfuel hrest
  rw [List.length_cons] at hfuel
  obtain ⟨fuel, rfl⟩ : ∃ f, fuel = f + 1 := ⟨fuel - 1, by omega⟩
  show (readOperand fuel signLevel (ts ++ rest)).bind _ = _
  rw [h _ _ _ (by omega) hrest]
  rfl

theorem ReadsSign.chain (h : ReadsSign p ts) (hts : 0 < ts.length) : ReadsChain 9 p ts := by
  intro n level rest result _ hrest hafter fuel hfuel
  obtain ⟨fuel, rfl⟩ : ∃ f, fuel = f + 1 := ⟨fuel - 1, by omega⟩
  rw [readFrom, h _ _ _ (by omega) hrest]
  exact hafter fuel (by omega)

/-- A chain that is followed by nothing that belongs to it. -/
theorem ReadsChain.alone (h : ReadsChain k p ts) (hlevel : level ≤ k) (hrest : Stops n rest)
    (hn : n ≤ k) (hends : n < 8 ∨ n < level) (hfuel : 8 * ts.length ≤ fuel + 2) :
    readFrom fuel level (ts ++ rest) = some (p, rest) := by
  refine h 1 level rest _ hlevel (hrest.mono hn) (fun fuel hpos => ?_) fuel (by omega)
  obtain ⟨fuel, rfl⟩ : ∃ f, fuel = f + 1 := ⟨fuel - 1, by omega⟩
  exact readOperators_of_stops hrest hends p

/-- A chain with one more operand behind it.  `tight` is the level of the operator. -/
theorem ReadsChain.next {us : List Token} {op : BinaryOp} (h : ReadsChain k p ts)
    (hop : ∀ fuel level p ts, level ≤ k → readOperators (fuel + 1) level p (.op s :: ts) =
      (readFrom fuel (k + 1) ts).bind fun r => readOperators fuel level (.binary op p r.1) r.2)
    (hstops : ∀ ts, Stops k (.op s :: ts))
    (hright : ∀ fuel rest, 8 * us.length ≤ fuel + 2 → Stops k rest →
      readFrom fuel (k + 1) (us ++ rest) = some (q, rest)) :
    ReadsChain k (.binary op p q) (ts ++ .op s :: us) := by
  intro n level rest result hlevel hrest hafter fuel hfuel
  simp only [List.length_append, List.length_cons] at hfuel
  rw [List.append_assoc]
  refine h (8 * us.length + n + 1) level _ result hlevel (hstops _) (fun fuel hfuel => ?_) fuel
    (by omega)
  obtain ⟨fuel, rfl⟩ : ∃ f, fuel = f + 1 := ⟨fuel - 1, by omega⟩
  show readOperators (fuel + 1) level p (.op s :: (us ++ rest)) = result
  rw [hop _ _ _ _ hlevel, hright _ _ (by omega) hrest]
  exact hafter fuel (by omega)

/-- How an operator takes a phrase on its left. -/
theorem readOperators_op {op : BinaryOp} (hs : binaryLevel? s = some (op, k))
    (hc : comparison? (.op s :: ts) = none) (hlevel : level ≤ k) :
    readOperators (fuel + 1) level p (.op s :: ts) =
      (readFrom fuel (k + 1) ts).bind fun r => readOperators fuel level (.binary op p r.1) r.2 := by
  rw [readOperators]
  · rw [hc]
    dsimp only
    rw [hs]
    exact if_pos hlevel

theorem ReadsChain.multiplied {us : List Token} {op : BinaryOp} (h : ReadsChain 9 p ts)
    (hq : ReadsSign q us) (hus : 0 < us.length) (hs : s = "*" ∧ op = .mul ∨ s = "/" ∧ op = .div) :
    ReadsChain 9 (.binary op p q) (ts ++ .op s :: us) := by
  refine h.next (fun fuel level p ts hlevel => readOperators_op ?_ ?_ hlevel) (fun ts => ?_) ?_
  · rcases hs with ⟨rfl, rfl⟩ | ⟨rfl, rfl⟩ <;> rfl
  · rcases hs with ⟨rfl, rfl⟩ | ⟨rfl, rfl⟩ <;> rfl
  · exact .multiplicative (hs.imp And.left And.left) le_rfl ts
  · intro fuel rest hfuel hrest
    obtain ⟨fuel, rfl⟩ : ∃ f, fuel = f + 1 + 1 := ⟨fuel - 2, by omega⟩
    rw [readFrom, hq _ _ _ (by omega) hrest]
    exact readOperators_of_stops hrest (.inr (by omega)) q

theorem ReadsChain.added {us : List Token} {op : BinaryOp} (h : ReadsChain 8 p ts)
    (hq : ReadsChain 9 q us) (hs : s = "+" ∧ op = .add ∨ s = "-" ∧ op = .sub) :
    ReadsChain 8 (.binary op p q) (ts ++ .op s :: us) := by
  refine h.next (fun fuel level p ts hlevel => readOperators_op ?_ ?_ hlevel) (fun ts => ?_) ?_
  · rcases hs with ⟨rfl, rfl⟩ | ⟨rfl, rfl⟩ <;> rfl
  · rcases hs with ⟨rfl, rfl⟩ | ⟨rfl, rfl⟩ <;> rfl
  · exact .additive (hs.imp And.left And.left) le_rfl ts
  · exact fun fuel rest hfuel hrest =>
      hq.alone le_rfl hrest (by omega) (.inr (by omega)) hfuel

theorem ReadsChain.loosen (h : ReadsChain 9 p ts) : ReadsChain 8 p ts :=
  fun n level rest result hlevel hrest => h n level rest result (by omega) (hrest.mono (by omega))

/-- An operand begins with a plain one or with a sign. -/
inductive StartsOperand : List Token → Prop where
  | plain {ts : List Token} (h : StartsPlain ts) : StartsOperand ts
  | minus (rest : List Token) : StartsOperand (.op "-" :: rest)

theorem StartsOperand.append (h : StartsOperand ts) (rest : List Token) :
    StartsOperand (ts ++ rest) := by
  cases h with
  | plain h => exact .plain (h.append rest)
  | minus us => exact .minus _

theorem StartsOperand.length_pos (h : StartsOperand ts) : 0 < ts.length := by
  cases h with
  | plain h => exact h.length_pos
  | minus rest => simp

theorem readItem_of_startsOperand (h : StartsOperand ts) (hnaming : .op ":=" ∉ ts)
    (hrest : Stops 0 rest) : readItem (fuel + 1) (ts ++ rest) = readFrom fuel 0 (ts ++ rest) := by
  cases h with
  | minus us => rfl
  | plain h =>
    cases h with
    | value e us => rfl
    | opening us => rfl
    | name h us =>
      rw [readItem]
      · simp
      · -- a name could get a value here
        rintro t vs heq
        obtain ⟨-, htail⟩ := List.cons.inj heq
        cases us with
        | nil => exact hrest.ne_naming vs htail
        | cons u us =>
          obtain ⟨rfl, -⟩ := List.cons.inj htail
          exact hnaming (by simp)

theorem ReadsChain.items (h : ReadsChain 8 p ts) (hts : StartsOperand ts)
    (hnaming : .op ":=" ∉ ts) (hrest : Stops 0 rest) (hfuel : 8 * ts.length ≤ fuel) :
    readItems fuel (ts ++ rest) = some (([p], false), rest) := by
  have hpos := hts.length_pos
  obtain ⟨fuel, rfl⟩ : ∃ f, fuel = f + 1 + 1 := ⟨fuel - 2, by omega⟩
  rw [readItems, readItem_of_startsOperand hts hnaming hrest,
    h.alone (Nat.zero_le _) hrest (Nat.zero_le _) (.inl (by omega)) (by omega)]
  cases hrest with
  | nil => rfl
  | closing rest => rfl
  | additive h low rest => omega
  | multiplicative h low rest => omega

theorem readAtom_opening (hts : StartsOperand ts) :
    readAtom (fuel + 1) (.op "(" :: ts) = (readItems fuel ts).bind fun r =>
      match r.2 with
      | .op ")" :: rest =>
        match r.1.1, r.1.2 with
        | [.spread _], false => none
        | [x], false => some (x, rest)
        | xs, _ => some (.items false xs, rest)
      | _ => none := by
  cases hts with
  | minus us => rfl
  | plain h => cases h <;> rfl

theorem ReadsChain.parentheses (h : ReadsChain 8 p ts) (hts : StartsOperand ts)
    (hnaming : .op ":=" ∉ ts) (hp : ∀ a, p ≠ .spread a) :
    ReadsAtom p (.op "(" :: ts ++ [.op ")"]) := by
  intro fuel rest hfuel
  simp only [List.length_append, List.length_cons, List.length_nil] at hfuel
  obtain ⟨fuel, rfl⟩ : ∃ f, fuel = f + 1 := ⟨fuel - 1, by omega⟩
  rw [List.append_assoc, List.cons_append, readAtom_opening (hts.append _), List.singleton_append,
    h.items hts hnaming (.closing rest) (by omega), Option.bind_some]
  cases p with
  | spread a => exact absurd rfl (hp a)
  | _ => rfl

/-! ## Written formulas -/

theorem Lexeme.startsPlain_token {l : Lexeme} (h : l.startsPlain = true)
    (hw : ∀ s, .word s = l → isOperandWord s = true) (ts : List Token) :
    StartsPlain (l.token :: ts) := by
  cases l with
  | numeral n => exact .value _ ts
  | word s => exact .name (hw s rfl) ts
  | opening => exact .opening ts
  | _ => cases h

theorem Lexeme.startsOperand_token {l : Lexeme} (h : l.startsOperand = true)
    (hw : ∀ s, .word s = l → isOperandWord s = true) (ts : List Token) :
    StartsOperand (l.token :: ts) := by
  rcases Bool.or_eq_true _ _ ▸ h with h | h
  · exact .plain (l.startsPlain_token h hw ts)
  · rw [beq_iff_eq.1 h]
    exact .minus ts

theorem Lexeme.token_ne_naming (l : Lexeme) : l.token ≠ .op ":=" := by
  cases l <;> simp [token]

theorem Arithmetic.phrase_ne_spread (t : Arithmetic) (a : Phrase) : t.phrase ≠ .spread a := by
  cases t <;> simp [phrase]

namespace Writes

variable {d : ℕ} {r : Rank} {t : Arithmetic}

theorem startsOperand (h : Writes d r t ls) (hw : ∀ s, .word s ∈ ls → isOperandWord s = true) :
    StartsOperand (ls.map Lexeme.token) := by
  obtain ⟨l, rs, rfl, hl⟩ := h.head
  exact l.startsOperand_token hl (fun s hs => hw s (hs ▸ List.mem_cons_self)) _

theorem startsPlain (h : Writes d r t ls) (hr : r = .power ∨ r = .atom)
    (hw : ∀ s, .word s ∈ ls → isOperandWord s = true) : StartsPlain (ls.map Lexeme.token) := by
  obtain ⟨l, rs, rfl, hl⟩ := h.head_plain hr
  exact l.startsPlain_token hl (fun s hs => hw s (hs ▸ List.mem_cons_self)) _

theorem naming_not_mem (ls : List Lexeme) : .op ":=" ∉ ls.map Lexeme.token := by
  intro h
  obtain ⟨l, -, hl⟩ := List.mem_map.1 h
  exact l.token_ne_naming hl

theorem length_pos (h : Writes d r t ls) : 0 < (ls.map Lexeme.token).length := by
  obtain ⟨l, rs, rfl, -⟩ := h.head
  exact Nat.succ_pos _

/-- What holds of all words holds of those on both sides of a lexeme. -/
theorem words_append {l : Lexeme} (hw : ∀ s, .word s ∈ ls ++ l :: rs → isOperandWord s = true) :
    (∀ s, .word s ∈ ls → isOperandWord s = true) ∧
      (∀ s, .word s ∈ rs → isOperandWord s = true) :=
  ⟨fun s hs => hw s (List.mem_append_left _ hs),
    fun s hs => hw s (List.mem_append_right _ (List.mem_cons_of_mem _ hs))⟩

/-- **A written formula is read as the phrase of its tree.** -/
theorem reads (h : Writes d r t ls) (hw : ∀ s, .word s ∈ ls → isOperandWord s = true) :
    Reads r t.phrase (ls.map Lexeme.token) := by
  induction h with
  | literal n => exact readsAtom_value _
  | word s => exact readsAtom_name (hw s List.mem_cons_self)
  | parentheses inner ih =>
    have hw' := fun s hs => hw s (List.mem_cons_of_mem _ (List.mem_append_left _ hs))
    have h := (ih hw').parentheses (inner.startsOperand hw') (naming_not_mem _)
      (Arithmetic.phrase_ne_spread _)
    rw [List.cons_append, List.map_cons, List.map_append]
    exact h
  | ofAtom whole ih => exact (ih hw).power whole.length_pos
  | power caret negative n base exponent ihb ihe =>
    obtain ⟨hl, hr⟩ := words_append hw
    rw [Arithmetic.phrase_pow, List.map_append, List.map_cons]
    exact (ihb hl).raised base.length_pos (ihe hr)
  | ofPower whole ih => exact (ih hw).sign (whole.startsPlain (.inl rfl) hw)
  | sign operand ih => exact (ih fun s hs => hw s (List.mem_cons_of_mem _ hs)).minus
  | ofSign whole ih => exact (ih hw).chain whole.length_pos
  | times left right ihl ihr =>
    obtain ⟨hl, hr⟩ := words_append hw
    rw [List.map_append, List.map_cons]
    exact (ihl hl).multiplied (ihr hr) right.length_pos (.inl ⟨rfl, rfl⟩)
  | juxtaposed left right first ihl ihr =>
    obtain ⟨hl, hr⟩ := words_append hw
    rw [List.map_append, List.map_cons]
    exact (ihl hl).multiplied ((ihr hr).sign (right.startsPlain (.inl rfl) hr)) right.length_pos
      (.inl ⟨rfl, rfl⟩)
  | divided left right ihl ihr =>
    obtain ⟨hl, hr⟩ := words_append hw
    rw [List.map_append, List.map_cons]
    exact (ihl hl).multiplied (ihr hr) right.length_pos (.inr ⟨rfl, rfl⟩)
  | ofProduct whole ih => exact (ih hw).loosen
  | plus left right ihl ihr =>
    obtain ⟨hl, hr⟩ := words_append hw
    rw [List.map_append, List.map_cons]
    exact (ihl hl).added (ihr hr) (.inl ⟨rfl, rfl⟩)
  | minus left right ihl ihr =>
    obtain ⟨hl, hr⟩ := words_append hw
    rw [List.map_append, List.map_cons]
    exact (ihl hl).added (ihr hr) (.inr ⟨rfl, rfl⟩)

end Writes

end ErrorBars.Formula
