import ErrorBars.Proofs.Arithmetic.Parse
import ErrorBars.Proofs.Leaves
import ErrorBars.Proofs.Reading
import ErrorBars.Proofs.Names.Application
import ErrorBars.Proofs.Names.Scan
import ErrorBars.Proofs.Names.Simplify

/-!
# Which variables a formula can hold

The variables of a formula are words that stand in its text.  A word that means nothing is a
variable, a given name stands for the variable of its compatibility form, and nothing else makes up a
variable (`freeSymbols_of_parse`).

There are two conditions.  No quoted text stands in the formula, as `Symbol("x y")` is the variable
`x y`.  And `Symbol`, `Function` and `Float` are no given names, as the reader would then have to
quote words and numerals in order to read them.

The proof follows the reading of the text: what holds of its tokens holds of the tokens that the
passes make (`forall_explicit`) and of the leaves of the phrase (`forall_ofTokens?`), and the values
of the phrase are over the variables that its leaves are over (`keeps_calculate`).
-/

set_option autoImplicit false

namespace ErrorBars.Formula

/-! ## Calculations -/

/-- All values that have got a name are over these variables. -/
def Assigned (S : String → Prop) (s : Assignments) : Prop := ∀ a ∈ s, a.2.Over S

/-- Where all values with names are over these variables, a calculation gives something of this kind,
and all values with names are over the variables afterwards. -/
def Keeps {α : Type} (S : String → Prop) (P : α → Prop) (c : Calculation α) : Prop :=
  ∀ s, Assigned S s → ∀ x t, c s = .ok (x, t) → P x ∧ Assigned S t

section

variable {α β : Type} {S : String → Prop} {P : α → Prop} {Q : β → Prop}

theorem keeps_pure {x : α} (h : P x) : Keeps S P (pure x) := by
  intro s hs y t heq
  cases heq
  exact ⟨h, hs⟩

theorem keeps_throw {fault : ParseFault} : Keeps S P (throw fault) := by
  intro s hs y t heq
  cases heq

theorem keeps_lift {c : Calculated α} (h : Gives P c) : Keeps S P (liftM c) := by
  intro s hs y t heq
  cases c with
  | error fault => cases heq
  | ok x =>
    cases heq
    exact ⟨h _ rfl, hs⟩

theorem Keeps.bind {c : Calculation α} {k : α → Calculation β} (hc : Keeps S P c)
    (hk : ∀ x, P x → Keeps S Q (k x)) : Keeps S Q (c >>= k) := by
  intro s hs y t heq
  cases hcs : c s with
  | error fault =>
    have herror : (c >>= k) s = .error fault := by
      show (c s >>= fun p => k p.1 p.2) = _
      rw [hcs]
      rfl
    cases herror.symm.trans heq
  | ok p =>
    obtain ⟨x, s'⟩ := p
    obtain ⟨hx, hs'⟩ := hc s hs x s' hcs
    have hnext : (c >>= k) s = k x s' := by
      show (c s >>= fun p => k p.1 p.2) = _
      rw [hcs]
      rfl
    exact hk x hx s' hs' y t (hnext ▸ heq)

end

/-! ## Phrases -/

/-- A token that is a variable is over `S`, a word satisfies `W`, and there is no quoted text. -/
def Token.Over (W S : String → Prop) : Token → Prop
  | .value e => Expr.Over S e
  | .text _ => False
  | .name word => W word
  | _ => True

theorem Token.Over.mono {W W' S : String → Prop} {t : Token} (h : t.Over W S)
    (hW : ∀ w, W w → W' w) : t.Over W' S := by
  cases t with
  | name word => exact hW word h
  | _ => exact h

/-- What a token means is over these variables. -/
def Token.Means (names : List String) (S : String → Prop) : Token → Prop :=
  Token.Over (fun word => Gives (Value.Over S) (wordValue names word)) S

section

variable {names : List String} {read : TextReader} {S : String → Prop}

theorem keeps_currentValue {word : String} (h : Gives (Value.Over S) (wordValue names word)) :
    Keeps S (Value.Over S) (currentValue names word) := by
  intro s hs v t heq
  cases hfound : s.lookup (Text.compatibilityForm word) with
  | some w =>
    have hword : currentValue names word s = .ok (w, s) := by
      simp only [currentValue, bind, StateT.bind, get, getThe, MonadStateOf.get, StateT.get, hfound,
        pure, Except.pure, Except.bind]
      rfl
    cases hword.symm.trans heq
    obtain ⟨before, after, hs', -⟩ := List.lookup_eq_some_iff.1 hfound
    exact ⟨hs (Text.compatibilityForm word, v) (by simp [hs']), hs⟩
  | none =>
    have hword : currentValue names word s = (liftM (wordValue names word) : Calculation Value) s := by
      simp [currentValue, bind, StateT.bind, get, getThe, MonadStateOf.get, StateT.get, hfound, pure,
        Except.pure, Except.bind]
    exact keeps_lift h s hs v t (hword ▸ heq)

theorem keeps_assign (name : String) {v : Value} (hv : v.Over S) :
    Keeps S (Value.Over S) (assign name v) := by
  intro s hs w t heq
  cases heq
  exact ⟨hv, List.forall_mem_cons.2 ⟨hv, hs⟩⟩

/-- The arguments of an application are over these variables. -/
structure ArgumentsOver (S : String → Prop) (args : Arguments) : Prop where
  /-- those by position -/
  values : ∀ v ∈ args.values, v.Over S
  /-- those by name -/
  named : ∀ e ∈ args.named, e.2.Over S

mutual

/-- **A phrase is over the variables of its leaves.**  The induction follows the phrase. -/
theorem keeps_calculate (p : Phrase) (h : ∀ t ∈ p.leaves, t.Means names S) :
    Keeps S (Value.Over S) (calculate ⟨names, read⟩ p) := by
  cases p with
  | value e => exact keeps_pure (h (.value e) List.mem_cons_self)
  | whole n => exact keeps_pure trivial
  | text q => exact (h (.text q) List.mem_cons_self).elim
  | name s => exact keeps_currentValue (h (.name s) List.mem_cons_self)
  | ellipsis => exact keeps_pure trivial
  | unary op a =>
    rw [calculate]
    exact (keeps_calculate a h).bind fun x hx => keeps_lift (Value.gives_unary op hx)
  | binary op a b =>
    obtain ⟨ha, hb⟩ := List.forall_mem_append.1 h
    rw [calculate]
    exact (keeps_calculate a ha).bind fun x hx => (keeps_calculate b hb).bind fun y hy =>
      keeps_lift (Value.gives_binary op hx hy)
  | both a b =>
    obtain ⟨ha, hb⟩ := List.forall_mem_append.1 h
    rw [calculate]
    refine (keeps_calculate a ha).bind fun x hx => (keeps_lift (gives_any _)).bind fun c _ => ?_
    split
    · exact keeps_calculate b hb
    · exact keeps_pure hx
  | either a b =>
    obtain ⟨ha, hb⟩ := List.forall_mem_append.1 h
    rw [calculate]
    refine (keeps_calculate a ha).bind fun x hx => (keeps_lift (gives_any _)).bind fun c _ => ?_
    split
    · exact keeps_pure hx
    · exact keeps_calculate b hb
  | choice c a b =>
    obtain ⟨hc, hab⟩ := List.forall_mem_append.1 h
    obtain ⟨ha, hb⟩ := List.forall_mem_append.1 hab
    rw [calculate]
    refine (keeps_calculate c hc).bind fun x _ => (keeps_lift (gives_any _)).bind fun c _ => ?_
    split
    · exact keeps_calculate a ha
    · exact keeps_calculate b hb
  | compare a rest =>
    obtain ⟨ha, hrest⟩ := List.forall_mem_append.1 h
    rw [calculate]
    exact (keeps_calculate a ha).bind fun x hx => keeps_calculateChain rest hrest hx
  | call f args =>
    obtain ⟨hf, hargs⟩ := List.forall_mem_append.1 h
    rw [calculate]
    exact (keeps_calculate f hf).bind fun x hx => (keeps_calculateArguments args hargs).bind
      fun args hargs => keeps_lift (Value.gives_call hx hargs.values hargs.named)
  | spread a => exact keeps_throw
  | keyword name a => exact keeps_throw
  | index a i =>
    obtain ⟨ha, hi⟩ := List.forall_mem_append.1 h
    rw [calculate]
    exact (keeps_calculate a ha).bind fun x hx => (keeps_calculate i hi).bind fun y _ =>
      keeps_lift (Value.gives_index hx)
  | range first stop step =>
    obtain ⟨hfirst, hrest⟩ := List.forall_mem_append.1 h
    obtain ⟨hstop, hstep⟩ := List.forall_mem_append.1 hrest
    rw [calculate]
    refine (keeps_calculate first hfirst).bind fun x _ => (keeps_calculate stop hstop).bind
      fun y _ => (keeps_calculate step hstep).bind fun z _ => ?_
    exact (keeps_lift (gives_any _)).bind fun _ _ => (keeps_lift (gives_any _)).bind
      fun _ _ => (keeps_lift (gives_any _)).bind fun _ _ => keeps_pure trivial
  | part a name =>
    rw [calculate]
    exact (keeps_calculate a h).bind fun x hx => keeps_lift (Value.gives_part name hx)
  | items isList xs =>
    rw [calculate]
    exact (keeps_calculateAll xs h).bind fun vs hvs => keeps_pure (Value.over_items.2 hvs)
  | collection xs =>
    rw [calculate]
    refine (keeps_calculateAll xs h).bind fun vs _ => ?_
    split
    · exact keeps_pure trivial
    · exact keeps_throw
  | mapping xs =>
    rw [calculate]
    refine (keeps_calculateAll xs h).bind fun vs hvs => ?_
    have hentries := Value.over_entriesOf hvs (List.forall_mem_nil _)
    simp only
    split
    · exact keeps_pure (Value.over_mapping.2 hentries)
    · exact keeps_throw
  | assign name a =>
    rw [calculate]
    exact (keeps_calculate a h).bind fun x hx => keeps_assign name hx

theorem keeps_calculateAll (ps : List Phrase) (h : ∀ t ∈ leavesOfAll ps, t.Means names S) :
    Keeps S (fun vs => ∀ v ∈ vs, v.Over S) (calculateAll ⟨names, read⟩ ps) := by
  cases ps with
  | nil => exact keeps_pure (List.forall_mem_nil _)
  | cons p rest =>
    obtain ⟨hp, hrest⟩ := List.forall_mem_append.1 h
    have ih := keeps_calculateAll rest hrest
    cases p with
    | spread a =>
      rw [calculateAll]
      refine (keeps_calculate a hp).bind fun v hv => ?_
      split
      · exact ih.bind fun vs hvs =>
          keeps_pure (List.forall_mem_append.2 ⟨Value.over_items.1 hv, hvs⟩)
      · exact keeps_throw
    | _ =>
      exact (keeps_calculate _ hp).bind fun v hv => ih.bind fun vs hvs =>
        keeps_pure (List.forall_mem_cons.2 ⟨hv, hvs⟩)

theorem keeps_calculateArguments (ps : List Phrase) (h : ∀ t ∈ leavesOfAll ps, t.Means names S) :
    Keeps S (ArgumentsOver S) (calculateArguments ⟨names, read⟩ ps) := by
  cases ps with
  | nil => exact keeps_pure ⟨List.forall_mem_nil _, List.forall_mem_nil _⟩
  | cons p rest =>
    obtain ⟨hp, hrest⟩ := List.forall_mem_append.1 h
    have ih := keeps_calculateArguments rest hrest
    cases p with
    | spread a =>
      rw [calculateArguments]
      refine (keeps_calculate a hp).bind fun v hv => ?_
      split
      · exact ih.bind fun args hargs => keeps_pure
          ⟨List.forall_mem_append.2 ⟨Value.over_items.1 hv, hargs.values⟩, hargs.named⟩
      · exact keeps_throw
    | keyword name a =>
      rw [calculateArguments]
      refine (keeps_calculate a hp).bind fun v hv => ih.bind fun args hargs => ?_
      split
      · exact keeps_throw
      · exact keeps_pure ⟨hargs.values, List.forall_mem_cons.2 ⟨hv, hargs.named⟩⟩
    | _ =>
      exact (keeps_calculate _ hp).bind fun v hv => ih.bind fun args hargs =>
        keeps_pure ⟨List.forall_mem_cons.2 ⟨hv, hargs.values⟩, hargs.named⟩

theorem keeps_calculateChain (rest : List (Comparison × Phrase))
    (h : ∀ t ∈ leavesOfChain rest, t.Means names S) {a : Value} (ha : a.Over S) :
    Keeps S (Value.Over S) (calculateChain ⟨names, read⟩ a rest) := by
  cases rest with
  | nil => exact keeps_pure ha
  | cons c rest =>
    obtain ⟨c, x⟩ := c
    obtain ⟨hx, hrest⟩ := List.forall_mem_append.1 h
    rw [calculateChain]
    refine (keeps_calculate x hx).bind fun b hb => ?_
    refine (keeps_lift (Value.gives_compare (S := S) c a b)).bind fun v hv => ?_
    cases rest with
    | nil => exact keeps_pure hv
    | cons d rest =>
      refine (keeps_lift (gives_any _)).bind fun c _ => ?_
      split
      · exact keeps_calculateChain (d :: rest) hrest hb
      · exact keeps_pure hv

end

/-- The value of a whole phrase, at the beginning of which nothing has got a name. -/
theorem gives_meaningOf {p : Phrase} (h : ∀ t ∈ p.leaves, t.Means names S) :
    Gives (Value.Over S) (meaningOf ⟨names, read⟩ p) := by
  intro v heq
  unfold meaningOf StateT.run' at heq
  cases hrun : calculate ⟨names, read⟩ p [] with
  | error fault =>
    rw [hrun] at heq
    cases heq
  | ok r =>
    obtain ⟨w, s⟩ := r
    rw [hrun] at heq
    cases heq
    exact (keeps_calculate p h [] (List.forall_mem_nil _) w s hrun).1

end

/-! ## Words -/

section

variable {names words : List String} {word : String}

/-- No constant of the lexicon holds a variable. -/
theorem gives_knownValue {S : String → Prop} : Gives (Value.Over S) (knownValue word) := by
  have hconstants : ∀ c ∈ constants, Expr.Over S c.2 := by simp [constants]
  unfold knownValue
  split
  · rename_i e hmeaning
    refine gives_ok (hconstants (word, e) ?_)
    unfold meaning at hmeaning
    split at hmeaning
    · cases hmeaning
    · split at hmeaning
      · rename_i hlookup
        cases hmeaning
        obtain ⟨before, after, hlist, -⟩ := List.lookup_eq_some_iff.1 hlookup
        exact hlist ▸ List.mem_append_right _ List.mem_cons_self
      · split at hmeaning
        · cases hmeaning
        · split at hmeaning <;> cases hmeaning
  · exact gives_ok trivial
  · exact gives_ok trivial
  · split
    · exact gives_ok trivial
    · split <;> exact gives_ok trivial
  · exact gives_error

/-- A variable that these words can mean: one of them itself, or a given name that is the
compatibility form of one that is given. -/
def Nameable (names words : List String) (s : String) : Prop :=
  s ∈ words ∨ s ∈ names ∧ ∃ w ∈ words, w ∈ names ∧ Text.compatibilityForm w = s

theorem gives_wordValue (h : word ∈ words) :
    Gives (Value.Over (Nameable names words)) (wordValue names word) := by
  unfold wordValue
  split
  · rename_i hgiven
    simp only
    split
    · rename_i hform
      simp only [Bool.and_eq_true, List.contains_iff_mem] at hgiven
      rw [List.contains_iff_mem] at hform
      exact gives_ok (Expr.over_symbol.2 (.inr ⟨hform, word, h, hgiven.1, rfl⟩))
    · split
      · exact gives_error
      · exact gives_knownValue
  · exact gives_knownValue

/-! ## Formulas -/

/-- The passes bring in no variable and no text, unless they have to read through a given name. -/
theorem holdsOfReader_over (hreader : ∀ w ∈ readerWords, w ∈ words) (hsymbol : "Symbol" ∉ names)
    (hfunction : "Function" ∉ names) (hfloat : "Float" ∉ names) :
    HoldsOfReader names (Token.Over (· ∈ words) (Nameable names words)) where
  plain t ht := by
    cases t with
    | name | text | value => cases ht
    | _ => trivial
  word := hreader
  whole n := Expr.over_int n
  approximate digits := by
    rw [approximateTokens, if_neg (by simpa using hfloat)]
    exact List.forall_mem_singleton.2 (Expr.over_float _ _)
  unknown word next hword := by
    rw [variableTokens, if_neg (by simpa using hsymbol), if_neg (by simp [hfunction])]
    exact List.forall_mem_singleton.2 (Expr.over_symbol.2 (.inl hword))

theorem holdsOfGrammar_means {S : String → Prop} : HoldsOfGrammar (Token.Means names S) where
  plain t ht := by
    cases t with
    | name | text | value => cases ht
    | _ => trivial
  bound := by
    have hreserved : "None" ∈ reservedWords := by decide
    rw [Token.Means, Token.Over, wordValue, if_neg (by simp [hreserved])]
    exact gives_knownValue
  append hq := hq.elim

/-- **The variables of a formula are words in it**, or given names that are compatibility forms of
given words in it, unless there is a quoted text in it or one of the names with which the reader
quotes is given. -/
theorem freeSymbols_of_parse {source : String} {ts : List Token} {e : Expr}
    (hscan : Token.scan source = some ts) (hplain : ∀ q, Token.text q ∉ ts)
    (hsymbol : "Symbol" ∉ names) (hfunction : "Function" ∉ names) (hfloat : "Float" ∉ names)
    (h : parse source names = .ok e) :
    ∀ s ∈ e.freeSymbols, Nameable names (wordsOf ts ++ readerWords) s := by
  have htokens : ∀ t ∈ ts, t.Over (· ∈ wordsOf ts ++ readerWords)
      (Nameable names (wordsOf ts ++ readerWords)) := by
    intro t ht
    cases t with
    | name word => exact List.mem_append_left _ (wordsIn_wordsOf ts word ht)
    | text q => exact hplain q ht
    | value e => exact (Token.scannedFrom_scan hscan _ ht).elim
    | _ => trivial
  have hreader : ∀ w ∈ readerWords, w ∈ wordsOf ts ++ readerWords := fun w hw =>
    List.mem_append_right _ hw
  generalize wordsOf ts ++ readerWords = words at htokens hreader ⊢
  obtain ⟨ts, us, phrase, read, hscan', hus, hphrase, hmeaning⟩ := exists_of_parse_eq_ok h
  obtain rfl := Option.some.inj (hscan.symm.trans hscan')
  have hexplicit := forall_explicit
    (holdsOfReader_over hreader hsymbol hfunction hfloat) hus htokens
  have hleaves := forall_ofTokens? holdsOfGrammar_means hphrase fun t ht =>
    (hexplicit t ht).mono fun w hw => gives_wordValue hw
  exact Expr.over_iff_freeSymbols.1 (gives_meaningOf hleaves _ hmeaning)

end

end ErrorBars.Formula
