import ErrorBars.Proofs.Passes

/-!
# What a phrase is made of

The grammar reads tokens as a phrase.  The leaves of the phrase are words, quoted texts, numbers and
variables, and they stand among the tokens, with two exceptions: quoted texts side by side become
one, and a range of positions without a bound has `None` in its place.

So a property of all tokens of a formula holds of all leaves of its phrase, if it holds of what the
grammar adds (`HoldsOfGrammar`).  `readers` is the induction, which runs through the readers
of the grammar together; `forall_ofTokens?` is about whole formulas.
-/

set_option autoImplicit false

namespace ErrorBars.Formula

/-! ## Leaves -/

mutual

/-- The words, quoted texts, numbers and variables of a phrase. -/
def Phrase.leaves : Phrase → List Token
  | .value e => [.value e]
  | .whole _ => []
  | .text q => [.text q]
  | .name s => [.name s]
  | .ellipsis => []
  | .unary _ a => a.leaves
  | .binary _ a b => a.leaves ++ b.leaves
  | .both a b => a.leaves ++ b.leaves
  | .either a b => a.leaves ++ b.leaves
  | .choice condition a b => condition.leaves ++ (a.leaves ++ b.leaves)
  | .compare a rest => a.leaves ++ leavesOfChain rest
  | .call f args => f.leaves ++ leavesOfAll args
  | .spread a => a.leaves
  | .keyword _ a => a.leaves
  | .index a i => a.leaves ++ i.leaves
  | .range first stop step => first.leaves ++ (stop.leaves ++ step.leaves)
  | .part a _ => a.leaves
  | .items _ xs => leavesOfAll xs
  | .collection xs => leavesOfAll xs
  | .mapping xs => leavesOfAll xs
  | .assign _ a => a.leaves

/-- The leaves of several phrases. -/
def leavesOfAll : List Phrase → List Token
  | [] => []
  | x :: xs => x.leaves ++ leavesOfAll xs

/-- The leaves of the right operands of comparisons. -/
def leavesOfChain : List (Comparison × Phrase) → List Token
  | [] => []
  | (_, x) :: rest => x.leaves ++ leavesOfChain rest

end

/-- The leaves of the members of a set, or of the keys and values of a mapping. -/
def leavesOfEntries : List (Phrase × Option Phrase) → List Token
  | [] => []
  | (x, y) :: rest => x.leaves ++ ((y.map Phrase.leaves).getD [] ++ leavesOfEntries rest)

/-- A property holds of what the grammar adds. -/
structure HoldsOfGrammar (P : Token → Prop) : Prop where
  /-- all tokens that mean nothing by themselves -/
  plain : ∀ t, t.isMeaningful = false → P t
  /-- the bound that is absent -/
  bound : P (.name "None")
  /-- two texts as one -/
  append : ∀ {q r s : Quotation}, P (.text q) → P (.text r) → q.append? r = some s → P (.text s)

/-! ## From tokens to tokens -/

section

variable {P : Token → Prop} {ts : List Token}

theorem forall_returnsToLines (hP : HoldsOfGrammar P) (depth : Nat) (hts : ∀ t ∈ ts, P t) :
    ∀ t ∈ returnsToLines depth ts, P t := by
  induction ts generalizing depth with
  | nil => exact hts
  | cons t rest ih =>
    obtain ⟨ht, hrest⟩ := List.forall_mem_cons.1 hts
    cases t with
    | stray c =>
      rw [returnsToLines]
      refine List.forall_mem_cons.2 ⟨?_, ih _ hrest⟩
      split
      · split <;> exact hP.plain _ rfl
      · exact ht
    | _ => exact List.forall_mem_cons.2 ⟨ht, ih _ hrest⟩

theorem forall_splitOperators (hP : HoldsOfGrammar P) {fuel : Nat} {cs : List Char}
    (h : splitOperators fuel cs = some ts) : ∀ t ∈ ts, P t := by
  induction fuel, cs using splitOperators.induct generalizing ts with
  | case1 => simp [splitOperators] at h
  | case2 =>
    simp only [splitOperators, Option.some.injEq] at h
    exact h ▸ List.forall_mem_nil P
  | case3 fuel rest ih =>
    rw [splitOperators] at h
    exact ih h
  | case4 fuel cs hne hspace ih =>
    rw [splitOperators] at h
    · obtain ⟨⟨s, rest⟩, -, h⟩ := Option.bind_eq_some_iff.1 h
      obtain ⟨us, hus, h⟩ := Option.bind_eq_some_iff.1 h
      exact Option.some.inj h ▸ List.forall_mem_cons.2 ⟨hP.plain _ rfl, ih _ hus⟩
    all_goals assumption

theorem forall_regroup (hP : HoldsOfGrammar P) (run : List Char) {us : List Token}
    (h : regroup run ts = some us) (hts : ∀ t ∈ ts, P t) : ∀ t ∈ us, P t := by
  induction ts generalizing run us with
  | nil => exact forall_splitOperators hP h
  | cons t rest ih =>
    obtain ⟨ht, hrest⟩ := List.forall_mem_cons.1 hts
    -- any other token stands between two runs of operators
    have hbetween : ∀ {vs : List Token}, (∀ t ∈ vs, P t) → ∀ {ops rest' : List Token},
        splitOperators (run.length + 1) run = some ops → regroup [] rest = some rest' →
        ∀ t ∈ ops ++ (vs ++ rest'), P t := by
      intro vs hvs ops rest' hops hrest'
      exact List.forall_mem_append.2 ⟨forall_splitOperators hP hops,
        List.forall_mem_append.2 ⟨hvs, ih [] hrest' hrest⟩⟩
    cases t with
    | op s => exact ih _ h hrest
    | stray c => exact ih _ h hrest
    | indent => cases h
    | gap =>
      obtain ⟨ops, hops, h⟩ := Option.bind_eq_some_iff.1 h
      obtain ⟨rest', hrest', h⟩ := Option.bind_eq_some_iff.1 h
      exact Option.some.inj h ▸ hbetween (List.forall_mem_nil P) hops hrest'
    | name s =>
      obtain ⟨ops, hops, h⟩ := Option.bind_eq_some_iff.1 h
      obtain ⟨rest', hrest', h⟩ := Option.bind_eq_some_iff.1 h
      simp only [Option.ite_none_right_eq_some] at h
      exact Option.some.inj h.2 ▸ hbetween (List.forall_mem_singleton.2 ht) hops hrest'
    | _ =>
      obtain ⟨ops, hops, h⟩ := Option.bind_eq_some_iff.1 h
      obtain ⟨rest', hrest', h⟩ := Option.bind_eq_some_iff.1 h
      exact Option.some.inj h ▸ hbetween (List.forall_mem_singleton.2 ht) hops hrest'

theorem forall_dropLastLines (hts : ∀ t ∈ ts, P t) : ∀ t ∈ dropLastLines ts, P t := by
  intro t ht
  refine hts t (List.mem_reverse.1 ?_)
  exact (List.dropWhile_suffix _).mem (List.mem_reverse.1 ht)

end

/-! ## From tokens to phrases -/

/-- A property holds of all leaves of what a reader gives, and of all tokens that it leaves. -/
def Takes {α : Type} (P : Token → Prop) (leaves : α → List Token)
    (r : Option (α × List Token)) : Prop :=
  ∀ x rest, r = some (x, rest) → (∀ t ∈ leaves x, P t) ∧ ∀ t ∈ rest, P t

section

variable {α β : Type} {P : Token → Prop} {leaves : α → List Token} {leaves' : β → List Token}
variable {ts : List Token}

theorem takes_none : Takes P leaves none := by
  intro x rest h
  cases h

theorem takes_some {x : α} {rest : List Token} (hx : ∀ t ∈ leaves x, P t)
    (hrest : ∀ t ∈ rest, P t) : Takes P leaves (some (x, rest)) := by
  intro y rest' h
  cases h
  exact ⟨hx, hrest⟩

theorem Takes.bind {r : Option (α × List Token)} {k : α × List Token → Option (β × List Token)}
    (hr : Takes P leaves r)
    (hk : ∀ x rest, (∀ t ∈ leaves x, P t) → (∀ t ∈ rest, P t) → Takes P leaves' (k (x, rest))) :
    Takes P leaves' (r >>= k) := by
  intro y rest h
  obtain ⟨⟨x, rest'⟩, hx, h⟩ := Option.bind_eq_some_iff.1 h
  obtain ⟨hleaves, hrest'⟩ := hr x rest' hx
  exact hk x rest' hleaves hrest' y rest h

/-- A comparison takes its own tokens away. -/
theorem forall_comparison? {c : Comparison} {rest : List Token}
    (h : comparison? ts = some (c, rest)) (hts : ∀ t ∈ ts, P t) : ∀ t ∈ rest, P t := by
  have hsuffix : rest <:+ ts := by
    unfold comparison? at h
    split at h
    · split at h <;> cases h <;> exact List.suffix_cons _ _
    · cases h
      exact List.suffix_cons _ _
    · cases h
      exact (List.suffix_cons _ _).trans (List.suffix_cons _ _)
    · cases h
      exact (List.suffix_cons _ _).trans (List.suffix_cons _ _)
    · cases h
      exact List.suffix_cons _ _
    · cases h
  exact fun t ht => hts t (hsuffix.mem ht)

end

section

variable {P : Token → Prop} {ts : List Token}

theorem takes_readTexts (hP : HoldsOfGrammar P) {q : Quotation} (hq : P (.text q))
    (hts : ∀ t ∈ ts, P t) : Takes P Phrase.leaves (readAtom.readTexts q ts) := by
  have hstop : ∀ {q}, P (.text q) → ∀ t ∈ Phrase.leaves (.text q), P t := fun hq =>
    List.forall_mem_singleton.2 hq
  induction ts generalizing q with
  | nil => exact takes_some (hstop hq) hts
  | cons t rest ih =>
    obtain ⟨ht, hrest⟩ := List.forall_mem_cons.1 hts
    cases t with
    | text r =>
      rw [readAtom.readTexts]
      cases happend : q.append? r with
      | none => exact takes_none
      | some s => exact ih (hP.append hq ht happend) hrest
    | _ => exact takes_some (hstop hq) hts

theorem leavesOfEntries_mapM {entries : List (Phrase × Option Phrase)} {xs : List (List Phrase)}
    (h : (entries.mapM fun e => e.2.map fun y => [e.1, y]) = some xs) :
    leavesOfAll xs.flatten = leavesOfEntries entries := by
  induction entries generalizing xs with
  | nil =>
    simp at h
    subst h
    rfl
  | cons e entries ih =>
    obtain ⟨x, y⟩ := e
    cases y with
    | none => simp at h
    | some y =>
      simp only [List.mapM_cons, Option.map_some, Option.bind_eq_bind, Option.bind_some,
        Option.bind_eq_some_iff, Option.pure_def, Option.some.injEq] at h
      obtain ⟨ys, hys, rfl⟩ := h
      simp [leavesOfAll, leavesOfEntries, ih hys]

theorem forall_leavesOfEntries_map {entries : List (Phrase × Option Phrase)}
    (h : ∀ t ∈ leavesOfEntries entries, P t) : ∀ t ∈ leavesOfAll (entries.map (·.1)), P t := by
  induction entries with
  | nil => exact h
  | cons e entries ih =>
    obtain ⟨hx, hrest⟩ := List.forall_mem_append.1 h
    exact List.forall_mem_append.2 ⟨hx, ih (List.forall_mem_append.1 hrest).2⟩

/-- With this fuel, all readers take the leaves of what they read from the tokens. -/
structure Readers (P : Token → Prop) (fuel : Nat) : Prop where
  /-- a phrase -/
  phrase (level : Nat) {ts : List Token} (hts : ∀ t ∈ ts, P t) :
    Takes P Phrase.leaves (readFrom fuel level ts)
  /-- the operators behind an operand -/
  operators (level : Nat) {a : Phrase} {ts : List Token} (ha : ∀ t ∈ a.leaves, P t)
    (hts : ∀ t ∈ ts, P t) : Takes P Phrase.leaves (readOperators fuel level a ts)
  /-- a chain of comparisons -/
  comparisons {ts : List Token} (hts : ∀ t ∈ ts, P t) :
    Takes P leavesOfChain (readComparisons fuel ts)
  /-- an operand with its signs -/
  operand (level : Nat) {ts : List Token} (hts : ∀ t ∈ ts, P t) :
    Takes P Phrase.leaves (readOperand fuel level ts)
  /-- a power -/
  power {ts : List Token} (hts : ∀ t ∈ ts, P t) : Takes P Phrase.leaves (readPower fuel ts)
  /-- an atom -/
  atom {ts : List Token} (hts : ∀ t ∈ ts, P t) : Takes P Phrase.leaves (readAtom fuel ts)
  /-- phrases between commas -/
  items {ts : List Token} (hts : ∀ t ∈ ts, P t) :
    Takes P (fun x => leavesOfAll x.1) (readItems fuel ts)
  /-- a phrase between commas -/
  item {ts : List Token} (hts : ∀ t ∈ ts, P t) : Takes P Phrase.leaves (readItem fuel ts)
  /-- the entries of a set or a mapping -/
  entries {ts : List Token} (hts : ∀ t ∈ ts, P t) : Takes P leavesOfEntries (readEntries fuel ts)
  /-- what follows an atom -/
  trailers {a : Phrase} {ts : List Token} (ha : ∀ t ∈ a.leaves, P t) (hts : ∀ t ∈ ts, P t) :
    Takes P Phrase.leaves (readTrailers fuel a ts)
  /-- a position or a range of positions -/
  position {ts : List Token} (hts : ∀ t ∈ ts, P t) : Takes P Phrase.leaves (readPosition fuel ts)
  /-- a bound of a range -/
  bound {ts : List Token} (hts : ∀ t ∈ ts, P t) :
    Takes P (fun (x : Option Phrase) => (x.map Phrase.leaves).getD []) (readBound fuel ts)
  /-- the arguments of an application -/
  arguments {ts : List Token} (hts : ∀ t ∈ ts, P t) :
    Takes P leavesOfAll (readArguments fuel ts)

/-! One reader with more fuel, where the others are known to be right. -/

variable {fuel : Nat}

theorem takes_readFrom (ih : Readers P fuel) (level : Nat) {ts : List Token}
    (hts : ∀ t ∈ ts, P t) : Takes P Phrase.leaves (readFrom (fuel + 1) level ts) := by
  rw [readFrom]
  exact (ih.operand level hts).bind fun a rest ha hrest =>
    ih.operators level ha hrest

theorem takes_readOperators (ih : Readers P fuel) (level : Nat) {a : Phrase}
    {ts : List Token} (ha : ∀ t ∈ a.leaves, P t) (hts : ∀ t ∈ ts, P t) :
    Takes P Phrase.leaves (readOperators (fuel + 1) level a ts) := by
  have hstop : Takes P Phrase.leaves (some (a, ts)) := takes_some ha hts
  unfold readOperators
  split
  · have hrest := (List.forall_mem_cons.1 hts).2
    split
    · refine (ih.phrase 1 hrest).bind fun c rest hc hrest => ?_
      simp only
      split
      · refine (ih.phrase 0 (List.forall_mem_cons.1 hrest).2).bind
          fun b rest hb hrest => takes_some ?_ hrest
        exact List.forall_mem_append.2 ⟨hc, List.forall_mem_append.2 ⟨ha, hb⟩⟩
      · exact takes_none
    · exact hstop
  · have hrest := (List.forall_mem_cons.1 hts).2
    split
    · refine (ih.phrase 2 hrest).bind fun b rest hb hrest => ?_
      exact ih.operators level (List.forall_mem_append.2 ⟨ha, hb⟩) hrest
    · exact hstop
  · have hrest := (List.forall_mem_cons.1 hts).2
    split
    · refine (ih.phrase 3 hrest).bind fun b rest hb hrest => ?_
      exact ih.operators level (List.forall_mem_append.2 ⟨ha, hb⟩) hrest
    · exact hstop
  · split
    · split
      · refine (ih.comparisons hts).bind fun chain rest hchain hrest => ?_
        exact ih.operators level (List.forall_mem_append.2 ⟨ha, hchain⟩) hrest
      · exact hstop
    · split
      · have hrest := (List.forall_mem_cons.1 hts).2
        split
        · split
          · refine (ih.phrase _ hrest).bind fun b rest hb hrest => ?_
            exact ih.operators level (List.forall_mem_append.2 ⟨ha, hb⟩) hrest
          · exact hstop
        · exact hstop
      · exact hstop

theorem takes_readComparisons (ih : Readers P fuel) {ts : List Token}
    (hts : ∀ t ∈ ts, P t) : Takes P leavesOfChain (readComparisons (fuel + 1) ts) := by
  rw [readComparisons]
  split
  · exact takes_some (List.forall_mem_nil P) hts
  · rename_i c rest hc
    refine (ih.phrase _ (forall_comparison? hc hts)).bind fun b rest hb hrest => ?_
    refine (ih.comparisons hrest).bind fun chain rest hchain hrest => ?_
    exact takes_some (List.forall_mem_append.2 ⟨hb, hchain⟩) hrest

theorem takes_readOperand (ih : Readers P fuel) (level : Nat) {ts : List Token}
    (hts : ∀ t ∈ ts, P t) : Takes P Phrase.leaves (readOperand (fuel + 1) level ts) := by
  unfold readOperand
  split
  · have hrest := (List.forall_mem_cons.1 hts).2
    split
    · exact (ih.phrase 3 hrest).bind fun a rest ha hrest => takes_some ha hrest
    · exact takes_none
  · have hrest := (List.forall_mem_cons.1 hts).2
    split
    · exact (ih.operand signLevel hrest).bind fun a rest ha hrest =>
        takes_some ha hrest
    · exact ih.power hts
  · exact ih.power hts

theorem takes_readPower (ih : Readers P fuel) {ts : List Token}
    (hts : ∀ t ∈ ts, P t) : Takes P Phrase.leaves (readPower (fuel + 1) ts) := by
  rw [readPower]
  refine (ih.atom hts).bind fun a rest ha hrest => ?_
  refine (ih.trailers ha hrest).bind fun a rest ha hrest => ?_
  simp only
  split
  · refine (ih.operand signLevel (List.forall_mem_cons.1 hrest).2).bind
      fun b rest hb hrest => ?_
    exact takes_some (List.forall_mem_append.2 ⟨ha, hb⟩) hrest
  · exact takes_some ha hrest

theorem takes_readAtom (hP : HoldsOfGrammar P) (ih : Readers P fuel) {ts : List Token}
    (hts : ∀ t ∈ ts, P t) : Takes P Phrase.leaves (readAtom (fuel + 1) ts) := by
  unfold readAtom
  split
  · obtain ⟨hvalue, hrest⟩ := List.forall_mem_cons.1 hts
    exact takes_some (List.forall_mem_singleton.2 hvalue) hrest
  · rename_i s rest
    cases readWhole? s with
    | none => exact takes_none
    | some n => exact takes_some (List.forall_mem_nil P) (List.forall_mem_cons.1 hts).2
  · obtain ⟨htext, hrest⟩ := List.forall_mem_cons.1 hts
    exact takes_readTexts hP htext hrest
  · obtain ⟨hname, hrest⟩ := List.forall_mem_cons.1 hts
    split
    · exact takes_some (List.forall_mem_singleton.2 hname) hrest
    · exact takes_none
  · exact takes_some (List.forall_mem_nil P) (List.forall_mem_cons.1 hts).2
  · exact takes_some (List.forall_mem_nil P)
      (List.forall_mem_cons.1 (List.forall_mem_cons.1 hts).2).2
  · refine (ih.items (List.forall_mem_cons.1 hts).2).bind
      fun x rest hxs hrest => ?_
    obtain ⟨xs, comma⟩ := x
    simp only
    split
    · have hrest := (List.forall_mem_cons.1 hrest).2
      split
      · exact takes_none
      · exact takes_some (List.forall_mem_append.1 hxs).1 hrest
      · exact takes_some hxs hrest
    · exact takes_none
  · exact takes_some (List.forall_mem_nil P)
      (List.forall_mem_cons.1 (List.forall_mem_cons.1 hts).2).2
  · refine (ih.items (List.forall_mem_cons.1 hts).2).bind
      fun x rest hxs hrest => ?_
    simp only
    split
    · exact takes_some hxs (List.forall_mem_cons.1 hrest).2
    · exact takes_none
  · exact takes_some (List.forall_mem_nil P)
      (List.forall_mem_cons.1 (List.forall_mem_cons.1 hts).2).2
  · refine (ih.entries (List.forall_mem_cons.1 hts).2).bind
      fun entries rest hentries hrest => ?_
    simp only
    split
    · rename_i xs hxs
      refine takes_some ?_ hrest
      rw [Phrase.leaves, leavesOfEntries_mapM hxs]
      exact hentries
    · split
      · exact takes_none
      · exact takes_some (forall_leavesOfEntries_map hentries) hrest
  · exact takes_none

theorem takes_readItems (ih : Readers P fuel) {ts : List Token}
    (hts : ∀ t ∈ ts, P t) : Takes P (fun x => leavesOfAll x.1) (readItems (fuel + 1) ts) := by
  have hone : ∀ {x : Phrase}, (∀ t ∈ x.leaves, P t) → ∀ t ∈ leavesOfAll [x], P t := fun hx =>
    List.forall_mem_append.2 ⟨hx, List.forall_mem_nil P⟩
  rw [readItems]
  refine (ih.item hts).bind fun x rest hx hrest => ?_
  simp only
  split
  · have hrest := (List.forall_mem_cons.1 hrest).2
    split
    · exact takes_some (hone hx) hrest
    · exact takes_some (hone hx) hrest
    · exact takes_some (hone hx) hrest
    · refine (ih.items hrest).bind fun xs rest hxs hrest => ?_
      exact takes_some (List.forall_mem_append.2 ⟨hx, hxs⟩) hrest
  · exact takes_some (hone hx) hrest

theorem takes_readItem (ih : Readers P fuel) {ts : List Token}
    (hts : ∀ t ∈ ts, P t) : Takes P Phrase.leaves (readItem (fuel + 1) ts) := by
  unfold readItem
  split
  · exact (ih.phrase 5 (List.forall_mem_cons.1 hts).2).bind
      fun x rest hx hrest => takes_some hx hrest
  · split
    · exact takes_none
    · exact (ih.phrase 0
        (List.forall_mem_cons.1 (List.forall_mem_cons.1 hts).2).2).bind
        fun x rest hx hrest => takes_some hx hrest
  · exact ih.phrase 0 hts

theorem takes_readEntries (ih : Readers P fuel) {ts : List Token}
    (hts : ∀ t ∈ ts, P t) : Takes P leavesOfEntries (readEntries (fuel + 1) ts) := by
  rw [readEntries]
  refine (ih.item hts).bind fun x rest hx hrest => ?_
  have hmore : ∀ {y : Option Phrase} {rest : List Token},
      (∀ t ∈ (y.map Phrase.leaves).getD [], P t) → (∀ t ∈ rest, P t) →
      Takes P leavesOfEntries (readEntries fuel rest >>= fun e => some ((x, y) :: e.1, e.2)) :=
    fun hy hrest => (ih.entries hrest).bind fun entries rest hentries hrest =>
      takes_some (List.forall_mem_append.2 ⟨hx, List.forall_mem_append.2 ⟨hy, hentries⟩⟩) hrest
  simp only [Option.bind_eq_bind, Option.bind_none, Option.bind_some]
  split
  · exact takes_none
  · exact takes_none
  · refine (ih.phrase 0 (List.forall_mem_cons.1 hrest).2).bind
      fun y rest hy hrest => ?_
    have hentry := List.forall_mem_append.2
      ⟨hx, List.forall_mem_append.2 ⟨hy, List.forall_mem_nil P⟩⟩
    simp only
    split
    · exact takes_some hentry (List.forall_mem_cons.1 hrest).2
    · exact takes_some hentry (List.forall_mem_cons.1 (List.forall_mem_cons.1 hrest).2).2
    · exact hmore hy (List.forall_mem_cons.1 hrest).2
    · exact takes_none
  · have hentry := List.forall_mem_append.2 ⟨hx, List.forall_mem_nil P⟩
    split
    · exact takes_some hentry (List.forall_mem_cons.1 hrest).2
    · exact takes_some hentry (List.forall_mem_cons.1 (List.forall_mem_cons.1 hrest).2).2
    · exact hmore (y := none) (List.forall_mem_nil P) (List.forall_mem_cons.1 hrest).2
    · exact takes_none

theorem takes_readTrailers (ih : Readers P fuel) {a : Phrase} {ts : List Token}
    (ha : ∀ t ∈ a.leaves, P t) (hts : ∀ t ∈ ts, P t) :
    Takes P Phrase.leaves (readTrailers (fuel + 1) a ts) := by
  unfold readTrailers
  split
  · exact ih.trailers (List.forall_mem_append.2 ⟨ha, List.forall_mem_nil P⟩)
      (List.forall_mem_cons.1 (List.forall_mem_cons.1 hts).2).2
  · refine (ih.arguments (List.forall_mem_cons.1 hts).2).bind
      fun args rest hargs hrest => ?_
    exact ih.trailers (List.forall_mem_append.2 ⟨ha, hargs⟩) hrest
  · refine (ih.position (List.forall_mem_cons.1 hts).2).bind
      fun i rest hi hrest => ?_
    exact ih.trailers (List.forall_mem_append.2 ⟨ha, hi⟩) hrest
  · exact ih.trailers ha (List.forall_mem_cons.1 (List.forall_mem_cons.1 hts).2).2
  · exact takes_some ha hts

theorem takes_readPosition (hP : HoldsOfGrammar P) (ih : Readers P fuel) {ts : List Token}
    (hts : ∀ t ∈ ts, P t) : Takes P Phrase.leaves (readPosition (fuel + 1) ts) := by
  have hgetD : ∀ {x : Option Phrase}, (∀ t ∈ (x.map Phrase.leaves).getD [], P t) →
      ∀ t ∈ (x.getD (.name "None")).leaves, P t := by
    intro x hx
    cases x with
    | none => exact List.forall_mem_singleton.2 hP.bound
    | some x => exact hx
  rw [readPosition]
  refine (ih.bound hts).bind fun first rest hfirst hrest => ?_
  simp only
  split
  · refine (ih.bound (List.forall_mem_cons.1 hrest).2).bind
      fun stop rest hstop hrest => ?_
    have hrange : ∀ {step : Option Phrase}, (∀ t ∈ (step.map Phrase.leaves).getD [], P t) →
        ∀ t ∈ (Phrase.range (first.getD (.name "None")) (stop.getD (.name "None"))
          (step.getD (.name "None"))).leaves, P t := fun hstep =>
      List.forall_mem_append.2 ⟨hgetD hfirst, List.forall_mem_append.2
        ⟨hgetD hstop, hgetD hstep⟩⟩
    simp only
    split
    · refine (ih.bound (List.forall_mem_cons.1 hrest).2).bind
        fun step rest hstep hrest => ?_
      simp only
      split
      · exact takes_some (hrange hstep) (List.forall_mem_cons.1 hrest).2
      · exact takes_none
    · simp only [Option.bind_eq_bind, Option.bind_some]
      split
      · exact takes_some (@hrange none (List.forall_mem_nil P)) (List.forall_mem_cons.1 hrest).2
      · exact takes_none
  · exact takes_some hfirst (List.forall_mem_cons.1 hrest).2
  · exact takes_some (List.forall_mem_append.2 ⟨hfirst, List.forall_mem_nil P⟩)
      (List.forall_mem_cons.1 (List.forall_mem_cons.1 hrest).2).2
  · refine (ih.items (List.forall_mem_cons.1 hrest).2).bind
      fun xs rest hxs hrest => ?_
    simp only
    split
    · exact takes_some (List.forall_mem_append.2 ⟨hfirst, hxs⟩) (List.forall_mem_cons.1 hrest).2
    · exact takes_none
  · exact takes_none

theorem takes_readBound (ih : Readers P fuel) {ts : List Token}
    (hts : ∀ t ∈ ts, P t) :
    Takes P (fun (x : Option Phrase) => (x.map Phrase.leaves).getD []) (readBound (fuel + 1) ts) := by
  unfold readBound
  split
  · exact takes_some (List.forall_mem_nil P) hts
  · exact takes_some (List.forall_mem_nil P) hts
  · intro x rest h
    obtain ⟨⟨y, rest'⟩, hy, heq⟩ := Option.map_eq_some_iff.1 h
    cases heq
    exact ih.item hts y rest' hy

theorem takes_readArguments (ih : Readers P fuel) {ts : List Token}
    (hts : ∀ t ∈ ts, P t) : Takes P leavesOfAll (readArguments (fuel + 1) ts) := by
  have hone : ∀ {x : Phrase}, (∀ t ∈ x.leaves, P t) → ∀ t ∈ leavesOfAll [x], P t := fun hx =>
    List.forall_mem_append.2 ⟨hx, List.forall_mem_nil P⟩
  unfold readArguments
  have hmore : ∀ {x : Phrase} {rest : List Token}, (∀ t ∈ x.leaves, P t) → (∀ t ∈ rest, P t) →
      Takes P leavesOfAll (readArguments fuel rest >>= fun xs => some (x :: xs.1, xs.2)) :=
    fun hx hrest => (ih.arguments hrest).bind fun xs rest hxs hrest =>
      takes_some (List.forall_mem_append.2 ⟨hx, hxs⟩) hrest
  split
  · split
    · exact takes_none
    · refine (ih.phrase 0
        (List.forall_mem_cons.1 (List.forall_mem_cons.1 hts).2).2).bind
          fun y rest hy hrest => ?_
      simp only [Option.bind_eq_bind, Option.bind_some]
      split
      · exact takes_some (hone hy) (List.forall_mem_cons.1 hrest).2
      · exact takes_some (hone hy) (List.forall_mem_cons.1 (List.forall_mem_cons.1 hrest).2).2
      · exact hmore hy (List.forall_mem_cons.1 hrest).2
      · exact takes_none
  · refine (ih.item hts).bind fun x rest hx hrest => ?_
    simp only
    split
    · exact takes_some (hone hx) (List.forall_mem_cons.1 hrest).2
    · exact takes_some (hone hx) (List.forall_mem_cons.1 (List.forall_mem_cons.1 hrest).2).2
    · exact hmore hx (List.forall_mem_cons.1 hrest).2
    · exact takes_none

/-- **A property of all tokens holds of all leaves.**  The induction runs through the readers of the
grammar together. -/
theorem readers (hP : HoldsOfGrammar P) (fuel : Nat) : Readers P fuel := by
  induction fuel with
  | zero => constructor <;> intros <;> exact takes_none
  | succ fuel ih =>
    exact {
      phrase := fun level _ hts => takes_readFrom ih level hts
      operators := fun level _ _ ha hts => takes_readOperators ih level ha hts
      comparisons := takes_readComparisons ih
      operand := fun level _ hts => takes_readOperand ih level hts
      power := takes_readPower ih
      atom := takes_readAtom hP ih
      items := takes_readItems ih
      item := takes_readItem ih
      entries := takes_readEntries ih
      trailers := takes_readTrailers ih
      position := takes_readPosition hP ih
      bound := takes_readBound ih
      arguments := takes_readArguments ih }

/-- **The leaves of a formula stand among its tokens**, but for what the grammar adds: what holds of
the tokens, and of the additions, holds of all leaves. -/
theorem forall_ofTokens? (hP : HoldsOfGrammar P) {phrase : Phrase}
    (h : Phrase.ofTokens? ts = some phrase) (hts : ∀ t ∈ ts, P t) :
    ∀ t ∈ phrase.leaves, P t := by
  rw [Phrase.ofTokens?] at h
  obtain ⟨us, hus, h⟩ := Option.bind_eq_some_iff.1 h
  have husP := forall_dropLastLines
    (forall_regroup hP [] hus (forall_returnsToLines hP 0 hts))
  simp only at h
  split at h
  · cases h
  · obtain ⟨⟨⟨xs, comma⟩, rest⟩, hxs, h⟩ := Option.bind_eq_some_iff.1 h
    have hleaves := ((readers hP _).items husP _ _ hxs).1
    simp only at h
    split at h
    · cases h
    · split at h
      · exact Option.some.inj h ▸ (List.forall_mem_append.1 hleaves).1
      · exact Option.some.inj h ▸ hleaves
      · cases h

end

end ErrorBars.Formula
