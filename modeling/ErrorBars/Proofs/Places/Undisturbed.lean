import ErrorBars.Proofs.Arithmetic.Tokens
import ErrorBars.Proofs.Places.Pieces
import ErrorBars.Proofs.Places.Standing

/-!
# Names that are found where they first stand as tokens

The search for a name knows letters and digits but no tokens.  `Undisturbed` says that nothing keeps
it from stopping at the first token of the name, and `namePosition_eq_iff_undisturbed` that this is
exactly when it stops there.  Whether a piece can disturb a name at all can be told from the two by
themselves (`Piece.spares`).
-/

set_option autoImplicit false

namespace ErrorBars.Formula

/-- The place of the first token that is this name. -/
def firstPlace? (name source : String) : Option ℕ :=
  ((Token.pieces source).find? (·.name? == some name)).map Piece.place

/-- No letter and no underscore stands right in front of a place. -/
def FreeAt (source : String) (t : ℕ) : Prop :=
  ∀ c ∈ (source.toList.take t).getLast?, blocksBefore c = false

/-- Nothing keeps the search for a name from stopping at a place: no letter stands right in front of
it, and the name stands by itself in no earlier piece that is something else. -/
structure Undisturbed (name source : String) (t : ℕ) : Prop where
  /-- no letter and no underscore stands right in front -/
  free : FreeAt source t
  /-- no other piece holds the name by itself before -/
  alone : ∀ p ∈ Token.pieces source, p.name? ≠ some name →
    ∀ i < t, p.place ≤ i → i < p.stop → standsAt name source i = false

/-! ## Characters -/

variable {c : Char}

theorem isWordChar_of_blocksAfter (h : blocksAfter c = true) : Text.isWordChar c = true := by
  have hascii : c.toNat < 128 := by
    rw [blocksAfter, Bool.or_eq_true, beq_iff_eq] at h
    rcases h with h | rfl
    · exact toNat_lt_of_isAlphanum h
    · decide
  rw [Text.isWordChar, if_pos hascii]
  exact h

theorem blocksAfter_of_isWordChar (hc : c.toNat < 128) (h : Text.isWordChar c = true) :
    blocksAfter c = true := by
  rwa [Text.isWordChar, if_pos hc] at h

theorem blocksBefore_of_startsIdentifier (hc : c.toNat < 128)
    (h : Text.startsIdentifier c = true) : blocksBefore c = true := by
  rwa [Text.startsIdentifier, if_pos hc] at h

theorem isWordChar_of_blocksBefore (h : blocksBefore c = true) : Text.isWordChar c = true := by
  refine isWordChar_of_blocksAfter ?_
  rw [blocksBefore, Bool.or_eq_true] at h
  rw [blocksAfter, Bool.or_eq_true]
  exact h.imp_left isAlphanum_of_isAlpha

/-- What blocks behind a name but not in front of it. -/
theorem isDigit_of_blocksAfter (hafter : blocksAfter c = true) (hbefore : blocksBefore c = false) :
    c.isDigit = true := by
  rw [blocksBefore, Bool.or_eq_false_iff] at hbefore
  have halphanum : c.isAlphanum = (c.isAlpha || c.isDigit) := rfl
  rwa [blocksAfter, halphanum, hbefore.1, hbefore.2, Bool.false_or, Bool.or_false] at hafter

/-! ## The first token of a name -/

section

variable {name source : String} {ts : List Token} {t : ℕ} {p : Piece}

/-- The first token of a name is a piece, and no token of the name stands before it. -/
theorem exists_of_firstPlace? (hscan : Token.scan source = some ts)
    (ht : firstPlace? name source = some t) :
    ∃ p ∈ Token.pieces source, p.name? = some name ∧ p.place = t ∧
      ∀ q ∈ Token.pieces source, q.name? = some name → t ≤ q.place := by
  obtain ⟨p, hfind, rfl⟩ := Option.map_eq_some_iff.1 ht
  obtain ⟨hname, before, after, happend, hbefore⟩ := List.find?_eq_some_iff_append.1 hfind
  have hpairwise := (Cut.pieces hscan).pairwise
  rw [happend] at hpairwise ⊢
  refine ⟨p, List.mem_append_right _ List.mem_cons_self, eq_of_beq hname, rfl, fun q hq hqn => ?_⟩
  rcases List.mem_append.1 hq with hq | hq
  · have hne := hbefore q hq
    rw [hqn, beq_self_eq_true] at hne
    contradiction
  · rcases List.mem_cons.1 hq with rfl | hq
    · exact Nat.le_refl _
    · have hle := (List.pairwise_cons.1 (List.pairwise_append.1 hpairwise).2.1).1 q hq
      rw [Piece.stop] at hle
      omega

/-- What stands at a place of a piece. -/
theorem getElem?_of_mem_pieces (hscan : Token.scan source = some ts)
    (hp : p ∈ Token.pieces source) {i : ℕ} (hle : p.place ≤ i) (hlt : i < p.stop) :
    source.toList[i]? = p.chars[i - p.place]? := by
  obtain ⟨before, after, heq, hplace, -⟩ := (Cut.pieces hscan).exists_append hp
  rw [Piece.stop] at hlt
  rw [heq, List.getElem?_append_right (by omega), List.getElem?_append_left (by omega)]
  congr 1
  omega

/-- A token that is a name is a word, and no word goes on behind it. -/
theorem isWord_of_mem_pieces (hscan : Token.scan source = some ts)
    (hp : p ∈ Token.pieces source) (hname : p.name? = some name) :
    p.chars = name.toList ∧ Token.IsWord name.toList (source.toList.drop p.stop) ∧
      source.toList.drop p.place = name.toList ++ source.toList.drop p.stop := by
  obtain ⟨before, after, heq, hplace, hword⟩ := (Cut.pieces hscan).exists_append hp
  obtain ⟨hchars, hword⟩ := hword name hname
  rw [Nat.zero_add] at hplace
  have hstop : source.toList.drop p.stop = after := by
    rw [heq, Piece.stop, hplace, ← List.append_assoc]
    exact List.drop_left' List.length_append
  rw [hchars] at hword heq
  refine ⟨hchars, hstop ▸ hword, ?_⟩
  rw [hstop, heq, hplace, List.drop_left]

theorem place_lt_length (hscan : Token.scan source = some ts) (hp : p ∈ Token.pieces source)
    (hname : p.name? = some name) : p.place < source.toList.length := by
  obtain ⟨-, hword, hdrop⟩ := isWord_of_mem_pieces hscan hp hname
  obtain ⟨c, hc, -⟩ := hword.starts
  have hmem : c ∈ source.toList.drop p.place :=
    hdrop ▸ List.mem_append_left _ (List.mem_of_mem_head? hc)
  by_contra hlt
  rw [List.drop_eq_nil_of_le (Nat.le_of_not_lt hlt)] at hmem
  exact List.not_mem_nil hmem

/-- A token that is a name stands by itself unless a letter stands right in front of it. -/
theorem standsAt_iff_freeAt (hscan : Token.scan source = some ts)
    (hp : p ∈ Token.pieces source) (hname : p.name? = some name) :
    standsAt name source p.place = true ↔ FreeAt source p.place := by
  obtain ⟨hchars, hword, hdrop⟩ := isWord_of_mem_pieces hscan hp hname
  rw [standsAt, standsIn_iff]
  refine ⟨fun h => h.2.1, fun hfree => ⟨hdrop ▸ List.prefix_append _ _, hfree, fun c hc => ?_⟩⟩
  rw [← hchars, ← List.head?_drop] at hc
  have hnot := hword.ends c hc
  by_contra hblocks
  rw [isWordChar_of_blocksAfter (Bool.eq_true_of_not_eq_false hblocks)] at hnot
  contradiction

/-- The first character of a name at a place where it stands by itself. -/
theorem getElem?_of_standsAt {i : ℕ} (h : standsAt name source i = true)
    (hc : name.toList.head? = some c) : source.toList[i]? = some c := by
  obtain ⟨rest, hrest⟩ := (standsIn_iff.1 h).1
  cases hname : name.toList with
  | nil =>
    rw [hname] at hc
    contradiction
  | cons d ds =>
    rw [hname] at hc hrest
    rw [← List.head?_drop, ← hrest]
    exact hc

/-- **A name stands by itself only in pieces.** -/
theorem exists_of_standsAt (hscan : Token.scan source = some ts) {i : ℕ}
    (hname : ∃ c ∈ name.toList.head?, Text.isWordChar c = true)
    (h : standsAt name source i = true) :
    ∃ p ∈ Token.pieces source, p.place ≤ i ∧ i < p.stop := by
  obtain ⟨c, hc, hword⟩ := hname
  have hblank : Text.isBlank c = false := by
    by_contra hblank
    rw [isWordChar_of_isBlank (Bool.eq_true_of_not_eq_false hblank)] at hword
    contradiction
  have hcover := (Cut.pieces hscan).cover (getElem?_of_standsAt h hc) hblank
  rwa [Nat.zero_add] at hcover

/-- **The search finds the first token of a name exactly if nothing disturbs it.** -/
theorem namePosition_eq_iff_undisturbed (hscan : Token.scan source = some ts)
    (ht : firstPlace? name source = some t) :
    namePosition name source = t ↔ Undisturbed name source t := by
  obtain ⟨p, hp, hname, rfl, hfirst⟩ := exists_of_firstPlace? hscan ht
  obtain ⟨-, hword, -⟩ := isWord_of_mem_pieces hscan hp hname
  obtain ⟨c, hc, -⟩ := hword.starts
  have hfirstChar := hword.isWordChar c (List.mem_of_mem_head? hc)
  rw [namePosition_eq_iff (place_lt_length hscan hp hname), standsAt_iff_freeAt hscan hp hname]
  constructor
  · rintro ⟨hfree, hleast⟩
    exact ⟨hfree, fun q hq hne i hi hle hlt => hleast i hi⟩
  · rintro ⟨hfree, halone⟩
    refine ⟨hfree, fun i hi => ?_⟩
    by_contra hstands
    have hstands := Bool.eq_true_of_not_eq_false hstands
    obtain ⟨q, hq, hle, hlt⟩ := exists_of_standsAt hscan ⟨c, hc, hfirstChar⟩ hstands
    -- the piece stands before the first token of the name, so that it is another one
    have hne : q.name? ≠ some name := by
      intro heq
      have hfirst := hfirst q hq heq
      omega
    rw [halone q hq hne i hi hle hlt] at hstands
    contradiction

/-! ## Texts that disturb no name -/

/-- Whether a letter or an underscore stands right behind a digit. -/
def letterBehindDigit : List Char → Bool
  | a :: b :: cs => a.isDigit && blocksBefore b || letterBehindDigit (b :: cs)
  | _ => false

theorem letterBehindDigit_of_getElem? {cs : List Char} {i : ℕ} {a b : Char}
    (ha : cs[i]? = some a) (hb : cs[i + 1]? = some b) (hdigit : a.isDigit = true)
    (hletter : blocksBefore b = true) : letterBehindDigit cs = true := by
  induction cs generalizing i with
  | nil => contradiction
  | cons c cs ih =>
    cases cs with
    | nil => contradiction
    | cons d cs =>
      rw [letterBehindDigit, Bool.or_eq_true, Bool.and_eq_true]
      cases i with
      | zero =>
        obtain rfl := Option.some.inj ha
        obtain rfl := Option.some.inj hb
        exact .inl ⟨hdigit, hletter⟩
      | succ i => exact .inr (ih ha hb)

/-- Whether a piece cannot disturb a name: an identifier does not if it is in ASCII and no letter in
it stands behind a digit; anything else does not if it lacks the first character of the name and
does not end in a letter. -/
def Piece.spares (name : String) (p : Piece) : Bool :=
  if p.name?.isSome then p.chars.all (fun c => decide (c.toNat < 128)) && !letterBehindDigit p.chars
  else !name.toList.head?.any p.chars.contains && !p.chars.getLast?.any blocksBefore

/-- What stands in front of a place. -/
theorem getLast?_take_succ {cs : List Char} {i : ℕ} (hi : cs[i]? = some c) :
    (cs.take (i + 1)).getLast? = some c := by
  rw [List.getLast?_take, if_neg (Nat.succ_ne_zero i), Nat.add_sub_cancel, hi, Option.some_or]

theorem exists_of_getLast?_take {cs : List Char} {i : ℕ} (hc : c ∈ (cs.take i).getLast?)
    (hi : i < cs.length) : ∃ k, i = k + 1 ∧ cs[k]? = some c := by
  cases i with
  | zero => contradiction
  | succ k =>
    refine ⟨k, rfl, ?_⟩
    rw [Option.mem_def, getLast?_take_succ (List.getElem?_eq_getElem (by omega))] at hc
    rw [← hc]
    exact List.getElem?_eq_getElem (by omega)

/-- A name does not stand by itself where a longer one in ASCII stands, or a part of it. -/
theorem not_standsAt_place {w : String} (hscan : Token.scan source = some ts)
    (hp : p ∈ Token.pieces source) (hw : p.name? = some w) (hascii : ∀ c ∈ p.chars, c.toNat < 128)
    (hname : ∀ c ∈ name.toList, Text.isWordChar c = true) (hne : w ≠ name) :
    standsAt name source p.place = false := by
  obtain ⟨hchars, hword, hdrop⟩ := isWord_of_mem_pieces hscan hp hw
  rw [hchars] at hascii
  by_contra hstands
  obtain ⟨hbegins, -, hafter⟩ := standsIn_iff.1 (Bool.eq_true_of_not_eq_false hstands)
  rw [hdrop] at hbegins
  rcases List.prefix_or_prefix_of_prefix hbegins (List.prefix_append _ _) with hshort | hlong
  · -- the name ends inside the longer one
    obtain ⟨ds, hds⟩ := hshort
    cases ds with
    | nil =>
      rw [List.append_nil, String.toList_inj] at hds
      exact hne hds.symm
    | cons d ds =>
      have hd : d ∈ w.toList := hds ▸ List.mem_append_right _ List.mem_cons_self
      have hbehind : source.toList[p.place + name.toList.length]? = some d := by
        rw [← List.getElem?_drop, hdrop, ← hds, List.append_assoc,
          List.getElem?_append_right (Nat.le_refl _), Nat.sub_self]
        rfl
      have hblocks := hafter d hbehind
      rw [blocksAfter_of_isWordChar (hascii d hd) (hword.isWordChar d hd)] at hblocks
      contradiction
  · -- the name goes on behind the token
    obtain ⟨ds, hds⟩ := hlong
    cases ds with
    | nil =>
      rw [List.append_nil, String.toList_inj] at hds
      exact hne hds
    | cons d ds =>
      have hd : d ∈ name.toList := hds ▸ List.mem_append_right _ List.mem_cons_self
      rw [← hds, List.prefix_append_right_inj] at hbegins
      obtain ⟨more, hmore⟩ := hbegins
      have hends := hword.ends d (hmore ▸ rfl)
      rw [hname d hd] at hends
      contradiction

/-- Inside a name in ASCII another one stands by itself only behind a digit. -/
theorem letterBehindDigit_of_standsAt {w : String} (hscan : Token.scan source = some ts)
    (hp : p ∈ Token.pieces source) (hw : p.name? = some w) (hascii : ∀ c ∈ p.chars, c.toNat < 128)
    (hname : ∃ c ∈ name.toList.head?, Text.startsIdentifier c = true) {i : ℕ} (hlt : p.place < i)
    (hi : i < p.stop) (hstands : standsAt name source i = true) :
    letterBehindDigit p.chars = true := by
  obtain ⟨hchars, hword, -⟩ := isWord_of_mem_pieces hscan hp hw
  rw [← hchars] at hword
  obtain ⟨c, hc, hstarts⟩ := hname
  obtain ⟨k, rfl⟩ : ∃ k, i = p.place + k + 1 := ⟨i - p.place - 1, by omega⟩
  have hk : k + 1 < p.chars.length := by
    rw [Piece.stop] at hi
    omega
  have hhead := getElem?_of_standsAt hstands hc
  rw [getElem?_of_mem_pieces hscan hp (by omega) hi, Nat.add_assoc, Nat.add_sub_cancel_left]
    at hhead
  obtain ⟨b, hb⟩ : ∃ b, p.chars[k]? = some b := ⟨_, List.getElem?_eq_getElem (by omega)⟩
  have hbehind : source.toList[p.place + k]? = some b := by
    rw [getElem?_of_mem_pieces hscan hp (by omega) (by omega), Nat.add_sub_cancel_left, hb]
  have hfree := (standsIn_iff.1 hstands).2.1 b (getLast?_take_succ hbehind)
  have hbw := List.mem_of_getElem? hb
  have hblocks := blocksAfter_of_isWordChar (hascii b hbw) (hword.isWordChar b hbw)
  have hletter := blocksBefore_of_startsIdentifier (hascii c (List.mem_of_getElem? hhead)) hstarts
  exact letterBehindDigit_of_getElem? hb hhead (isDigit_of_blocksAfter hblocks hfree) hletter

/-- A piece that spares a name holds it nowhere by itself, unless it is that name. -/
theorem not_standsAt_of_spares (hscan : Token.scan source = some ts)
    (hp : p ∈ Token.pieces source) (hspares : p.spares name = true) (hne : p.name? ≠ some name)
    {rest : List Char} (hname : Token.IsWord name.toList rest) {i : ℕ} (hle : p.place ≤ i)
    (hlt : i < p.stop) :
    standsAt name source i = false := by
  by_contra hstands
  have hstands := Bool.eq_true_of_not_eq_false hstands
  rw [Piece.spares] at hspares
  cases hw : p.name? with
  | some w =>
    rw [hw, Option.isSome_some, if_pos rfl, Bool.and_eq_true, Bool.not_eq_true'] at hspares
    have hascii : ∀ c ∈ p.chars, c.toNat < 128 := fun c hc =>
      of_decide_eq_true (List.all_eq_true.1 hspares.1 c hc)
    rcases Nat.eq_or_lt_of_le hle with rfl | hinside
    · have hother : w ≠ name := fun heq => hne (heq ▸ hw)
      rw [not_standsAt_place hscan hp hw hascii hname.isWordChar hother] at hstands
      contradiction
    · rw [letterBehindDigit_of_standsAt hscan hp hw hascii hname.starts hinside hlt hstands]
        at hspares
      exact absurd hspares.2 (by simp)
  | none =>
    rw [hw, Option.isSome_none, if_neg Bool.false_ne_true, Bool.and_eq_true] at hspares
    obtain ⟨c, hc, -⟩ := hname.starts
    have hhead := getElem?_of_standsAt hstands hc
    rw [getElem?_of_mem_pieces hscan hp hle hlt] at hhead
    rw [Option.mem_def.1 hc] at hspares
    have hmem := List.mem_of_getElem? hhead
    exact absurd hspares.1 (by simpa using hmem)

/-- No letter stands right in front of a name behind pieces that spare it. -/
theorem freeAt_of_spares (hscan : Token.scan source = some ts)
    (hp : p ∈ Token.pieces source) (hname : p.name? = some name)
    (hspares : ∀ q ∈ Token.pieces source, q.place < p.place → q.spares name = true) :
    FreeAt source p.place := by
  intro c hc
  by_contra hblocks
  have hblocks := Bool.eq_true_of_not_eq_false hblocks
  have hword := isWordChar_of_blocksBefore hblocks
  have hblank : Text.isBlank c = false := by
    by_contra hblank
    rw [isWordChar_of_isBlank (Bool.eq_true_of_not_eq_false hblank)] at hword
    contradiction
  obtain ⟨k, hplace, hk⟩ := exists_of_getLast?_take hc (place_lt_length hscan hp hname)
  have hcut := Cut.pieces hscan
  obtain ⟨q, hq, hle, hlt⟩ := hcut.cover hk hblank
  -- the piece that holds the letter ends where the name begins
  have hstop : q.stop = p.place := by
    have hne : q ≠ p := by
      rintro rfl
      omega
    have hp' : p.stop = p.place + p.chars.length := rfl
    rcases hcut.stop_le_or hq hp hne with hle | hle <;> omega
  cases hw : q.name? with
  | some w =>
    obtain ⟨-, hother, -⟩ := isWord_of_mem_pieces hscan hq hw
    obtain ⟨-, hword, hdrop⟩ := isWord_of_mem_pieces hscan hp hname
    obtain ⟨d, hd, -⟩ := hword.starts
    have hends := hother.ends d (by rw [hstop, hdrop, List.head?_append, Option.mem_def.1 hd]; rfl)
    rw [hword.isWordChar d (List.mem_of_mem_head? hd)] at hends
    contradiction
  | none =>
    have hspares := hspares q hq (by omega)
    rw [Piece.spares, hw, Option.isSome_none, if_neg Bool.false_ne_true, Bool.and_eq_true]
      at hspares
    have hlast : q.chars.getLast? = some c := by
      rw [getElem?_of_mem_pieces hscan hq (by omega) (by omega)] at hk
      rw [List.getLast?_eq_getElem?, ← hk]
      congr 1
      rw [Piece.stop] at hstop
      omega
    rw [hlast, Option.any_some, hblocks] at hspares
    exact absurd hspares.2 (by simp)

/-- **A name behind pieces that spare it is found.** -/
theorem undisturbed_of_spares (hscan : Token.scan source = some ts)
    (ht : firstPlace? name source = some t)
    (hspares : ∀ p ∈ Token.pieces source, p.place < t → p.spares name = true) :
    Undisturbed name source t := by
  obtain ⟨p, hp, hname, rfl, hfirst⟩ := exists_of_firstPlace? hscan ht
  obtain ⟨-, hword, -⟩ := isWord_of_mem_pieces hscan hp hname
  refine ⟨freeAt_of_spares hscan hp hname hspares, fun q hq hne i hi hle hlt => ?_⟩
  exact not_standsAt_of_spares hscan hq (hspares q hq (by omega)) hne hword hle hlt

end

end ErrorBars.Formula
