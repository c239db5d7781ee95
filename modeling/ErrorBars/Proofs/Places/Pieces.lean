import ErrorBars.Proofs.Places.Step

/-!
# Where the tokens of a text stand

`pieces` are the parts of a text that scanning takes one after the other, each with its place and
its tokens; `flatMap_pieces` says that these are the tokens of the text.  `Cut` describes how pieces
lie in a text: one behind the other, with nothing but blanks between them, and every name is a whole
word.  Whatever stands in a text and is no blank stands in a piece (`Cut.cover`).
-/

set_option autoImplicit false

namespace ErrorBars.Formula

/-- A part of a text that scanning takes in one step. -/
structure Piece where
  /-- the place of its first character -/
  place : ℕ
  /-- its characters -/
  chars : List Char
  /-- what becomes of it -/
  tokens : List Token

namespace Piece

/-- The place behind a piece. -/
def stop (p : Piece) : ℕ := p.place + p.chars.length

/-- The name that a piece is, if it is one. -/
def name? (p : Piece) : Option String :=
  match p.tokens with
  | [.name s] => some s
  | _ => none

theorem name?_eq_some {p : Piece} {s : String} : p.name? = some s ↔ p.tokens = [.name s] := by
  unfold name?
  split
  · rename_i heq
    simp [heq]
  · rename_i hne
    exact ⟨nofun, fun heq => absurd heq (hne s)⟩

end Piece

namespace Token

/-- The pieces of a text whose first character has the given place. -/
def piecesFrom : ℕ → ScanState → ℕ → List Char → List Piece
  | 0, _, _, _ => []
  | fuel + 1, state, place, cs =>
    let blanks := cs.takeWhile isSpace
    let body := cs.dropWhile isSpace
    match step state blanks body with
    | .last ts => [⟨place + blanks.length, [], ts.getD []⟩]
    | .next ts state rest =>
      let p : Piece := ⟨place + blanks.length, body.take (body.length - rest.length), ts⟩
      p :: piecesFrom fuel state p.stop rest

/-- The pieces of a text. -/
def pieces (source : String) : List Piece :=
  let cs := Text.strip source.toList
  piecesFrom (2 * cs.length + 2) ⟨0, true⟩ (source.toList.takeWhile Text.isBlank).length cs

variable {fuel place : ℕ} {state : ScanState} {cs : List Char} {ts : List Token}

theorem flatMap_piecesFrom (h : scanFrom fuel state cs = some ts) :
    (piecesFrom fuel state place cs).flatMap Piece.tokens = ts := by
  induction fuel generalizing place state cs ts with
  | zero => contradiction
  | succ fuel ih =>
    rw [scanFrom_succ] at h
    rw [piecesFrom]
    cases hstep : step state (cs.takeWhile isSpace) (cs.dropWhile isSpace) with
    | last us =>
      rw [hstep] at h
      obtain rfl : us = some ts := h
      simp
    | next us state' rest =>
      rw [hstep] at h
      obtain ⟨vs, hvs, rfl⟩ := Option.map_eq_some_iff.1 h
      simp [ih hvs]

/-- **The pieces of a text become its tokens.** -/
theorem flatMap_pieces {source : String} (h : scan source = some ts) :
    (pieces source).flatMap Piece.tokens = ts :=
  flatMap_piecesFrom h

end Token

/-! ## How pieces lie in a text -/

/-- The pieces lie in a text whose first character has the given place, one behind the other. -/
inductive Cut : ℕ → List Char → List Piece → Prop where
  /-- blanks alone -/
  | nil {place : ℕ} {blanks : List Char} (hblanks : ∀ c ∈ blanks, Text.isBlank c = true) :
      Cut place blanks []
  /-- a piece behind blanks -/
  | cons {place : ℕ} {blanks rest : List Char} {p : Piece} {ps : List Piece}
      (hblanks : ∀ c ∈ blanks, Text.isBlank c = true) (hplace : p.place = place + blanks.length)
      (hname : ∀ s, p.name? = some s → p.chars = s.toList ∧ Token.IsWord p.chars rest)
      (hrest : Cut p.stop rest ps) : Cut place (blanks ++ (p.chars ++ rest)) (p :: ps)

theorem isBlank_of_isSpace {c : Char} (h : Token.isSpace c = true) : Text.isBlank c = true := by
  rw [Token.isSpace, Bool.or_eq_true, Bool.or_eq_true, beq_iff_eq, beq_iff_eq, beq_iff_eq] at h
  rcases h with (rfl | rfl) | rfl <;> decide +kernel

/-- Two tables of ranges without a common character. -/
def apart (rs qs : Array (ℕ × ℕ)) : Bool :=
  rs.toList.all fun r => qs.toList.all fun q => decide (r.2 < q.1 ∨ q.2 < r.1)

theorem inRanges_of_apart {rs qs : Array (ℕ × ℕ)} {c : Char} (h : apart rs qs = true)
    (hc : Text.inRanges rs c = true) : Text.inRanges qs c = false := by
  rw [Text.inRanges, Array.any_eq_true'] at hc
  obtain ⟨r, hr, hin⟩ := hc
  rw [Text.inRanges, Array.any_eq_false']
  intro q hq
  have hrow := List.all_eq_true.1 h r (Array.mem_toList_iff.2 hr)
  have hapart := of_decide_eq_true (List.all_eq_true.1 hrow q (Array.mem_toList_iff.2 hq))
  simp only [Bool.and_eq_true, decide_eq_true_eq] at hin ⊢
  omega

/-- No blank is a letter. -/
theorem isWordChar_of_isBlank {c : Char} (h : Text.isBlank c = true) :
    Text.isWordChar c = false := by
  have hstart := @inRanges_of_apart _ Text.identifierStartRanges c (by decide +kernel) h
  have hcontinue := @inRanges_of_apart _ Text.identifierContinueRanges c (by decide +kernel) h
  have hword := @inRanges_of_apart _ Text.wordOnlyRanges c (by decide +kernel) h
  rw [Text.isWordChar, Text.continuesIdentifier, hstart, hcontinue, hword]
  split
  · rename_i hascii
    have hall : ((List.range 128).all fun n => !Text.isBlank (Char.ofNat n) ||
        !(Char.ofNat n).isAlphanum && Char.ofNat n != '_') = true := by
      decide +kernel
    have hc := List.all_eq_true.1 hall c.toNat (List.mem_range.2 hascii)
    rw [Char.ofNat_toNat, h, Bool.not_true, Bool.false_or, Bool.and_eq_true] at hc
    rw [Bool.or_eq_false_iff]
    exact ⟨by simpa using hc.1, by simpa using hc.2⟩
  · rfl

namespace Cut

open Token

variable {place : ℕ} {cs : List Char} {ps : List Piece} {p : Piece}

/-- A piece that is taken behind blanks. -/
theorem taken {blanks taken rest : List Char} {ts : List Token}
    (hblanks : ∀ c ∈ blanks, Text.isBlank c = true)
    (hname : ∀ s, ts = [.name s] → taken ++ rest = s.toList ++ rest ∧ IsWord s.toList rest)
    (hrest : Cut (place + blanks.length + taken.length) rest ps) :
    Cut place (blanks ++ (taken ++ rest)) (⟨place + blanks.length, taken, ts⟩ :: ps) := by
  refine .cons (p := ⟨place + blanks.length, taken, ts⟩) hblanks rfl (fun s hs => ?_) hrest
  obtain ⟨htaken, hword⟩ := hname s (Piece.name?_eq_some.1 hs)
  obtain rfl := List.append_cancel_right htaken
  exact ⟨rfl, hword⟩

/-- The pieces of a text that can be scanned lie in it. -/
theorem piecesFrom {fuel : ℕ} {state : ScanState} {ts : List Token}
    (h : scanFrom fuel state cs = some ts) : Cut place cs (piecesFrom fuel state place cs) := by
  induction fuel generalizing place state cs ts with
  | zero => contradiction
  | succ fuel ih =>
    have hblanks : ∀ c ∈ cs.takeWhile isSpace, Text.isBlank c = true := fun c hc =>
      isBlank_of_isSpace (List.all_eq_true.1 List.all_takeWhile c hc)
    have hcs : cs.takeWhile isSpace ++ cs.dropWhile isSpace = cs := List.takeWhile_append_dropWhile
    rw [scanFrom_succ] at h
    rw [Token.piecesFrom]
    generalize cs.takeWhile isSpace = blanks, cs.dropWhile isSpace = body at h hblanks hcs ⊢
    have hfits := @fits_step state blanks body
    subst hcs
    cases hstep : step state blanks body with
    | last us =>
      rw [hstep] at h hfits
      obtain rfl : us = some ts := h
      obtain ⟨rfl, hname⟩ := hfits ts rfl
      have hlast : Cut place (blanks ++ ([] ++ [])) [⟨place + blanks.length, [], ts⟩] :=
        taken hblanks (fun s hs => absurd hs (hname s)) (.nil nofun)
      exact hlast
    | next us state' rest =>
      rw [hstep] at h hfits
      obtain ⟨⟨chars, rfl⟩, hname⟩ := hfits
      obtain ⟨vs, hvs, -⟩ := Option.map_eq_some_iff.1 h
      have htake : (chars ++ rest).take ((chars ++ rest).length - rest.length) = chars := by
        rw [List.length_append, Nat.add_sub_cancel, List.take_left]
      simp only [htake]
      exact taken hblanks hname (ih hvs)

/-! ### Blanks around a text -/

theorem blanks_append {blanks : List Char} (hblanks : ∀ c ∈ blanks, Text.isBlank c = true)
    (h : Cut (place + blanks.length) cs ps) : Cut place (blanks ++ cs) ps := by
  cases h with
  | nil hmore => exact .nil (List.forall_mem_append.2 ⟨hblanks, hmore⟩)
  | cons hmore hplace hname hrest =>
    rw [← List.append_assoc]
    refine .cons (List.forall_mem_append.2 ⟨hblanks, hmore⟩) ?_ hname hrest
    rw [hplace, List.length_append, Nat.add_assoc]

theorem append_blanks {blanks : List Char} (hblanks : ∀ c ∈ blanks, Text.isBlank c = true)
    (h : Cut place cs ps) : Cut place (cs ++ blanks) ps := by
  induction h with
  | nil hmore => exact .nil (List.forall_mem_append.2 ⟨hmore, hblanks⟩)
  | @cons place more rest p ps hmore hplace hname hrest ih =>
    rw [List.append_assoc, List.append_assoc]
    refine .cons hmore hplace (fun s hs => ?_) ih
    obtain ⟨hchars, hword⟩ := hname s hs
    refine ⟨hchars, hword.starts, hword.isWordChar, fun c hc => ?_⟩
    cases rest with
    | nil => exact isWordChar_of_isBlank (hblanks c (List.mem_of_mem_head? hc))
    | cons d rest => exact hword.ends c hc

/-- **The pieces of a text lie in it.** -/
theorem pieces {source : String} {ts : List Token} (h : scan source = some ts) :
    Cut 0 source.toList (pieces source) := by
  have hcut : Cut (0 + (source.toList.takeWhile Text.isBlank).length) (Text.strip source.toList)
      (Token.pieces source) := by
    rw [Nat.zero_add]
    exact piecesFrom h
  rw [Text.strip] at hcut
  have hblanks {ds : List Char} : ∀ c ∈ ds.takeWhile Text.isBlank, Text.isBlank c = true :=
    List.all_eq_true.1 List.all_takeWhile
  have hsplit (ds : List Char) : ds.takeWhile Text.isBlank ++ ds.dropWhile Text.isBlank = ds :=
    List.takeWhile_append_dropWhile
  have hback {c : Char} (hc : c ∈ ((source.toList.dropWhile Text.isBlank).reverse.takeWhile
      Text.isBlank).reverse) : Text.isBlank c = true :=
    hblanks c (List.mem_reverse.1 hc)
  have hwhole := blanks_append hblanks (append_blanks (fun c => hback) hcut)
  rwa [← List.reverse_append, hsplit, List.reverse_reverse, hsplit] at hwhole

/-! ### What stands where -/

theorem place_le (h : Cut place cs ps) (hp : p ∈ ps) : place ≤ p.place := by
  induction h with
  | nil => cases hp
  | cons hblanks hplace hname hrest ih =>
    rcases List.mem_cons.1 hp with rfl | hp
    · omega
    · have hle := ih hp
      rw [Piece.stop] at hle
      omega

/-- Every piece ends before the next one begins. -/
theorem pairwise (h : Cut place cs ps) : ps.Pairwise fun p q => p.stop ≤ q.place := by
  induction h with
  | nil => exact .nil
  | cons hblanks hplace hname hrest ih => exact .cons (fun q hq => hrest.place_le hq) ih

/-- Of two pieces one ends before the other begins. -/
theorem stop_le_or {q : Piece} (h : Cut place cs ps) (hp : p ∈ ps) (hq : q ∈ ps) (hne : p ≠ q) :
    p.stop ≤ q.place ∨ q.stop ≤ p.place := by
  induction h with
  | nil => cases hp
  | cons hblanks hplace hname hrest ih =>
    rcases List.mem_cons.1 hp with rfl | hp' <;> rcases List.mem_cons.1 hq with rfl | hq'
    · exact absurd rfl hne
    · exact .inl (hrest.place_le hq')
    · exact .inr (hrest.place_le hp')
    · exact ih hp' hq'

/-- A piece has something in front of it and something behind it. -/
theorem exists_append (h : Cut place cs ps) (hp : p ∈ ps) :
    ∃ before after, cs = before ++ (p.chars ++ after) ∧ p.place = place + before.length ∧
      ∀ s, p.name? = some s → p.chars = s.toList ∧ IsWord p.chars after := by
  induction h with
  | nil => cases hp
  | @cons place blanks rest q ps hblanks hplace hname hrest ih =>
    rcases List.mem_cons.1 hp with rfl | hp
    · exact ⟨blanks, rest, rfl, hplace, hname⟩
    · obtain ⟨before, after, rfl, hstop, hword⟩ := ih hp
      refine ⟨blanks ++ (q.chars ++ before), after, ?_, ?_, hword⟩
      · simp only [List.append_assoc]
      · rw [hstop, Piece.stop, hplace]
        simp only [List.length_append]
        omega

/-- **What is no blank stands in a piece.** -/
theorem cover {i : ℕ} {c : Char} (h : Cut place cs ps) (hi : cs[i]? = some c)
    (hc : Text.isBlank c = false) : ∃ p ∈ ps, p.place ≤ place + i ∧ place + i < p.stop := by
  induction h generalizing i with
  | nil hblanks =>
    rw [hblanks c (List.mem_of_getElem? hi)] at hc
    contradiction
  | @cons place blanks rest p ps hblanks hplace hname hrest ih =>
    have hstop : p.stop = p.place + p.chars.length := rfl
    by_cases hfront : i < blanks.length
    · rw [List.getElem?_append_left hfront] at hi
      rw [hblanks c (List.mem_of_getElem? hi)] at hc
      contradiction
    · rw [List.getElem?_append_right (by omega)] at hi
      by_cases hin : i - blanks.length < p.chars.length
      · exact ⟨p, List.mem_cons_self, by omega, by omega⟩
      · rw [List.getElem?_append_right (by omega)] at hi
        obtain ⟨q, hq, hle, hlt⟩ := ih hi
        exact ⟨q, List.mem_cons_of_mem p hq, by omega, by omega⟩

end Cut

end ErrorBars.Formula
