import ErrorBars.Formula.Parse
import Mathlib.Data.String.Basic

/-!
# Where a name stands by itself

`namePosition` walks through a text and stops at the first place at which a name stands by itself.
`standsAt` says this of one place, so that the place found is the least one
(`namePosition_eq_iff`).  `IsPlace` says without the search what the place of a name is: the first
one at which it stands by itself, or the end; the search finds it (`isPlace_iff`).

Variables are listed by these places (`pairwise_namePosition`).  Several of them may share the end,
and then their names decide, so that the list is given by the set of them
(`eq_of_pairwise_before`).
-/

set_option autoImplicit false

namespace ErrorBars.Formula

/-- Whether a name stands by itself at a place of a text. -/
def standsIn (name cs : List Char) (i : ℕ) : Bool :=
  standsAlone name (cs.take i).getLast? (cs.drop i)

/-- Whether a name stands by itself at a place of a source. -/
def standsAt (name source : String) (i : ℕ) : Bool := standsIn name.toList source.toList i

section

variable {name cs : List Char} {i : ℕ}

theorem standsIn_iff : standsIn name cs i = true ↔
    name <+: cs.drop i ∧ (∀ c ∈ (cs.take i).getLast?, blocksBefore c = false) ∧
      ∀ c ∈ cs[i + name.length]?, blocksAfter c = false := by
  have hnone (o : Option Char) (p : Char → Bool) :
      (!o.any p) = true ↔ ∀ c ∈ o, p c = false := by
    cases o <;> simp
  rw [standsIn, standsAlone, Bool.and_eq_true, Bool.and_eq_true, List.isPrefixOf_iff_prefix,
    List.drop_drop, List.head?_drop, hnone, hnone, and_assoc]

/-- The search stops at the first place behind `before` at which the name stands by itself, or at
the end. -/
theorem positionFrom_spec (name before rest : List Char) :
    let k := positionFrom name before.getLast? before.length rest
    (∀ j, before.length ≤ j → j < k → standsIn name (before ++ rest) j = false) ∧
      (standsIn name (before ++ rest) k = true ∨ k = before.length + rest.length) := by
  induction rest generalizing before with
  | nil =>
    refine ⟨fun j hle hlt => ?_, .inr rfl⟩
    rw [positionFrom] at hlt
    omega
  | cons c rest ih =>
    have hhere : standsIn name (before ++ c :: rest) before.length =
        standsAlone name before.getLast? (c :: rest) := by
      rw [standsIn, List.take_left, List.drop_left]
    rw [positionFrom]
    split
    · rename_i hstands
      refine ⟨fun j hle hlt => ?_, .inl (hhere.trans hstands)⟩
      omega
    · rename_i hstands
      obtain ⟨hleast, hfound⟩ := ih (before ++ [c])
      rw [List.getLast?_concat, List.length_append, List.append_assoc] at hleast hfound
      refine ⟨fun j hle hlt => ?_, hfound.imp_right fun hk => ?_⟩
      · rcases Nat.eq_or_lt_of_le hle with rfl | hle
        · exact hhere.trans (Bool.eq_false_iff.2 hstands)
        · exact hleast j hle hlt
      · rw [List.length_singleton] at hk
        rw [hk, List.length_cons]
        omega

end

variable {name source : String} {t : ℕ}

/-- Nowhere before the place that is found does the name stand by itself. -/
theorem standsAt_of_lt {i : ℕ} (h : i < namePosition name source) :
    standsAt name source i = false :=
  (positionFrom_spec name.toList [] source.toList).1 i (Nat.zero_le i) h

theorem namePosition_le (h : standsAt name source t = true) : namePosition name source ≤ t := by
  by_contra hlt
  rw [standsAt_of_lt (Nat.lt_of_not_le hlt)] at h
  contradiction

/-- **The place that is found is the first one.** -/
theorem namePosition_eq_iff (ht : t < source.toList.length) :
    namePosition name source = t ↔
      standsAt name source t = true ∧ ∀ i < t, standsAt name source i = false := by
  constructor
  · rintro rfl
    refine ⟨?_, fun i => standsAt_of_lt⟩
    refine (positionFrom_spec name.toList [] source.toList).2.resolve_right fun hend => ?_
    rw [List.length_nil, Nat.zero_add] at hend
    exact absurd hend (Nat.ne_of_lt ht)
  · rintro ⟨hstands, hleast⟩
    rcases Nat.eq_or_lt_of_le (namePosition_le hstands) with heq | hlt
    · exact heq
    · rcases (positionFrom_spec name.toList [] source.toList).2 with hfound | hend
      · exact absurd hfound (Bool.eq_false_iff.1 (hleast _ hlt))
      · have hlength : namePosition name source = 0 + source.toList.length := hend
        omega

/-! ## The place of a name -/

/-- The character is an ASCII letter. -/
def IsLetter (c : Char) : Prop := 'A' ≤ c ∧ c ≤ 'Z' ∨ 'a' ≤ c ∧ c ≤ 'z'

/-- The character is an ASCII digit. -/
def IsDigit (c : Char) : Prop := '0' ≤ c ∧ c ≤ '9'

/-- A name stands by itself in a text, with `i` characters in front of it. -/
def StandsAlone (name source : String) (i : ℕ) : Prop :=
  ∃ before after, source.toList = before ++ (name.toList ++ after) ∧ before.length = i ∧
    (∀ c ∈ before.getLast?, ¬ IsLetter c ∧ c ≠ '_') ∧
    ∀ c ∈ after.head?, ¬ IsLetter c ∧ ¬ IsDigit c ∧ c ≠ '_'

/-- The place of a name in a text. -/
inductive IsPlace (name source : String) : ℕ → Prop
  /-- it is the first one at which the name stands by itself -/
  | first {i : ℕ} (stands : StandsAlone name source i)
    (least : ∀ j < i, ¬ StandsAlone name source j) : IsPlace name source i
  /-- or the end if there is none -/
  | nowhere (h : ∀ i, ¬ StandsAlone name source i) : IsPlace name source source.length

theorem isAlpha_iff {c : Char} : c.isAlpha = true ↔ IsLetter c := by
  have halpha : c.isAlpha = (decide ('A'.val ≤ c.val ∧ c.val ≤ 'Z'.val) ||
      decide ('a'.val ≤ c.val) && decide (c.val ≤ 'z'.val)) := rfl
  rw [halpha, Bool.or_eq_true, Bool.and_eq_true, decide_eq_true_iff, decide_eq_true_iff,
    decide_eq_true_iff]
  exact Iff.rfl

theorem isDigit_iff {c : Char} : c.isDigit = true ↔ IsDigit c := by
  have hdigit : c.isDigit = (decide ('0'.val ≤ c.val) && decide (c.val ≤ '9'.val)) := rfl
  rw [hdigit, Bool.and_eq_true, decide_eq_true_iff, decide_eq_true_iff]
  exact Iff.rfl

theorem blocksBefore_eq_false_iff {c : Char} :
    blocksBefore c = false ↔ ¬ IsLetter c ∧ c ≠ '_' := by
  rw [blocksBefore, Bool.or_eq_false_iff, ← isAlpha_iff, Bool.not_eq_true, beq_eq_false_iff_ne]

theorem blocksAfter_eq_false_iff {c : Char} :
    blocksAfter c = false ↔ ¬ IsLetter c ∧ ¬ IsDigit c ∧ c ≠ '_' := by
  have halphanum : c.isAlphanum = (c.isAlpha || c.isDigit) := rfl
  rw [blocksAfter, halphanum, Bool.or_eq_false_iff, Bool.or_eq_false_iff, ← isAlpha_iff,
    ← isDigit_iff, Bool.not_eq_true, Bool.not_eq_true, beq_eq_false_iff_ne, and_assoc]

/-- Beyond the end there is no place, although nothing would block the empty name there. -/
theorem standsAlone_iff {i : ℕ} :
    StandsAlone name source i ↔ i ≤ source.length ∧ standsAt name source i = true := by
  rw [standsAt, standsIn_iff, ← String.length_toList]
  simp only [blocksBefore_eq_false_iff, blocksAfter_eq_false_iff]
  constructor
  · rintro ⟨before, after, hsource, rfl, hbefore, hafter⟩
    have hat : source.toList[before.length + name.toList.length]? = after.head? := by
      rw [hsource, ← List.append_assoc, ← List.length_append,
        List.getElem?_append_right (Nat.le_refl _), Nat.sub_self, List.head?_eq_getElem?]
    rw [hat, hsource, List.drop_left, List.take_left, List.length_append]
    exact ⟨Nat.le_add_right _ _, List.prefix_append _ _, hbefore, hafter⟩
  · rintro ⟨hle, ⟨after, hdrop⟩, hbefore, hafter⟩
    refine ⟨source.toList.take i, after, ?_, List.length_take_of_le hle, hbefore, ?_⟩
    · rw [hdrop, List.take_append_drop]
    · have hat : after.head? = source.toList[i + name.toList.length]? := by
        rw [← List.getElem?_drop, ← hdrop, List.getElem?_append_right (Nat.le_refl _), Nat.sub_self,
          List.head?_eq_getElem?]
      rwa [hat]

theorem positionFrom_le (name : List Char) (before : Option Char) (i : ℕ) (rest : List Char) :
    positionFrom name before i rest ≤ i + rest.length := by
  induction rest generalizing before i with
  | nil => exact Nat.le_refl i
  | cons c rest ih =>
    rw [positionFrom, List.length_cons]
    split
    · omega
    · have hle := ih (some c) (i + 1)
      omega

/-- The search finds the place of a name. -/
theorem isPlace_namePosition (name source : String) :
    IsPlace name source (namePosition name source) := by
  have hleast (j : ℕ) (hj : j < namePosition name source) : ¬ StandsAlone name source j := by
    rw [standsAlone_iff, standsAt_of_lt hj]
    exact fun h => Bool.noConfusion h.2
  have hle : namePosition name source ≤ source.length := by
    have hle := positionFrom_le name.toList none 0 source.toList
    rwa [Nat.zero_add, String.length_toList] at hle
  by_cases hstands : StandsAlone name source (namePosition name source)
  · exact .first hstands hleast
  · -- the search has come to the end, and has found nothing there either
    have hend : namePosition name source = source.length := by
      rcases (positionFrom_spec name.toList [] source.toList).2 with hfound | hend
      · exact absurd (standsAlone_iff.2 ⟨hle, hfound⟩) hstands
      · rw [← String.length_toList, ← Nat.zero_add source.toList.length]
        exact hend
    rw [hend] at hleast hstands ⊢
    refine .nowhere fun i hi => ?_
    rcases Nat.lt_or_eq_of_le (standsAlone_iff.1 hi).1 with hlt | rfl
    · exact hleast i hlt hi
    · exact hstands hi

/-- A name has one place. -/
theorem IsPlace.unique {i j : ℕ} (hi : IsPlace name source i) (hj : IsPlace name source j) :
    i = j := by
  cases hi with
  | first hi hleast =>
    cases hj with
    | first hj hleast' =>
      rcases Nat.lt_trichotomy i j with hlt | heq | hgt
      · exact absurd hi (hleast' i hlt)
      · exact heq
      · exact absurd hj (hleast j hgt)
    | nowhere hnone => exact absurd hi (hnone i)
  | nowhere hnone =>
    cases hj with
    | first hj _ => exact absurd hj (hnone j)
    | nowhere _ => rfl

theorem isPlace_iff {i : ℕ} : IsPlace name source i ↔ namePosition name source = i :=
  ⟨(isPlace_namePosition name source).unique, fun h => h ▸ isPlace_namePosition name source⟩

/-- A digit may stand in front of a name, and a letter may not stand behind it. -/
example : ["x", "y", "xy"].map (namePosition · "xy + 2x") = [6, 7, 0] := by decide +kernel

/-! ## The list of variables -/

theorem comesFirst_iff {v w : String} : comesFirst source v w = true ↔
    namePosition v source < namePosition w source ∨
      namePosition v source = namePosition w source ∧ v ≤ w := by
  rw [comesFirst, le_iff_lt_or_eq]
  simp

theorem comesFirst_trans (u v w : String) (huv : comesFirst source u v = true)
    (hvw : comesFirst source v w = true) : comesFirst source u w = true := by
  rw [comesFirst_iff] at huv hvw ⊢
  rcases huv with huv | ⟨huv, hle⟩
  · left
    omega
  · rcases hvw with hvw | ⟨hvw, hle'⟩
    · left
      omega
    · exact .inr ⟨huv.trans hvw, hle.trans hle'⟩

theorem comesFirst_total (v w : String) :
    (comesFirst source v w || comesFirst source w v) = true := by
  rw [Bool.or_eq_true, comesFirst_iff, comesFirst_iff]
  rcases Nat.lt_trichotomy (namePosition v source) (namePosition w source) with hlt | heq | hlt
  · exact .inl (.inl hlt)
  · exact (le_total v w).imp (fun hle => .inr ⟨heq, hle⟩) fun hle => .inr ⟨heq.symm, hle⟩
  · exact .inr (.inl hlt)

theorem pairwise_comesFirst (source : String) (names : List String) :
    (names.mergeSort (comesFirst source)).Pairwise fun v w => comesFirst source v w = true :=
  List.pairwise_mergeSort comesFirst_trans comesFirst_total names

/-- **Variables are listed by the places that are found.** -/
theorem pairwise_namePosition (e : Expr) (source : String) :
    (freeVariables e source).Pairwise fun v w => namePosition v source ≤ namePosition w source := by
  refine (pairwise_comesFirst source e.freeSymbols).imp fun {v w} h => ?_
  rcases comesFirst_iff.1 h with hlt | ⟨heq, -⟩ <;> omega

/-- One name stands before another: its place is smaller, or the places are the same and the name is
smaller. -/
def Before (source v w : String) : Prop :=
  Prod.Lex (· < ·) (· < ·) (namePosition v source, v) (namePosition w source, w)

/-- Different names in the order of the list increase by place and name. -/
theorem before_of_comesFirst {v w : String} (h : comesFirst source v w = true) (hne : v ≠ w) :
    Before source v w := by
  rw [Before, Prod.lex_def]
  exact (comesFirst_iff.1 h).imp_right fun ⟨heq, hle⟩ => ⟨heq, lt_of_le_of_ne hle hne⟩

/-- Different names increase by place and name when they are put in order. -/
theorem pairwise_before (source : String) {names : List String} (h : names.Nodup) :
    (names.mergeSort (comesFirst source)).Pairwise (Before source) :=
  (pairwise_comesFirst source names).imp₂ (fun _ _ => before_of_comesFirst)
    ((List.mergeSort_perm names _).nodup_iff.2 h)

/-- Names that increase by place and name are given by the set of them. -/
theorem eq_of_pairwise_before {vs ws : List String} (hv : vs.Pairwise (Before source))
    (hw : ws.Pairwise (Before source)) (h : vs.Perm ws) : vs = ws := by
  refine List.Perm.eq_of_pairwise (fun v w _ _ hvw hwv => ?_) hv hw h
  rw [Before, Prod.lex_def] at hvw hwv
  rcases hvw with hvw | ⟨heq, hvw⟩ <;> rcases hwv with hwv | ⟨heq', hwv⟩
  · exact absurd hvw (Nat.lt_asymm hwv)
  · exact absurd heq' (Nat.ne_of_gt hvw)
  · exact absurd heq (Nat.ne_of_gt hwv)
  · exact absurd hvw (lt_asymm hwv)

end ErrorBars.Formula
