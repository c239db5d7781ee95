import ErrorBars.Proofs.Arithmetic.Scan
import ErrorBars.Proofs.Places.Step

/-!
# What tokens tell about their text

A quoted text among the tokens has its quotes in the text, and a word among them consists of
characters of words.  Each step of the scanner makes only such tokens (`tells_step`), and what a step
leaves is the end of the text, so the whole scan makes only such tokens (`scannedFrom_scan`).
-/

set_option autoImplicit false

namespace ErrorBars.Formula

/-- A single word: characters of words, of which the first may begin an identifier. -/
def IsSingleWord (s : String) : Prop :=
  s.toList.head?.any Text.startsIdentifier = true ∧ s.toList.all Text.isWordChar = true

instance (s : String) : Decidable (IsSingleWord s) := inferInstanceAs (Decidable (_ ∧ _))

namespace Token

/-- What a token tells about the text that it is scanned from. -/
def ScannedFrom (cs : List Char) : Token → Prop
  | .name s => IsSingleWord s
  | .text _ => ∃ c ∈ cs, c = '\'' ∨ c = '"'
  | .value _ => False
  | _ => True

theorem ScannedFrom.mono {cs ds : List Char} {t : Token} (h : t.ScannedFrom ds)
    (hsub : ds ⊆ cs) : t.ScannedFrom cs := by
  cases t with
  | text q =>
    obtain ⟨c, hc, hquote⟩ := h
    exact ⟨c, hsub hc, hquote⟩
  | _ => exact h

/-! ## One step -/

/-- The tokens that a step makes tell about the text. -/
def Step.Tells (cs : List Char) : Step → Prop
  | last ts => ∀ us, ts = some us → ∀ t ∈ us, t.ScannedFrom cs
  | next ts _ _ => ∀ t ∈ ts, t.ScannedFrom cs

variable {state : ScanState} {blanks body rest : List Char} {c : Char}

theorem tells_lineStep : (lineStep state blanks body).Tells body := by
  unfold lineStep
  split
  · rintro us ⟨⟩
    exact List.forall_mem_nil _
  · split
    · exact List.forall_mem_singleton.2 trivial
    · split
      · exact List.forall_mem_singleton.2 trivial
      · rw [Step.Tells]
        split
        · exact List.forall_mem_nil _
        · exact List.forall_mem_singleton.2 trivial

theorem tells_wordStep : (wordStep state blanks c rest).Tells (c :: rest) := by
  unfold wordStep
  split
  · rename_i hword
    refine List.forall_mem_singleton.2 ?_
    split
    · rename_i hstart
      rw [ScannedFrom, IsSingleWord, String.toList_ofList]
      refine ⟨?_, List.all_takeWhile⟩
      rw [List.takeWhile_cons_of_pos hword]
      exact hstart
    · trivial
  · split
    · exact List.forall_mem_nil _
    · unfold strayStep
      split
      · exact List.forall_mem_singleton.2 trivial
      · exact List.forall_mem_map.2 fun _ _ => trivial

theorem tells_bodyStep : (bodyStep state blanks c rest).Tells (c :: rest) := by
  unfold bodyStep
  split
  · exact List.forall_mem_singleton.2 trivial
  · split
    · rintro us ⟨⟩
    · rename_i quotation after hquote
      refine List.forall_mem_singleton.2 ?_
      cases quotation with
      | none => trivial
      | some q =>
        -- without quotes there is no quoted text
        by_contra hnone
        have habsent : Quotation.scan (c :: rest) = .absent :=
          Quotation.scan_absent fun d hd => not_or.1 fun hd' => hnone ⟨d, hd, hd'⟩
        cases habsent.symm.trans hquote
    · split
      · exact List.forall_mem_singleton.2 trivial
      · split
        · exact List.forall_mem_singleton.2 trivial
        · exact tells_wordStep

theorem tells_step : (step state blanks body).Tells body := by
  unfold step
  split
  · exact tells_lineStep
  · split
    · split <;> exact List.forall_mem_singleton.2 trivial
    · split
      · rintro us hus
        split at hus
        · cases hus
          exact List.forall_mem_singleton.2 trivial
        · cases hus
      · exact tells_bodyStep

/-! ## All steps -/

theorem scannedFrom_scanFrom {fuel : ℕ} {cs : List Char} {ts : List Token}
    (h : scanFrom fuel state cs = some ts) : ∀ t ∈ ts, t.ScannedFrom cs := by
  induction fuel generalizing state cs ts with
  | zero => cases h
  | succ fuel ih =>
    have hbody := List.dropWhile_suffix (l := cs) isSpace
    rw [scanFrom_succ] at h
    generalize cs.takeWhile isSpace = blanks, cs.dropWhile isSpace = body at h hbody
    have hfits : (step state blanks body).Fits body := fits_step
    have htells : (step state blanks body).Tells body := tells_step
    generalize step state blanks body = made at h hfits htells
    cases made with
    | last us => exact fun t ht => (htells ts h t ht).mono hbody.subset
    | next us state rest =>
      obtain ⟨vs, hvs, rfl⟩ := Option.map_eq_some_iff.1 h
      exact List.forall_mem_append.2 ⟨fun t ht => (htells t ht).mono hbody.subset,
        fun t ht => (ih hvs t ht).mono (hfits.1.trans hbody).subset⟩

/-- **The tokens of a text tell about it.** -/
theorem scannedFrom_scan {source : String} {ts : List Token} (h : scan source = some ts) :
    ∀ t ∈ ts, t.ScannedFrom source.toList := by
  have hstrip : Text.strip source.toList ⊆ source.toList := fun c hc =>
    have hback := (List.dropWhile_suffix _).subset (List.mem_reverse.1 hc)
    (List.dropWhile_suffix _).subset (List.mem_reverse.1 hback)
  exact fun t ht => (scannedFrom_scanFrom h t ht).mono hstrip

end Token

end ErrorBars.Formula
