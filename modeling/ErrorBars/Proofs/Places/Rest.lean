import ErrorBars.Formula.Token
import Mathlib.Data.List.Basic

/-!
# What scanning leaves

Numerals, quoted texts, operators and comments are taken off the head of a text, so that what is
left behind one is the end of the text: one lemma for each function that takes something off.
-/

set_option autoImplicit false

namespace ErrorBars.Formula

variable {cs run rest : List Char}

/-! ## Numerals -/

theorem digitRun_suffix (isDigit : Char → Bool) (cs : List Char) :
    (digitRun isDigit cs).2 <:+ cs := by
  fun_induction digitRun isDigit cs with
  | case1 c rest hc run after heq ih =>
    rw [heq] at ih
    exact ih.trans (List.suffix_append ['_', c] rest)
  | case3 c rest _ hc run after heq ih =>
    rw [heq] at ih
    exact ih.trans (List.suffix_cons c rest)
  | case2 | case4 | case5 => exact List.suffix_rfl

theorem decimalRun_suffix (cs : List Char) : (decimalRun cs).2 <:+ cs := by
  unfold decimalRun
  split
  · split
    · exact digitRun_suffix _ _
    · exact List.suffix_rfl
  · exact List.suffix_rfl

theorem exponentRun_suffix (cs : List Char) : (exponentRun cs).2 <:+ cs := by
  unfold exponentRun
  split
  · rename_i e s rest
    split
    · have hsign : (if s = '+' ∨ s = '-' then ([s], rest) else ([], s :: rest)).2 <:+
          e :: s :: rest := by
        split
        · exact List.suffix_append [e, s] rest
        · exact List.suffix_cons e (s :: rest)
      rcases hdigits : if s = '+' ∨ s = '-' then ([s], rest) else ([], s :: rest) with
        ⟨sign, digits⟩
      rw [hdigits] at hsign
      have hafter := (decimalRun_suffix digits).trans hsign
      simp only
      rcases hrun : decimalRun digits with ⟨_ | ⟨c, run⟩, after⟩
      · exact List.suffix_rfl
      · rwa [hrun] at hafter
    · exact List.suffix_rfl
  · exact List.suffix_rfl

theorem approximateRun?_suffix (h : approximateRun? cs = some (run, rest)) : rest <:+ cs := by
  have hwhole := decimalRun_suffix cs
  unfold approximateRun? at h
  split at h
  · rename_i after heq
    rw [heq] at hwhole
    have hfraction := decimalRun_suffix after
    split at h
    · contradiction
    · rename_i fraction behind _ heq
      rw [heq] at hfraction
      obtain ⟨-, rfl⟩ := Prod.mk.inj (Option.some.inj h)
      have hexponent := (exponentRun_suffix behind).trans hfraction
      exact hexponent.trans ((List.suffix_cons '.' after).trans hwhole)
  · contradiction
  · rename_i whole after _ heq
    rw [heq] at hwhole
    obtain ⟨-, rfl⟩ := Prod.mk.inj (Option.some.inj h)
    have hexponent := (exponentRun_suffix _).trans (decimalRun_suffix after)
    exact hexponent.trans ((List.suffix_cons '.' after).trans hwhole)
  · rename_i whole after _ _ _ heq
    rw [heq] at hwhole
    have hexponent := exponentRun_suffix after
    split at h
    · contradiction
    · rename_i exponent behind _ heq
      rw [heq] at hexponent
      obtain ⟨-, rfl⟩ := Prod.mk.inj (Option.some.inj h)
      exact hexponent.trans hwhole

theorem wholeRun?_suffix (h : wholeRun? cs = some (run, rest)) : rest <:+ cs := by
  unfold wholeRun? at h
  split at h
  · rename_i ds
    have hdigits := digitRun_suffix (· == '0') ('0' :: ds)
    rwa [Option.some.inj h] at hdigits
  · have hdigits := decimalRun_suffix cs
    split at h
    · contradiction
    · rwa [Option.some.inj h] at hdigits

theorem integerRun?_suffix (h : integerRun? cs = some (run, rest)) : rest <:+ cs := by
  unfold integerRun? at h
  split at h
  · rename_i letter ds
    split at h
    · rename_i base isDigit _
      have hdigits := digitRun_suffix isDigit ds
      split at h
      · exact wholeRun?_suffix h
      · rename_i heq
        rw [heq] at hdigits
        obtain ⟨-, rfl⟩ := Prod.mk.inj (Option.some.inj h)
        exact hdigits.trans (List.suffix_append ['0', letter] ds)
    · exact wholeRun?_suffix h
  · exact wholeRun?_suffix h

theorem withUnit?_suffix {found : List Char × List Char} (h : withUnit? found = some (run, rest)) :
    rest <:+ found.2 := by
  unfold withUnit? at h
  split at h
  · rename_i c after
    split at h
    · obtain ⟨-, rfl⟩ := Prod.mk.inj (Option.some.inj h)
      exact List.suffix_cons c after
    · contradiction
  · contradiction

theorem numeralRun?_suffix (h : numeralRun? cs = some (run, rest)) : rest <:+ cs := by
  rw [numeralRun?] at h
  have hwhole := decimalRun_suffix cs
  split at h
  · rename_i found himaginary
    obtain rfl := Option.some.inj h
    split at himaginary
    · contradiction
    · exact (withUnit?_suffix himaginary).trans hwhole
  · split at h
    · rename_i found happroximate
      have hfound := approximateRun?_suffix happroximate
      cases hunit : withUnit? found with
      | none =>
        rw [hunit, Option.getD_none] at h
        rwa [Option.some.inj h] at hfound
      | some longer =>
        rw [hunit, Option.getD_some] at h
        rw [Option.some.inj h] at hunit
        exact (withUnit?_suffix hunit).trans hfound
    · exact integerRun?_suffix h

/-! ## Quoted texts -/

namespace Quotation

theorem closeSingle_suffix {q : Char} {raw : List Char} (h : closeSingle q cs = some (raw, rest)) :
    rest <:+ cs := by
  fun_induction closeSingle q cs generalizing raw with
  | case1 c cs ih =>
    obtain ⟨r, hr, hraw⟩ := Option.map_eq_some_iff.1 h
    obtain ⟨-, rfl⟩ := Prod.mk.inj hraw
    exact (ih hr).trans (List.suffix_append ['\\', c] cs)
  | case2 c cs =>
    obtain ⟨-, rfl⟩ := Prod.mk.inj (Option.some.inj h)
    exact List.suffix_cons _ _
  | case3 | case5 => contradiction
  | case4 c cs _ _ _ ih =>
    obtain ⟨r, hr, hraw⟩ := Option.map_eq_some_iff.1 h
    obtain ⟨-, rfl⟩ := Prod.mk.inj hraw
    exact (ih hr).trans (List.suffix_cons c cs)

theorem closeTriple_suffix {q : Char} {raw : List Char} (h : closeTriple q cs = some (raw, rest)) :
    rest <:+ cs := by
  fun_induction closeTriple q cs generalizing raw with
  | case1 c cs ih =>
    obtain ⟨r, hr, hraw⟩ := Option.map_eq_some_iff.1 h
    obtain ⟨-, rfl⟩ := Prod.mk.inj hraw
    exact (ih hr).trans (List.suffix_append ['\\', c] cs)
  | case2 a b c cs =>
    obtain ⟨-, rfl⟩ := Prod.mk.inj (Option.some.inj h)
    exact List.suffix_append [a, b, c] _
  | case3 a b c cs _ _ ih =>
    obtain ⟨r, hr, hraw⟩ := Option.map_eq_some_iff.1 h
    obtain ⟨-, rfl⟩ := Prod.mk.inj hraw
    exact (ih hr).trans (List.suffix_cons a (b :: c :: cs))
  | case4 => contradiction

theorem scanBehind_suffix {letters : List Char} {quotation : Option Quotation}
    (h : scanBehind letters cs = .found quotation rest) : rest <:+ cs := by
  have hsingle {q : Char} {ds : List Char}
      (h : scanBehind.single letters q ds = .found quotation rest) : rest <:+ ds := by
    rw [scanBehind.single] at h
    split at h
    · rename_i heq
      obtain ⟨-, rfl⟩ := Scan.found.inj h
      exact closeSingle_suffix heq
    · contradiction
  unfold scanBehind at h
  split at h
  · rename_i a b c ds
    split at h
    · contradiction
    · split at h
      · split at h
        · rename_i heq
          obtain ⟨-, rfl⟩ := Scan.found.inj h
          exact (closeTriple_suffix heq).trans (List.suffix_append [a, b, c] ds)
        · contradiction
      · exact (hsingle h).trans (List.suffix_cons a _)
  · split at h
    · contradiction
    · exact (hsingle h).trans (List.suffix_cons _ _)
  · contradiction

theorem scan_suffix {quotation : Option Quotation} (h : scan cs = .found quotation rest) :
    rest <:+ cs := by
  rw [scan, Option.getD_eq_iff] at h
  rcases h with h | ⟨-, h⟩
  · obtain ⟨n, -, hn⟩ := List.mem_map.1 (List.mem_of_find?_eq_some h)
    split at hn
    · exact (scanBehind_suffix hn).trans (List.drop_suffix n cs)
    · contradiction
  · contradiction

end Quotation

/-! ## Line ends, comments and operators -/

namespace Token

theorem lineEnd?_suffix (h : lineEnd? cs = some rest) : rest <:+ cs := by
  unfold lineEnd? at h
  split at h
  · obtain rfl := Option.some.inj h
    exact List.suffix_cons _ _
  · obtain rfl := Option.some.inj h
    exact List.suffix_append ['\r', '\n'] _
  · contradiction

theorem skipComment_suffix (cs : List Char) : skipComment cs <:+ cs := List.dropWhile_suffix _

theorem operatorRun?_suffix {s : String} (h : operatorRun? cs = some (s, rest)) : rest <:+ cs := by
  unfold operatorRun? at h
  simp only at h
  split at h
  · obtain ⟨-, rfl⟩ := Prod.mk.inj (Option.some.inj h)
    exact List.drop_suffix 3 cs
  · split at h
    · obtain ⟨-, rfl⟩ := Prod.mk.inj (Option.some.inj h)
      exact List.drop_suffix 2 cs
    · split at h
      · split at h
        · obtain ⟨-, rfl⟩ := Prod.mk.inj (Option.some.inj h)
          exact List.suffix_cons _ _
        · contradiction
      · contradiction

end Token

end ErrorBars.Formula
