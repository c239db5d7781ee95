import ErrorBars.Proofs.Calculate
import ErrorBars.Proofs.Places.Told
import ErrorBars.Proofs.Places.Undisturbed

/-!
# The order of the variables

Variables are listed, and their slopes told, in the order of the places at which the search finds
their names.  The text may have nothing to do with the expression.  The list holds each variable
once, and does not depend on the order in which the set of them is gone through
(`freeVariables_sorted`).

The search knows letters and digits but no tokens.  So it finds a name at its first token exactly
if nothing disturbs it (`namePosition_eq_iff_undisturbed`), and if that is so of every variable, the
variables are listed in the order of their first tokens.

What can disturb a name is a letter right in front of its token, as in `1jx`, or an earlier piece in
which it stands by itself and which is something else: a numeral, as `e` in `1e+5`, a longer name in
which it follows a digit, as `y` in `x1y`, or a letter outside ASCII, a quoted text or a comment.
`freeVariables_firstPlaces` puts it together.
-/

set_option autoImplicit false

namespace ErrorBars

namespace Expr

/-- A variable is mentioned by an expression. -/
inductive Mentions (name : String) : Expr → Prop
  /-- it is the expression -/
  | symbol : Mentions name (.symbol name)
  /-- it is mentioned by an argument -/
  | argument {head : Head} {args : List Expr} {e : Expr} (mem : e ∈ args) (h : Mentions name e) :
    Mentions name (.app head args)

mutual

theorem mem_symbolList_iff {name : String} : ∀ {e : Expr}, name ∈ e.symbolList ↔ Mentions name e
  | .symbol s => by
    rw [symbolList, List.mem_singleton]
    exact ⟨fun h => h ▸ .symbol, fun | .symbol => rfl⟩
  | .app head args => by
    rw [symbolList, mem_symbolLists_iff]
    exact ⟨fun ⟨e, he, h⟩ => .argument he h, fun | .argument he h => ⟨_, he, h⟩⟩
  | .rat _ | .float _ _ | .const _ | .dummy _ => by
    simp only [symbolList, List.not_mem_nil, false_iff]
    exact nofun

theorem mem_symbolLists_iff {name : String} : ∀ {es : List Expr},
    name ∈ symbolLists es ↔ ∃ e ∈ es, Mentions name e
  | [] => by simp [symbolLists]
  | e :: es => by
    rw [symbolLists, List.mem_append, mem_symbolList_iff, mem_symbolLists_iff]
    simp

end

theorem mem_freeSymbols_iff {e : Expr} {name : String} :
    name ∈ e.freeSymbols ↔ Mentions name e := by
  rw [freeSymbols, List.mem_eraseDups, mem_symbolList_iff]

end Expr

end ErrorBars

namespace ErrorBars.Formula

open Watched

variable {source : String} {names : List String} {e : Expr} {ts : List Token} {v w : String}
  {t : ℕ}

/-! ## The list is determined -/

/-- What can be read has tokens. -/
theorem exists_scan_of_parse (h : parse source names = .ok e) : ∃ ts, Token.scan source = some ts := by
  rw [parse] at h
  split at h
  · contradiction
  · cases hscan : Token.scan source with
    | some ts => exact ⟨ts, rfl⟩
    | none =>
      rw [valueOf, hscan] at h
      contradiction

/-- Different names have different first tokens. -/
theorem firstPlace?_ne (hscan : Token.scan source = some ts) (hne : v ≠ w)
    (hv : firstPlace? v source = some t) : firstPlace? w source ≠ some t := by
  intro hw
  obtain ⟨p, hp, hpv, rfl, -⟩ := exists_of_firstPlace? hscan hv
  obtain ⟨q, hq, hqw, hplace, -⟩ := exists_of_firstPlace? hscan hw
  have hpq : p ≠ q := by
    rintro rfl
    exact hne (Option.some.inj (hpv.symm.trans hqw))
  have hlength {r : Piece} {name : String} (hr : r ∈ Token.pieces source)
      (hname : r.name? = some name) : r.place < r.stop := by
    obtain ⟨hchars, hword, -⟩ := isWord_of_mem_pieces hscan hr hname
    obtain ⟨c, hc, -⟩ := hword.starts
    have hpos := List.length_pos_of_mem (hchars ▸ List.mem_of_mem_head? hc)
    rw [Piece.stop]
    omega
  have hpstop := hlength hp hpv
  have hqstop := hlength hq hqw
  rcases (Cut.pieces hscan).stop_le_or hp hq hpq with hle | hle <;> omega

/-- Two names are in the order of their first tokens, as far as they have any. -/
def InTokenOrder (source v w : String) : Prop :=
  ∀ s t, firstPlace? v source = some s → firstPlace? w source = some t → s < t

/-- **Variables that nothing disturbs are listed in the order of their first tokens.** -/
theorem pairwise_inTokenOrder (hscan : Token.scan source = some ts)
    (h : ∀ name ∈ freeVariables e source, ∀ t, firstPlace? name source = some t →
      Undisturbed name source t) :
    (freeVariables e source).Pairwise (InTokenOrder source) := by
  refine ((pairwise_namePosition e source).and (nodup_freeVariables e source)).imp_of_mem ?_
  rintro v w hv hw ⟨hle, hne⟩ s t hs ht
  have hvs := (namePosition_eq_iff_undisturbed hscan hs).2 (h v hv s hs)
  have hwt := (namePosition_eq_iff_undisturbed hscan ht).2 (h w hw t ht)
  have hst : s ≠ t := fun heq => firstPlace?_ne hscan hne hs (heq ▸ ht)
  omega

/-- **The order of the variables** of a formula that can be read.

* Its tokens lie in the text one behind the other, and every name among them is a whole word.
* The variables are listed by the places that the search finds.  It finds a name at its first token
  if and only if nothing disturbs it there.
* So if nothing disturbs any of the variables, they are listed in the order of their first tokens.
  Pieces that spare a name do not disturb it.
* Whatever listeners do, they are told of slopes in the order of the list. -/
theorem freeVariables_firstPlaces (h : parse source names = .ok e) :
    (∃ ts, Token.scan source = some ts ∧ (Token.pieces source).flatMap Piece.tokens = ts ∧
      Cut 0 source.toList (Token.pieces source)) ∧
    ((freeVariables e source).Pairwise fun v w => namePosition v source ≤ namePosition w source) ∧
    (∀ name t, firstPlace? name source = some t →
      (namePosition name source = t ↔ Undisturbed name source t)) ∧
    ((∀ name ∈ freeVariables e source, ∀ t, firstPlace? name source = some t →
        Undisturbed name source t) →
      (freeVariables e source).Pairwise (InTokenOrder source)) ∧
    (∀ name t, firstPlace? name source = some t →
      (∀ p ∈ Token.pieces source, p.place < t → p.spares name = true) →
      Undisturbed name source t) ∧
    ∀ (ε : Type) (emit : Event → Call ε Unit) (mode : Correlation) (inputs : Datum)
      (vs : Variables) (s : CallState ε), readVariables inputs = .ok vs →
      vs.map Prod.fst = names →
      variablesOf (emissions emit mode (.text source) inputs s) <+: freeVariables e source := by
  obtain ⟨ts, hscan⟩ := exists_scan_of_parse h
  refine ⟨⟨ts, hscan, Token.flatMap_pieces hscan, Cut.pieces hscan⟩, pairwise_namePosition e source,
    fun name t => namePosition_eq_iff_undisturbed hscan, pairwise_inTokenOrder hscan,
    fun name t => undisturbed_of_spares hscan, ?_⟩
  rintro ε emit mode inputs vs s hvs rfl
  exact variablesOf_emissions emit mode hvs h s

/-- The variables that have been read, in no particular order. -/
theorem mem_freeVariables_of_parse {symbols : List String}
    (h : (parse source names).toOption.map (·.freeSymbols) = some symbols) :
    ∃ e, parse source names = .ok e ∧ ∀ name, name ∈ freeVariables e source ↔ name ∈ symbols := by
  cases hparse : parse source names with
  | error fault =>
    rw [hparse] at h
    contradiction
  | ok e =>
    rw [hparse] at h
    obtain rfl : e.freeSymbols = symbols := Option.some.inj h
    exact ⟨e, rfl, fun name => List.mem_mergeSort⟩

/-- A power of powers, in which nothing disturbs the variables, also not the one behind a digit. -/
theorem freeVariables_firstPlaces_powers :
    ∃ e, parse "b^(2a)^c" ["a", "b", "c"] = .ok e ∧
      ["b", "a", "c"].mapM (firstPlace? · "b^(2a)^c") = some [0, 4, 7] ∧
      (freeVariables e "b^(2a)^c").Pairwise (InTokenOrder "b^(2a)^c") := by
  obtain ⟨e, he, hmem⟩ := @mem_freeVariables_of_parse "b^(2a)^c" ["a", "b", "c"] ["b", "a", "c"]
    (by decide +kernel)
  obtain ⟨-, -, -, horder, hspares, -⟩ := freeVariables_firstPlaces he
  refine ⟨e, he, by decide +kernel, horder fun name hname t ht => hspares name t ht ?_⟩
  have hall : ["b", "a", "c"].all (fun name => (Token.pieces "b^(2a)^c").all fun p =>
      p.spares name) = true := by
    decide +kernel
  intro p hp _
  exact List.all_eq_true.1 (List.all_eq_true.1 hall name ((hmem name).1 hname)) p hp

/-- Two variables that are found in the wrong order are not listed in the order of their tokens. -/
theorem not_pairwise_inTokenOrder {s t : ℕ} (hv : v ∈ freeVariables e source)
    (hw : w ∈ freeVariables e source) (hs : firstPlace? v source = some s)
    (ht : firstPlace? w source = some t) (hst : s < t)
    (hfound : namePosition w source < namePosition v source) :
    ¬ (freeVariables e source).Pairwise (InTokenOrder source) := by
  intro horder
  obtain ⟨i, hi, hvi⟩ := List.getElem_of_mem hv
  obtain ⟨j, hj, hwj⟩ := List.getElem_of_mem hw
  rcases Nat.lt_trichotomy i j with hlt | rfl | hlt
  · have hle := List.pairwise_iff_getElem.1 (pairwise_namePosition e source) i j hi hj hlt
    rw [hvi, hwj] at hle
    omega
  · obtain rfl := hvi.symm.trans hwj
    omega
  · have hback := List.pairwise_iff_getElem.1 horder j i hj hi hlt
    rw [hvi, hwj] at hback
    exact Nat.lt_asymm hst (hback t s ht hs)

/-- A name is found inside a longer one behind a digit, as `y` in `x1y`, and inside a numeral, as `e`
in the sixteen-based `0x1e`: then it is listed in front of a variable that comes first. -/
theorem freeVariables_not_in_order :
    (¬ ∀ names e, parse "x1y^z^y" names = .ok e →
      (freeVariables e "x1y^z^y").Pairwise (InTokenOrder "x1y^z^y")) ∧
    ¬ ∀ names e, parse "0x1e^z^e" names = .ok e →
      (freeVariables e "0x1e^z^e").Pairwise (InTokenOrder "0x1e^z^e") := by
  constructor
  · intro h
    obtain ⟨e, he, hmem⟩ := @mem_freeVariables_of_parse "x1y^z^y" ["x1y", "y", "z"]
      ["x1y", "z", "y"] (by decide +kernel)
    have hz : firstPlace? "z" "x1y^z^y" = some 4 := by decide +kernel
    have hy : firstPlace? "y" "x1y^z^y" = some 6 := by decide +kernel
    exact not_pairwise_inTokenOrder ((hmem "z").2 (by decide)) ((hmem "y").2 (by decide)) hz hy
      (by decide) (by decide +kernel) (h _ e he)
  · intro h
    obtain ⟨e, he, hmem⟩ := @mem_freeVariables_of_parse "0x1e^z^e" ["z", "e"] ["z", "e"]
      (by decide +kernel)
    have hz : firstPlace? "z" "0x1e^z^e" = some 5 := by decide +kernel
    have hpower : firstPlace? "e" "0x1e^z^e" = some 7 := by decide +kernel
    exact not_pairwise_inTokenOrder ((hmem "z").2 (by decide)) ((hmem "e").2 (by decide)) hz hpower
      (by decide) (by decide +kernel) (h _ e he)

end ErrorBars.Formula
