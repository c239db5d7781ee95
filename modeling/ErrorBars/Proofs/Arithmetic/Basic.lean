import ErrorBars.Proofs.Exact.Partial

/-!
# Arithmetic as it is written

Formulas of school arithmetic: whole numbers and variables, the four operations, the sign, and
powers whose exponents are whole numbers.  A tree says what is meant, and a row of lexemes how it is
written down.

* `Arithmetic.toExpr` — the expression that the operations give.  Where the tree is defined, its
  exact value is that of the tree (`Arithmetic.denotes_toExpr`).
* `Writes` — the rows of lexemes that stand for a tree.  Products may be written by juxtaposition,
  and parentheses have to stand where the ranks of the operations ask for them; they may stand
  elsewhere too.
* `Fits` — which lexemes may follow each other.  No row that stands for a tree has others side by
  side (`Writes.isChain`), which is what lets them be told apart in a text.
-/

set_option autoImplicit false

namespace ErrorBars.Formula

/-! ## Trees -/

/-- A formula of arithmetic. -/
inductive Arithmetic where
  /-- a whole number -/
  | literal (n : ℕ)
  /-- a variable -/
  | word (s : String)
  /-- a sum -/
  | add (a b : Arithmetic)
  /-- a difference -/
  | sub (a b : Arithmetic)
  /-- a product -/
  | mul (a b : Arithmetic)
  /-- a quotient -/
  | div (a b : Arithmetic)
  /-- a change of sign -/
  | neg (a : Arithmetic)
  /-- a power; the exponent is a whole number, which may have a sign -/
  | pow (a : Arithmetic) (negative : Bool) (n : ℕ)
  deriving DecidableEq, Repr

namespace Arithmetic

/-- An exponent as a formula. -/
def exponent (negative : Bool) (n : ℕ) : Arithmetic :=
  if negative then neg (literal n) else literal n

/-- The number that an exponent stands for. -/
def exponentValue (negative : Bool) (n : ℕ) : ℤ := if negative then -n else n

/-- The value at a point, where `DefinedAt` holds. -/
def value (point : String → ℚ) : Arithmetic → ℚ
  | literal n => n
  | word s => point s
  | add a b => a.value point + b.value point
  | sub a b => a.value point - b.value point
  | mul a b => a.value point * b.value point
  | div a b => a.value point / b.value point
  | neg a => -a.value point
  | pow a negative n => a.value point ^ exponentValue negative n

/-- No divisor and no base of a negative power is zero. -/
def DefinedAt (point : String → ℚ) : Arithmetic → Prop
  | literal _ => True
  | word _ => True
  | add a b => a.DefinedAt point ∧ b.DefinedAt point
  | sub a b => a.DefinedAt point ∧ b.DefinedAt point
  | mul a b => a.DefinedAt point ∧ b.DefinedAt point
  | div a b => a.DefinedAt point ∧ b.DefinedAt point ∧ b.value point ≠ 0
  | neg a => a.DefinedAt point
  | pow a negative n =>
    a.DefinedAt point ∧ (0 ≤ exponentValue negative n ∨ a.value point ≠ 0)

instance decidableDefinedAt (point : String → ℚ) :
    (t : Arithmetic) → Decidable (t.DefinedAt point)
  | literal _ => inferInstanceAs (Decidable True)
  | word _ => inferInstanceAs (Decidable True)
  | add a b | sub a b | mul a b =>
    have := decidableDefinedAt point a
    have := decidableDefinedAt point b
    inferInstanceAs (Decidable (a.DefinedAt point ∧ b.DefinedAt point))
  | div a b =>
    have := decidableDefinedAt point a
    have := decidableDefinedAt point b
    inferInstanceAs (Decidable (a.DefinedAt point ∧ b.DefinedAt point ∧ b.value point ≠ 0))
  | neg a => decidableDefinedAt point a
  | pow a negative n =>
    have := decidableDefinedAt point a
    inferInstanceAs
      (Decidable (a.DefinedAt point ∧ (0 ≤ exponentValue negative n ∨ a.value point ≠ 0)))

/-- The expression that the operations give. -/
def toExpr : Arithmetic → Expr
  | literal n => Expr.int n
  | word s => .symbol s
  | add a b => a.toExpr + b.toExpr
  | sub a b => a.toExpr - b.toExpr
  | mul a b => a.toExpr * b.toExpr
  | div a b => a.toExpr / b.toExpr
  | neg a => -a.toExpr
  | pow a negative n =>
    Expr.power a.toExpr (if negative then -Expr.int n else Expr.int n)

/-- The whole numbers that are written down. -/
def literals : Arithmetic → List ℕ
  | literal n => [n]
  | word _ => []
  | add a b | sub a b | mul a b | div a b => a.literals ++ b.literals
  | neg a => a.literals
  | pow a _ n => a.literals ++ [n]

/-- The variables that are written down. -/
def words : Arithmetic → List String
  | literal _ => []
  | word s => [s]
  | add a b | sub a b | mul a b | div a b => a.words ++ b.words
  | neg a | pow a _ _ => a.words

theorem toExpr_exponent (negative : Bool) (n : ℕ) :
    (exponent negative n).toExpr = Expr.int (exponentValue negative n) := by
  cases negative with
  | false => rfl
  | true =>
    show -Expr.int n = Expr.int (-n)
    rw [Expr.int, Expr.neg_rat, Expr.int, Int.cast_neg]

theorem toExpr_pow (a : Arithmetic) (negative : Bool) (n : ℕ) :
    (pow a negative n).toExpr = Expr.power a.toExpr (exponent negative n).toExpr := by
  cases negative <;> rfl

variable {point : String → ℚ} {t : Arithmetic}

/-- **The expression of a tree** has the value of the tree. -/
theorem denotes_toExpr (h : t.DefinedAt point) :
    Expr.Denotes point t.toExpr (t.value point) := by
  induction t with
  | literal n => exact (Expr.denotes_int n).of_eq (Int.cast_natCast n)
  | word s => exact Expr.denotes_symbol s
  | add a b iha ihb => exact (iha h.1).add (ihb h.2)
  | sub a b iha ihb => exact (iha h.1).sub (ihb h.2)
  | mul a b iha ihb => exact (iha h.1).mul (ihb h.2)
  | div a b iha ihb => exact (iha h.1).quotient (ihb h.2.1) h.2.2
  | neg a ih => exact (ih h).neg
  | pow a negative n ih =>
    rw [toExpr_pow, toExpr_exponent]
    exact (ih h.1).zpow h.2

end Arithmetic

/-! ## Rows of lexemes -/

/-- A piece of a written formula. -/
inductive Lexeme where
  /-- a whole number -/
  | numeral (n : ℕ)
  /-- a variable -/
  | word (s : String)
  /-- a plus sign -/
  | plus
  /-- a minus sign, between two operands or in front of one -/
  | minus
  /-- a multiplication sign -/
  | times
  /-- nothing but a blank, in front of a factor -/
  | juxtaposed
  /-- a division sign -/
  | divided
  /-- a power sign: the caret, or two stars -/
  | power (caret : Bool)
  /-- an opening parenthesis -/
  | opening
  /-- a closing parenthesis -/
  | closing
  deriving DecidableEq, Repr

namespace Lexeme

/-- Whether an operand may end here. -/
def endsOperand : Lexeme → Bool
  | numeral _ | word _ | closing => true
  | _ => false

/-- Whether an operand without a sign may begin here. -/
def startsPlain : Lexeme → Bool
  | numeral _ | word _ | opening => true
  | _ => false

/-- Whether a factor may begin here that needs no multiplication sign. -/
def startsFactor : Lexeme → Bool
  | word _ | opening => true
  | _ => false

/-- Whether an operand may begin here. -/
def startsOperand (l : Lexeme) : Bool := l.startsPlain || l == minus

/-- One lexeme may follow another: an operand is followed by none that begins an operand without a
sign, and everything else by an operand. -/
def Fits (l next : Lexeme) : Prop :=
  if l.endsOperand then next.startsPlain = false
  else if l = juxtaposed then next.startsFactor = true
  else next.startsOperand = true

instance (l next : Lexeme) : Decidable (l.Fits next) :=
  inferInstanceAs (Decidable (ite _ _ _))

end Lexeme

/-- How tightly the outermost operation of a written formula binds. -/
inductive Rank where
  /-- sums and differences -/
  | sum
  /-- products and quotients -/
  | product
  /-- signs -/
  | sign
  /-- powers -/
  | power
  /-- what stands alone -/
  | atom
  deriving DecidableEq, Repr

open Arithmetic Lexeme in
/-- The rows of lexemes that stand for a tree, with the rank of the outermost operation or a looser
one, and with parentheses at most as deep as given.  Sums and products group to the left; what
stands without a multiplication sign behind another factor begins with a word or a parenthesis. -/
inductive Writes : ℕ → Rank → Arithmetic → List Lexeme → Prop where
  | literal {d : ℕ} (n : ℕ) : Writes d .atom (literal n) [numeral n]
  | word {d : ℕ} (s : String) : Writes d .atom (word s) [word s]
  | parentheses {d : ℕ} {t : Arithmetic} {ls : List Lexeme} (inner : Writes d .sum t ls) :
      Writes (d + 1) .atom t (opening :: ls ++ [closing])
  | ofAtom {d : ℕ} {t : Arithmetic} {ls : List Lexeme} (whole : Writes d .atom t ls) :
      Writes d .power t ls
  | power {d : ℕ} {a : Arithmetic} {ls rs : List Lexeme} (caret negative : Bool) (n : ℕ)
      (base : Writes d .atom a ls) (exponent : Writes d .sign (exponent negative n) rs) :
      Writes d .power (pow a negative n) (ls ++ power caret :: rs)
  | ofPower {d : ℕ} {t : Arithmetic} {ls : List Lexeme} (whole : Writes d .power t ls) :
      Writes d .sign t ls
  | sign {d : ℕ} {a : Arithmetic} {ls : List Lexeme} (operand : Writes d .sign a ls) :
      Writes d .sign (neg a) (minus :: ls)
  | ofSign {d : ℕ} {t : Arithmetic} {ls : List Lexeme} (whole : Writes d .sign t ls) :
      Writes d .product t ls
  | times {d : ℕ} {a b : Arithmetic} {ls rs : List Lexeme} (left : Writes d .product a ls)
      (right : Writes d .sign b rs) : Writes d .product (mul a b) (ls ++ times :: rs)
  | juxtaposed {d : ℕ} {a b : Arithmetic} {ls rs : List Lexeme} {l : Lexeme}
      (left : Writes d .product a ls) (right : Writes d .power b (l :: rs))
      (first : l.startsFactor = true) :
      Writes d .product (mul a b) (ls ++ juxtaposed :: l :: rs)
  | divided {d : ℕ} {a b : Arithmetic} {ls rs : List Lexeme} (left : Writes d .product a ls)
      (right : Writes d .sign b rs) : Writes d .product (div a b) (ls ++ divided :: rs)
  | ofProduct {d : ℕ} {t : Arithmetic} {ls : List Lexeme} (whole : Writes d .product t ls) :
      Writes d .sum t ls
  | plus {d : ℕ} {a b : Arithmetic} {ls rs : List Lexeme} (left : Writes d .sum a ls)
      (right : Writes d .product b rs) : Writes d .sum (add a b) (ls ++ plus :: rs)
  | minus {d : ℕ} {a b : Arithmetic} {ls rs : List Lexeme} (left : Writes d .sum a ls)
      (right : Writes d .product b rs) : Writes d .sum (sub a b) (ls ++ minus :: rs)

namespace Writes

open Arithmetic

variable {d : ℕ} {r : Rank} {t : Arithmetic} {ls : List Lexeme}

/-- A power, and what can be its base, begins with an operand without a sign. -/
theorem head_plain (h : Writes d r t ls) (hr : r = .power ∨ r = .atom) :
    ∃ l rs, ls = l :: rs ∧ l.startsPlain = true := by
  induction h with
  | literal n => exact ⟨_, _, rfl, rfl⟩
  | word s => exact ⟨_, _, rfl, rfl⟩
  | parentheses => exact ⟨_, _, rfl, rfl⟩
  | ofAtom whole ih => exact ih (.inr rfl)
  | power caret negative n base exponent ih =>
    obtain ⟨l, rs, rfl, hl⟩ := ih (.inr rfl)
    exact ⟨l, _, rfl, hl⟩
  | _ => simp at hr

theorem head (h : Writes d r t ls) : ∃ l rs, ls = l :: rs ∧ l.startsOperand = true := by
  have hplain {l : Lexeme} (hl : l.startsPlain = true) : l.startsOperand = true := by
    rw [Lexeme.startsOperand, hl, Bool.true_or]
  induction h with
  | literal n => exact ⟨_, _, rfl, rfl⟩
  | word s => exact ⟨_, _, rfl, rfl⟩
  | parentheses => exact ⟨_, _, rfl, rfl⟩
  | sign => exact ⟨_, _, rfl, rfl⟩
  | ofAtom _ ih | ofPower _ ih | ofSign _ ih | ofProduct _ ih => exact ih
  | power _ _ _ _ _ ih | times _ _ ih | juxtaposed _ _ _ ih | divided _ _ ih | plus _ _ ih
    | minus _ _ ih =>
    obtain ⟨l, rs, rfl, hl⟩ := ih
    exact ⟨l, _, rfl, hl⟩

theorem getLast (h : Writes d r t ls) : ∃ rs l, ls = rs ++ [l] ∧ l.endsOperand = true := by
  induction h with
  | literal n => exact ⟨[], _, rfl, rfl⟩
  | word s => exact ⟨[], _, rfl, rfl⟩
  | parentheses => exact ⟨_, _, rfl, rfl⟩
  | ofAtom _ ih | ofPower _ ih | ofSign _ ih | ofProduct _ ih => exact ih
  | sign _ ih =>
    obtain ⟨rs, l, rfl, hl⟩ := ih
    exact ⟨_ :: rs, l, rfl, hl⟩
  | power _ _ _ _ _ _ ih | times _ _ _ ih | juxtaposed _ _ _ _ ih | divided _ _ _ ih | plus _ _ _ ih
    | minus _ _ _ ih =>
    obtain ⟨rs, l, heq, hl⟩ := ih
    exact ⟨_ ++ _ :: rs, l, by rw [heq, List.append_assoc]; rfl, hl⟩

/-- Two operands with an operator between them. -/
theorem isChain_infix {rs : List Lexeme} {l : Lexeme} (hls : ls.IsChain Lexeme.Fits)
    (hlast : ∃ us u, ls = us ++ [u] ∧ u.endsOperand = true) (hl : l.startsPlain = false)
    (hrs : rs.IsChain Lexeme.Fits) (hfirst : ∃ v vs, rs = v :: vs ∧ l.Fits v) :
    (ls ++ l :: rs).IsChain Lexeme.Fits := by
  obtain ⟨us, u, rfl, hu⟩ := hlast
  obtain ⟨v, vs, rfl, hv⟩ := hfirst
  have hfits : u.Fits l := by
    rw [Lexeme.Fits, if_pos hu]
    exact hl
  rw [List.isChain_append]
  exact ⟨hls, .cons_cons hv hrs, by simpa using hfits⟩

/-- A written formula fits behind what an operand has to follow. -/
theorem fits_first (h : Writes d r t ls) {l : Lexeme} (hl : l.endsOperand = false)
    (hne : l ≠ .juxtaposed) : ∃ v vs, ls = v :: vs ∧ l.Fits v := by
  obtain ⟨v, vs, heq, hv⟩ := h.head
  refine ⟨v, vs, heq, ?_⟩
  rw [Lexeme.Fits, if_neg (by simp [hl]), if_neg hne]
  exact hv

/-- **Lexemes side by side fit** in every written formula. -/
theorem isChain (h : Writes d r t ls) : ls.IsChain Lexeme.Fits := by
  induction h with
  | literal n | word s => exact .singleton _
  | parentheses inner ih =>
    obtain ⟨v, vs, rfl, hv⟩ := inner.fits_first (l := .opening) rfl (by simp)
    obtain ⟨us, u, heq, hu⟩ := inner.getLast
    have hfits : u.Fits .closing := by
      rw [Lexeme.Fits, if_pos hu]
      rfl
    rw [List.cons_append, List.cons_append]
    refine .cons_cons hv ?_
    rw [← List.cons_append, List.isChain_append]
    exact ⟨ih, .singleton _, by simpa [heq] using hfits⟩
  | ofAtom _ ih | ofPower _ ih | ofSign _ ih | ofProduct _ ih => exact ih
  | sign operand ih =>
    obtain ⟨v, vs, rfl, hv⟩ := operand.fits_first (l := .minus) rfl (by simp)
    exact .cons_cons hv ih
  | power caret negative n base exponent ihb ihe =>
    exact isChain_infix ihb base.getLast rfl ihe (exponent.fits_first rfl (by simp))
  | juxtaposed left right first ihl ihr =>
    exact isChain_infix ihl left.getLast rfl ihr ⟨_, _, rfl, first⟩
  | times left right ihl ihr | divided left right ihl ihr | plus left right ihl ihr
    | minus left right ihl ihr =>
    exact isChain_infix ihl left.getLast rfl ihr (right.fits_first rfl (by simp))

/-- The variables of a tree are the words that are written. -/
theorem word_mem (h : Writes d r t ls) {s : String} (hs : .word s ∈ ls) : s ∈ t.words := by
  induction h with
  | literal n => simp at hs
  | word s => simpa [words] using hs
  | parentheses inner ih => exact ih (by simpa using hs)
  | ofAtom _ ih | ofPower _ ih | ofSign _ ih | ofProduct _ ih => exact ih hs
  | sign operand ih => exact ih (by simpa using hs)
  | power caret negative n base exponent ihb ihe =>
    rcases List.mem_append.1 hs with hs | hs
    · exact ihb hs
    · have hs := ihe (by simpa using hs)
      revert hs
      cases negative <;> simp [Arithmetic.exponent, words]
  | juxtaposed left right first ihl ihr | times left right ihl ihr | divided left right ihl ihr
    | plus left right ihl ihr | minus left right ihl ihr =>
    rw [words, List.mem_append]
    rcases List.mem_append.1 hs with hs | hs
    · exact .inl (ihl hs)
    · exact .inr (ihr (by simpa using hs))

/-- The whole numbers of a tree are the numerals that are written. -/
theorem numeral_mem_iff (h : Writes d r t ls) {n : ℕ} : .numeral n ∈ ls ↔ n ∈ t.literals := by
  induction h with
  | literal n => simp [literals]
  | word s => simp [literals]
  | parentheses inner ih => simp [ih]
  | ofAtom _ ih | ofPower _ ih | ofSign _ ih | ofProduct _ ih => exact ih
  | sign operand ih => simpa [literals] using ih
  | power caret negative m base exponent ihb ihe =>
    have hexponent : (Arithmetic.exponent negative m).literals = [m] := by cases negative <;> rfl
    rw [literals, List.mem_append, List.mem_append, ihb, ← hexponent, ← ihe]
    simp
  | juxtaposed left right first ihl ihr | times left right ihl ihr | divided left right ihl ihr
    | plus left right ihl ihr | minus left right ihl ihr =>
    rw [literals, List.mem_append, List.mem_append, ihl, ← ihr]
    simp

/-- Deeper parentheses may be allowed than there are. -/
theorem mono {e : ℕ} (h : Writes d r t ls) (hd : d ≤ e) : Writes e r t ls := by
  induction h generalizing e with
  | literal n => exact .literal n
  | word s => exact .word s
  | parentheses inner ih =>
    obtain ⟨e, rfl⟩ : ∃ f, e = f + 1 := ⟨e - 1, by omega⟩
    exact .parentheses (ih (by omega))
  | ofAtom _ ih => exact .ofAtom (ih hd)
  | power caret negative n _ _ ihb ihe => exact .power caret negative n (ihb hd) (ihe hd)
  | ofPower _ ih => exact .ofPower (ih hd)
  | sign _ ih => exact .sign (ih hd)
  | ofSign _ ih => exact .ofSign (ih hd)
  | times _ _ ihl ihr => exact .times (ihl hd) (ihr hd)
  | juxtaposed _ _ first ihl ihr => exact .juxtaposed (ihl hd) (ihr hd) first
  | divided _ _ ihl ihr => exact .divided (ihl hd) (ihr hd)
  | ofProduct _ ih => exact .ofProduct (ih hd)
  | plus _ _ ihl ihr => exact .plus (ihl hd) (ihr hd)
  | minus _ _ ihl ihr => exact .minus (ihl hd) (ihr hd)

/-- An exponent needs no parentheses. -/
theorem exponent (negative : Bool) (n : ℕ) :
    ∃ ls, Writes d .sign (Arithmetic.exponent negative n) ls := by
  have hliteral : Writes d .sign (.literal n) [.numeral n] := .ofPower (.ofAtom (.literal n))
  cases negative with
  | false => exact ⟨_, hliteral⟩
  | true => exact ⟨_, .sign hliteral⟩

end Writes

/-- **Every tree can be written**, with parentheses around each operand. -/
theorem Arithmetic.exists_writes (t : Arithmetic) : ∃ d ls, Writes d .atom t ls := by
  have hpair {a b : Arithmetic} (ha : ∃ d ls, Writes d .atom a ls)
      (hb : ∃ d ls, Writes d .atom b ls) :
      ∃ d ls rs, Writes d .sign a ls ∧ Writes d .sign b rs := by
    obtain ⟨d, ls, ha⟩ := ha
    obtain ⟨e, rs, hb⟩ := hb
    exact ⟨max d e, ls, rs, .ofPower (.ofAtom (ha.mono (Nat.le_max_left d e))),
      .ofPower (.ofAtom (hb.mono (Nat.le_max_right d e)))⟩
  induction t with
  | literal n => exact ⟨0, _, .literal n⟩
  | word s => exact ⟨0, _, .word s⟩
  | add a b iha ihb =>
    obtain ⟨d, ls, rs, ha, hb⟩ := hpair iha ihb
    exact ⟨_, _, .parentheses (.plus (.ofProduct (.ofSign ha)) (.ofSign hb))⟩
  | sub a b iha ihb =>
    obtain ⟨d, ls, rs, ha, hb⟩ := hpair iha ihb
    exact ⟨_, _, .parentheses (.minus (.ofProduct (.ofSign ha)) (.ofSign hb))⟩
  | mul a b iha ihb =>
    obtain ⟨d, ls, rs, ha, hb⟩ := hpair iha ihb
    exact ⟨_, _, .parentheses (.ofProduct (.times (.ofSign ha) hb))⟩
  | div a b iha ihb =>
    obtain ⟨d, ls, rs, ha, hb⟩ := hpair iha ihb
    exact ⟨_, _, .parentheses (.ofProduct (.divided (.ofSign ha) hb))⟩
  | neg a ih =>
    obtain ⟨d, ls, ha⟩ := ih
    have hsign : Writes d .sign a ls := .ofPower (.ofAtom ha)
    exact ⟨_, _, .parentheses (.ofProduct (.ofSign (.sign hsign)))⟩
  | pow a negative n ih =>
    obtain ⟨d, ls, ha⟩ := ih
    obtain ⟨rs, hexponent⟩ := Writes.exponent (d := d) negative n
    have hpower := Writes.power true negative n ha hexponent
    exact ⟨_, _, .parentheses (.ofProduct (.ofSign (.ofPower hpower)))⟩

end ErrorBars.Formula
