import ErrorBars.Engine
import ErrorBars.Proofs.Exact.Derivative
import ErrorBars.Proofs.Exact.Simplify

/-!
# Partial derivatives are exact

A rational formula is built from rational numbers and variables with the four operations and whole
powers.  Written as an expression it is brought into another form at every step: terms are
collected, factors are ordered, powers are joined.  Its derivative is taken of that form and then
simplified.  None of this changes a value: wherever no divisor and no base of a negative power in
the formula is zero, the expression that `differentiate` returns is defined, and its value is that
of the formal partial derivative (`differentiate_exact`).

The formula is evaluated at a point where the variable in question has the slope one, in pairs of
a value and a slope.  The expression has the same pair (`RationalFormula.denotes_toExpr`),
differentiating it gives the slope (`Expr.denotes_derivative`), and simplifying keeps what it
gives (`keepsValue_simplify`).
-/

set_option autoImplicit false

namespace ErrorBars

/-! ## Exact values -/

namespace Expr

mutual

/-- The exact value of an expression at a point with rational coordinates; `none` if it has a
negative power of zero, or a part that is no number, variable, sum, product or whole power. -/
def rationalValue? (point : String → ℚ) : Expr → Option ℚ
  | .rat q => some q
  | .symbol s => some (point s)
  | .app .add ts => (rationalValues? point ts).map List.sum
  | .app .mul fs => (rationalValues? point fs).map List.prod
  | .app .pow [b, .rat q] =>
    (rationalValue? point b).bind fun v =>
      if q.den = 1 ∧ (0 ≤ q.num ∨ v ≠ 0) then some (v ^ q.num) else none
  | _ => none

/-- The exact values of several expressions, if all of them have one. -/
def rationalValues? (point : String → ℚ) : List Expr → Option (List ℚ)
  | [] => some []
  | e :: es => (rationalValue? point e).bind fun v => (rationalValues? point es).map (v :: ·)

end

variable {point : String → ℚ} {e : Expr} {es : List Expr} {r : ℚ}

theorem rationalValues?_eq (h : ∀ e ∈ es, rationalValue? point e = some (value point e)) :
    rationalValues? point es = some (es.map (value point)) := by
  induction es with
  | nil => rfl
  | cons e es ih =>
    obtain ⟨he, hes⟩ := List.forall_mem_cons.1 h
    rw [rationalValues?, he, ih hes]
    rfl

/-- **A defined expression has its value.** -/
theorem Denotes.rationalValue?_eq (h : Denotes point e r) : rationalValue? point e = some r := by
  obtain ⟨h, rfl⟩ := h
  induction h with
  | rat q => rw [rationalValue?, value_number]
  | symbol s => rw [rationalValue?, value_symbol]
  | add ts _ _ ih =>
    rw [rationalValue?, rationalValues?_eq ih, value_add]
    rfl
  | mul fs _ _ _ ih =>
    rw [rationalValue?, rationalValues?_eq ih, value_mul]
    rfl
  | pow b n _ _ _ _ regular ih =>
    rw [rationalValue?, ih, value_pow, wholePow_rat, Option.bind_some, Rat.num_intCast,
      if_pos ⟨Rat.den_intCast n, regular_iff.1 regular⟩]

end Expr

/-! ## Rational formulas -/

/-- Formulas in numbers and variables with the four operations and whole powers. -/
inductive RationalFormula where
  /-- a rational number -/
  | number (q : ℚ)
  /-- a variable -/
  | var (name : String)
  /-- a sum -/
  | add (f g : RationalFormula)
  /-- a difference -/
  | sub (f g : RationalFormula)
  /-- a product -/
  | mul (f g : RationalFormula)
  /-- a quotient -/
  | div (f g : RationalFormula)
  /-- a whole power -/
  | pow (f : RationalFormula) (n : ℤ)
  deriving DecidableEq, Repr

namespace RationalFormula

open TrivSqZeroExt

/-- The expression that the operations give. -/
def toExpr : RationalFormula → Expr
  | number q => .rat q
  | var s => .symbol s
  | add f g => f.toExpr + g.toExpr
  | sub f g => f.toExpr - g.toExpr
  | mul f g => f.toExpr * g.toExpr
  | div f g => f.toExpr / g.toExpr
  | pow f n => Expr.power f.toExpr (Expr.int n)

/-- The value at a point, where `DefinedAt` holds. -/
def value (point : String → ℚ) : RationalFormula → ℚ
  | number q => q
  | var s => point s
  | add f g => f.value point + g.value point
  | sub f g => f.value point - g.value point
  | mul f g => f.value point * g.value point
  | div f g => f.value point / g.value point
  | pow f n => f.value point ^ n

/-- No divisor and no base of a negative power is zero. -/
def DefinedAt (point : String → ℚ) : RationalFormula → Prop
  | number _ => True
  | var _ => True
  | add f g => f.DefinedAt point ∧ g.DefinedAt point
  | sub f g => f.DefinedAt point ∧ g.DefinedAt point
  | mul f g => f.DefinedAt point ∧ g.DefinedAt point
  | div f g => f.DefinedAt point ∧ g.DefinedAt point ∧ g.value point ≠ 0
  | pow f n => f.DefinedAt point ∧ (0 ≤ n ∨ f.value point ≠ 0)

instance decidableDefinedAt (point : String → ℚ) :
    (f : RationalFormula) → Decidable (f.DefinedAt point)
  | number _ => inferInstanceAs (Decidable True)
  | var _ => inferInstanceAs (Decidable True)
  | add f g =>
    have := decidableDefinedAt point f
    have := decidableDefinedAt point g
    inferInstanceAs (Decidable (f.DefinedAt point ∧ g.DefinedAt point))
  | sub f g =>
    have := decidableDefinedAt point f
    have := decidableDefinedAt point g
    inferInstanceAs (Decidable (f.DefinedAt point ∧ g.DefinedAt point))
  | mul f g =>
    have := decidableDefinedAt point f
    have := decidableDefinedAt point g
    inferInstanceAs (Decidable (f.DefinedAt point ∧ g.DefinedAt point))
  | div f g =>
    have := decidableDefinedAt point f
    have := decidableDefinedAt point g
    inferInstanceAs (Decidable (f.DefinedAt point ∧ g.DefinedAt point ∧ g.value point ≠ 0))
  | pow f n =>
    have := decidableDefinedAt point f
    inferInstanceAs (Decidable (f.DefinedAt point ∧ (0 ≤ n ∨ f.value point ≠ 0)))

/-- The formal partial derivative. -/
def partialBy (x : String) : RationalFormula → RationalFormula
  | number _ => number 0
  | var s => if s = x then number 1 else number 0
  | add f g => add (f.partialBy x) (g.partialBy x)
  | sub f g => sub (f.partialBy x) (g.partialBy x)
  | mul f g => add (mul (f.partialBy x) g) (mul f (g.partialBy x))
  | div f g => div (sub (mul (f.partialBy x) g) (mul f (g.partialBy x))) (pow g 2)
  | pow f n => if n = 0 then number 0 else mul (mul (number n) (pow f (n - 1))) (f.partialBy x)

variable {point : String → ℚ} {f g : RationalFormula}

/-- The formal partial derivative is defined where the formula is. -/
theorem DefinedAt.partialBy (x : String) (h : f.DefinedAt point) :
    (f.partialBy x).DefinedAt point := by
  induction f with
  | number q => trivial
  | var s =>
    rw [RationalFormula.partialBy]
    split <;> trivial
  | add f g ihf ihg => exact ⟨ihf h.1, ihg h.2⟩
  | sub f g ihf ihg => exact ⟨ihf h.1, ihg h.2⟩
  | mul f g ihf ihg => exact ⟨⟨ihf h.1, h.2⟩, h.1, ihg h.2⟩
  | div f g ihf ihg =>
    obtain ⟨hf, hg, hne⟩ := h
    exact ⟨⟨⟨ihf hf, hg⟩, hf, ihg hg⟩, ⟨hg, .inr hne⟩, zpow_ne_zero 2 hne⟩
  | pow f n ih =>
    obtain ⟨hf, hn⟩ := h
    rw [RationalFormula.partialBy]
    split
    · trivial
    · exact ⟨⟨trivial, hf, hn.imp_left fun hn => by omega⟩, ih hf⟩

/-- The value of a formula and that of its formal partial derivative. -/
def dual (x : String) (point : String → ℚ) (f : RationalFormula) : Dual :=
  (f.value point, (f.partialBy x).value point)

theorem snd_dual (x : String) (point : String → ℚ) (f : RationalFormula) :
    (f.dual x point).snd = (f.partialBy x).value point := rfl

theorem isUnit_dual (x : String) (h : f.value point ≠ 0) : IsUnit (f.dual x point) :=
  isUnit_iff_isUnit_fst.2 (IsUnit.mk0 _ h)

/-- **The expression of a formula** has the value of the formula, and the value of its formal
partial derivative as its slope. -/
theorem denotes_toExpr (x : String) (h : f.DefinedAt point) :
    Expr.Denotes (Dual.along point x) f.toExpr (f.dual x point) := by
  induction f with
  | number q => exact Expr.denotes_rat q
  | var s =>
    refine (Expr.denotes_symbol s).of_eq (TrivSqZeroExt.ext rfl ?_)
    show (if s = x then (1 : ℚ) else 0) = _
    rw [snd_dual, partialBy]
    split <;> rfl
  | add f g ihf ihg => exact (ihf h.1).add (ihg h.2)
  | sub f g ihf ihg => exact (ihf h.1).sub (ihg h.2)
  | mul f g ihf ihg =>
    refine ((ihf h.1).mul (ihg h.2)).of_eq (TrivSqZeroExt.ext rfl ?_)
    exact (Dual.snd_mul' _ _).trans (add_comm _ _)
  | div f g ihf ihg =>
    obtain ⟨hf, hg, hne⟩ := h
    have hslope : f.value point / g.value point * (g.partialBy x).value point +
        ((f.partialBy x).value point * g.value point -
          f.value point * (g.partialBy x).value point) / g.value point ^ (2 : ℤ) * g.value point =
        (f.partialBy x).value point := by
      field_simp
      ring
    exact (ihf hf).div (ihg hg) (isUnit_dual x hne)
      (TrivSqZeroExt.ext (div_mul_cancel₀ _ hne) ((Dual.snd_mul' _ _).trans hslope))
  | pow f n ih =>
    obtain ⟨hf, hn⟩ := h
    have hregular : Regular (f.dual x point) n := hn.imp_right (isUnit_dual x)
    refine ((ih hf).whole hregular).of_eq (TrivSqZeroExt.ext ?_ ?_)
    · rw [Dual.fst_wholePow hregular, wholePow_rat]
      rfl
    · rw [snd_dual, partialBy]
      -- the exponent zero is told apart because `f ^ (-1)` need not be defined
      split
      · rename_i h0
        rw [h0, wholePow_zero]
        rfl
      · rename_i h0
        rw [Dual.snd_wholePow hregular h0, wholePow_rat, ← mul_assoc]
        rfl

/-- **The partial derivative that the engine returns is exact**: wherever the formula is defined,
the returned expression has the value of the formal partial derivative, which is defined there
too. -/
theorem differentiate_exact (f : RationalFormula) (x : String) (point : String → ℚ)
    (h : f.DefinedAt point) (r : Registry) : (f.partialBy x).DefinedAt point ∧
      (Engine.differentiate f.toExpr x r).1.rationalValue? point =
        some ((f.partialBy x).value point) := by
  have hexpr := denotes_toExpr x h
  have hderivative := Expr.denotes_derivative hexpr.defined
  have hsimplified := Expr.keepsValue_simplify hderivative
  refine ⟨h.partialBy x, ?_⟩
  rw [hexpr.value_eq] at hsimplified
  exact hsimplified.rationalValue?_eq

/-- `x ^ 2 / (y - 1 / 3)` with `x = 3` and `y = 2` has the slope `18 / 5` in the direction of `x`.
-/
theorem differentiate_exact_quotient :
    (div (pow (var "x") 2) (sub (var "y") (number (1 / 3)))).DefinedAt
        (fun s => if s = "x" then 3 else 2) ∧
      (Engine.differentiate
        (div (pow (var "x") 2) (sub (var "y") (number (1 / 3)))).toExpr "x" []).1.rationalValue?
          (fun s => if s = "x" then 3 else 2) = some (18 / 5) := by
  have hdefined : (div (pow (var "x") 2) (sub (var "y") (number (1 / 3)))).DefinedAt
      (fun s => if s = "x" then 3 else 2) := by decide +kernel
  have hvalue : ((div (pow (var "x") 2) (sub (var "y") (number (1 / 3)))).partialBy "x").value
      (fun s => if s = "x" then 3 else 2) = 18 / 5 := by decide +kernel
  refine ⟨hdefined, ?_⟩
  rw [← hvalue]
  exact (differentiate_exact _ "x" _ hdefined []).2

end RationalFormula

end ErrorBars
