import ErrorBars.Expr.Canonical
import ErrorBars.Proofs.Exact.Power

/-!
# The standard constructors keep values

Constructors written over exact ones are exact (`exact_step`), so that every level is, the
standard one among them (`exact_standard`).  No bound on the nesting of expressions is needed: the
level below is only asked to be exact, and the lowest level is.

What follows for the operations of expressions is said in terms of `Denotes`, and what a change of
form has to keep is said once and for all: `KeepsValue env f` says that `f` turns a defined
expression into a defined expression with the same value.  A change that keeps values may be made
everywhere in an expression, from the leaves up (`keepsValue_bottomUp`).
-/

set_option autoImplicit false

namespace ErrorBars

open Expr

variable {R : Type} [CommRing R] [Algebra ℚ R] [Nontrivial R] {env : String → R}

namespace Arith

/-- **Constructors written over exact ones are exact.** -/
theorem exact_step {A : Arith} (hA : A.Exact env) : A.step.Exact env where
  sum h := Canonical.denotes_sum hA h
  sum_rat := Canonical.sum_rat
  product h := Canonical.denotes_product hA h
  product_rat := Canonical.product_rat hA
  product_coeff h0 h1 hb hbase hn ha := Canonical.product_coeff hA h0 h1 hb hbase hn ha
  power h hr := Canonical.denotes_power hA h hr
  power_rat h := Canonical.power_rat hA h
  power_base h hb hn := Canonical.power_base h hb hn

theorem exact_level (n : ℕ) : (level n).Exact env := by
  induction n with
  | zero => exact exact_plain
  | succ n ih => exact exact_step ih

/-- **The standard constructors are exact.** -/
theorem exact_standard : standard.Exact env := exact_level standardLevel

end Arith

namespace Expr

variable {a b e : Expr} {es : List Expr} {r s t : R} {n : ℤ} {p q : ℚ}

/-! ## Operations -/

theorem denotes_sum (h : ∀ e ∈ es, Defined env e) :
    Denotes env (sum es) (es.map (value env)).sum := Arith.exact_standard.sum h

theorem denotes_product (h : ∀ e ∈ es, Defined env e) :
    Denotes env (product es) (es.map (value env)).prod := Arith.exact_standard.product h

theorem denotes_sum_map {ι : Type} {l : List ι} {f : ι → Expr} {g : ι → R}
    (h : ∀ i ∈ l, Denotes env (f i) (g i)) : Denotes env (sum (l.map f)) (l.map g).sum :=
  Arith.exact_standard.sum_map h

theorem denotes_product_map {ι : Type} {l : List ι} {f : ι → Expr} {g : ι → R}
    (h : ∀ i ∈ l, Denotes env (f i) (g i)) : Denotes env (product (l.map f)) (l.map g).prod :=
  Arith.exact_standard.product_map h

theorem Denotes.add (ha : Denotes env a r) (hb : Denotes env b s) : Denotes env (a + b) (r + s) :=
  Arith.exact_standard.add ha hb

theorem Denotes.mul (ha : Denotes env a r) (hb : Denotes env b s) : Denotes env (a * b) (r * s) :=
  Arith.exact_standard.mul ha hb

theorem Denotes.neg (ha : Denotes env a r) : Denotes env (-a) (-r) := Arith.exact_standard.neg ha

theorem Denotes.sub (ha : Denotes env a r) (hb : Denotes env b s) : Denotes env (a - b) (r - s) :=
  Arith.exact_standard.sub ha hb

theorem Denotes.whole (ha : Denotes env a r) (h : Regular r n) :
    Denotes env (power a (int n)) (wholePow r n) := Arith.exact_standard.whole ha h

theorem Denotes.inv (ha : Denotes env a r) (h : IsUnit r) : Denotes env (inv a) (Ring.inverse r) :=
  Arith.exact_standard.inv ha h

/-- A quotient is what gives the numerator when it is multiplied by the denominator. -/
theorem Denotes.div (ha : Denotes env a r) (hb : Denotes env b s) (hs : IsUnit s)
    (h : t * s = r) : Denotes env (a / b) t := by
  refine (Arith.exact_standard.div ha hb hs).of_eq ?_
  rw [← h, mul_assoc, Ring.mul_inverse_cancel s hs, mul_one]

theorem Denotes.keepCoeff (h : Denotes env e r) :
    Denotes env (keepCoeff (.rat q) e) (algebraMap ℚ R q * r) := Arith.exact_standard.keepCoeff h

omit [Nontrivial R] in
theorem Denotes.unique (h : Denotes env e r) (h' : Denotes env e s) : r = s :=
  h.value_eq.symm.trans h'.value_eq

/-! ### Numbers -/

section

-- any environment will do where only numbers occur
private theorem standard_rat : Arith.standard.Exact (fun _ => (0 : ℚ)) := Arith.exact_standard

theorem rat_add (p q : ℚ) : Expr.rat p + Expr.rat q = .rat (p + q) := standard_rat.add_rat p q

theorem neg_rat (q : ℚ) : -Expr.rat q = .rat (-q) := standard_rat.neg_rat q

theorem keepCoeff_rat (p q : ℚ) : keepCoeff (.rat p) (.rat q) = .rat (p * q) :=
  standard_rat.keepCoeff_rat p q

theorem power_rat (h : 0 ≤ n ∨ q ≠ 0) : power (.rat q) (int n) = .rat (q ^ n) :=
  standard_rat.power_rat h

theorem sum_ints (ns : List ℤ) : sum (ns.map int) = int ns.sum := Canonical.sum_ints standard_rat ns

end

/-! ## Changes of form -/

/-- A change of form that keeps values. -/
def KeepsValue (env : String → R) (f : Expr → Expr) : Prop :=
  ∀ ⦃e r⦄, Denotes env e r → Denotes env (f e) r

variable {f g : Expr → Expr}

omit [Nontrivial R] in
theorem keepsValue_id : KeepsValue env fun e => e := fun _ _ h => h

omit [Nontrivial R] in
theorem KeepsValue.comp (hg : KeepsValue env g) (hf : KeepsValue env f) :
    KeepsValue env fun e => g (f e) := fun _ _ h => hg (hf h)

/-- **An application built anew** from arguments with the same values, where numbers are left alone,
keeps its value. -/
theorem denotes_rebuild {k : Head} (h : Defined env (.app k es))
    (hf : ∀ e ∈ es, Defined env e → Denotes env (f e) (value env e))
    (hrat : ∀ q, f (.rat q) = .rat q) :
    Denotes env (rebuild k (es.map f)) (value env (.app k es)) := by
  cases h with
  | add _ all sym =>
    rw [value_add]
    exact denotes_sum_map fun e he => hf e he (all e he)
  | mul _ all flat sym =>
    rw [value_mul]
    exact denotes_product_map fun e he => hf e he (all e he)
  | pow b n base kind ne_zero ne_one regular =>
    rw [value_pow, List.map_cons, List.map_singleton, hrat]
    exact (hf b (by simp) base).whole regular

theorem bottomUpAll_eq (f : Expr → Expr) (es : List Expr) :
    bottomUpAll f es = es.map (bottomUp f) := by
  induction es with
  | nil => rfl
  | cons e es ih => rw [bottomUpAll, ih, List.map_cons]

/-- **A change that keeps values may be made everywhere, from the leaves up.** -/
theorem keepsValue_bottomUp (hf : KeepsValue env f) : KeepsValue env (bottomUp f) := by
  have hnode : ∀ {k : Head} {es : List Expr}, Defined env (.app k es) →
      (∀ e ∈ es, Defined env e → Denotes env (bottomUp f e) (value env e)) →
      Denotes env (bottomUp f (.app k es)) (value env (.app k es)) := by
    intro k es h hes
    rw [bottomUp, bottomUpAll_eq]
    refine hf ?_
    split
    · exact h.denotes
    · exact denotes_rebuild h hes fun _ => rfl
  have hall : ∀ {e}, Defined env e → Denotes env (bottomUp f e) (value env e) := by
    intro e h
    induction h with
    | rat q => exact denotes_rat q |>.of_eq (value_rat env q).symm
    | symbol s => exact (denotes_symbol s).of_eq (value_symbol env s).symm
    | add ts all sym ih => exact hnode (.add ts all sym) fun e he _ => ih e he
    | mul fs all flat sym ih => exact hnode (.mul fs all flat sym) fun e he _ => ih e he
    | pow b n base kind ne_zero ne_one regular ih =>
      refine hnode (.pow b n base kind ne_zero ne_one regular) fun e he _ => ?_
      rcases List.mem_cons.1 he with rfl | he
      · exact ih
      · rw [List.mem_singleton.1 he]
        exact (denotes_rat (n : ℚ)).of_eq (value_rat env n).symm
  exact fun e r h => h.value_eq ▸ hall h.defined

end Expr

end ErrorBars
