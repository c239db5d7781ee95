import ErrorBars.Expr.Canonical.Bounds
import ErrorBars.Proofs.Exact.WholePower
import ErrorBars.Proofs.Names.Substitute

/-!
# Exact values of expressions

An expression that holds rational numbers, variables, sums, products and whole powers and nothing
else has an exact value as soon as its variables have one.  `value` is that value, in any
commutative ring over the rational numbers.

`Defined env e` says two things.  The tree of `e` has the shape that all constructors keep: there is
no product among the factors of a product, no sum or product without a part that is not a number,
and every power is that of a variable or a sum, with an exponent that is neither zero nor one.  And
every base that stands below a line has an inverse.  `Denotes env e r` says that `e` is defined and
has the value `r`; it is what every change of form has to keep.

The shape matters because a constructor looks at it.  A closed sum that is left as it stands would
be evaluated approximately to learn its sign (`facts`); of an expression in which a variable is
left nothing is known at all (`Defined.isConstant_and_facts`), so that no such knowledge can
mislead.
-/

set_option autoImplicit false

namespace ErrorBars.Expr

variable {R : Type} [CommRing R] [Algebra ℚ R]

/-! ## Values -/

mutual

/-- The value of an expression. -/
noncomputable def value (env : String → R) : Expr → R
  | .rat q => algebraMap ℚ R q
  | .symbol s => env s
  | .app .add ts => sumValues env ts
  | .app .mul fs => productValues env fs
  | .app .pow [b, .rat q] => wholePow (value env b) q.num
  | _ => 0

/-- The sum of the values of several expressions. -/
noncomputable def sumValues (env : String → R) : List Expr → R
  | [] => 0
  | t :: ts => value env t + sumValues env ts

/-- The product of the values of several expressions. -/
noncomputable def productValues (env : String → R) : List Expr → R
  | [] => 1
  | f :: fs => value env f * productValues env fs

end

section

variable (env : String → R)

@[simp] theorem value_rat (q : ℚ) : value env (.rat q) = algebraMap ℚ R q := by rw [value]

@[simp] theorem value_symbol (s : String) : value env (.symbol s) = env s := by rw [value]

@[simp] theorem value_add (ts : List Expr) :
    value env (.app .add ts) = (ts.map (value env)).sum := by
  rw [value]
  induction ts with
  | nil => rw [sumValues, List.map_nil, List.sum_nil]
  | cons t ts ih => rw [sumValues, ih, List.map_cons, List.sum_cons]

@[simp] theorem value_mul (fs : List Expr) :
    value env (.app .mul fs) = (fs.map (value env)).prod := by
  rw [value]
  induction fs with
  | nil => rw [productValues, List.map_nil, List.prod_nil]
  | cons f fs ih => rw [productValues, ih, List.map_cons, List.prod_cons]

@[simp] theorem value_int (n : ℤ) : value env (int n) = (n : R) := by
  rw [int, value_rat, map_intCast]

@[simp] theorem value_pow (b : Expr) (n : ℤ) :
    value env (.app .pow [b, .rat n]) = wholePow (value env b) n := by
  rw [value, Rat.num_intCast]

@[simp] theorem value_rawPow (b : Expr) (n : ℤ) :
    value env (rawPow b (int n)) = wholePow (value env b) n := value_pow env b n

@[simp] theorem value_zero : value env zero = 0 := by rw [zero, value_rat, map_zero]

@[simp] theorem value_one : value env one = 1 := by rw [one, value_rat, map_one]

@[simp] theorem value_minusOne : value env minusOne = -1 := by
  rw [minusOne, value_rat, map_neg, map_one]

end

/-! ## Definedness -/

/-- Whether an expression is a variable or a sum: what may be the base of a power. -/
def isBase : Expr → Bool
  | .symbol _ => true
  | .app .add _ => true
  | _ => false

/-- Some of several expressions is not a number. -/
def Symbolic (es : List Expr) : Prop := ∃ e ∈ es, e.isNumber = false

/-- An expression of the kind that has exact values, with an inverse for everything that stands
below a line. -/
inductive Defined (env : String → R) : Expr → Prop where
  | rat (q : ℚ) : Defined env (.rat q)
  | symbol (s : String) : Defined env (.symbol s)
  | add (ts : List Expr) (all : ∀ t ∈ ts, Defined env t) (sym : Symbolic ts) :
      Defined env (.app .add ts)
  | mul (fs : List Expr) (all : ∀ f ∈ fs, Defined env f) (flat : ∀ f ∈ fs, f.isMul = false)
      (sym : Symbolic fs) : Defined env (.app .mul fs)
  | pow (b : Expr) (n : ℤ) (base : Defined env b) (kind : b.isBase = true) (ne_zero : n ≠ 0)
      (ne_one : n ≠ 1) (regular : Regular (value env b) n) : Defined env (.app .pow [b, .rat n])

/-- An expression is defined and has this value. -/
structure Denotes (env : String → R) (e : Expr) (r : R) : Prop where
  /-- the expression is defined -/
  defined : Defined env e
  /-- its value -/
  value_eq : value env e = r

/-- Expressions that may stand side by side in a product. -/
def Factors (env : String → R) (fs : List Expr) : Prop :=
  ∀ f ∈ fs, Defined env f ∧ f.isMul = false

variable {env : String → R} {e b m : Expr} {es fs ts : List Expr} {r s : R} {n : ℤ} {q : ℚ}

theorem Defined.denotes (h : Defined env e) : Denotes env e (value env e) := ⟨h, rfl⟩

theorem Denotes.of_eq (h : Denotes env e r) (hr : r = s) : Denotes env e s := hr ▸ h

theorem denotes_rat (q : ℚ) : Denotes env (.rat q) (algebraMap ℚ R q) := ⟨.rat q, value_rat env q⟩

theorem denotes_int (n : ℤ) : Denotes env (int n) (n : R) := ⟨.rat _, value_int env n⟩

theorem denotes_zero : Denotes env zero 0 := ⟨.rat 0, value_zero env⟩

theorem denotes_one : Denotes env one 1 := ⟨.rat 1, value_one env⟩

theorem denotes_minusOne : Denotes env minusOne (-1) := ⟨.rat (-1), value_minusOne env⟩

theorem denotes_symbol (s : String) : Denotes env (.symbol s) (env s) :=
  ⟨.symbol s, value_symbol env s⟩

/-! ## Shape -/

theorem Defined.eq_rat (h : Defined env e) (hn : e.isNumber = true) : ∃ q, e = .rat q := by
  cases h with
  | rat q => exact ⟨q, rfl⟩
  | symbol | add | mul | pow => simp [isNumber] at hn

theorem Defined.ne_const (h : Defined env e) (c : Const) : e ≠ .const c := by
  rintro rfl
  cases h

@[simp] theorem Defined.beq_const (h : Defined env e) (c : Const) : (e == .const c) = false :=
  beq_eq_false_iff_ne.2 (h.ne_const c)

@[simp] theorem Defined.isFnOf (h : Defined env e) (f : Func) : e.isFnOf f = false := by
  cases h <;> rfl

@[simp] theorem Defined.isInfinite (h : Defined env e) : e.isInfinite = false := by
  cases h <;> rfl

@[simp] theorem Defined.ends (h : Defined env e) : Canonical.Ends.of? e = none := by
  cases h <;> rfl

/-- An expression that is the number zero has the value zero. -/
theorem Denotes.eq_zero (h : Denotes env e r) (hz : e.isZero = true) : r = 0 := by
  obtain ⟨h, rfl⟩ := h
  cases h with
  | rat q => rw [value_rat, beq_iff_eq.1 (show (q == 0) = true from hz), map_zero]
  | symbol | add | mul | pow => cases hz

theorem Defined.mul_mem (h : Defined env (.app .mul fs)) : Factors env fs ∧ Symbolic fs := by
  cases h with
  | mul _ all flat sym => exact ⟨fun f hf => ⟨all f hf, flat f hf⟩, sym⟩

theorem Defined.add_mem (h : Defined env (.app .add ts)) :
    (∀ t ∈ ts, Defined env t) ∧ Symbolic ts := by
  cases h with
  | add _ all sym => exact ⟨all, sym⟩

/-- A base is a variable or a sum. -/
theorem cases_of_isBase (hb : b.isBase = true) :
    (∃ s, b = .symbol s) ∨ ∃ ts, b = .app .add ts := by
  unfold isBase at hb
  split at hb
  · exact .inl ⟨_, rfl⟩
  · exact .inr ⟨_, rfl⟩
  · cases hb

theorem isMul_of_isBase (hb : b.isBase = true) : b.isMul = false := by
  obtain ⟨s, rfl⟩ | ⟨ts, rfl⟩ := cases_of_isBase hb <;> rfl

theorem isNumber_of_isBase (hb : b.isBase = true) : b.isNumber = false := by
  obtain ⟨s, rfl⟩ | ⟨ts, rfl⟩ := cases_of_isBase hb <;> rfl

theorem factors_of_isMul_eq_false (h : e.isMul = false) : e.factors = [e] := by
  unfold factors
  split
  · cases h
  · rfl

theorem Symbolic.cons (h : Symbolic es) (e : Expr) : Symbolic (e :: es) :=
  h.imp fun _ hf => ⟨List.mem_cons_of_mem e hf.1, hf.2⟩

theorem Symbolic.tail (h : Symbolic (e :: es)) (he : e.isNumber = true) : Symbolic es := by
  obtain ⟨f, hf, hn⟩ := h
  rcases List.mem_cons.1 hf with rfl | hf
  · rw [he] at hn
    cases hn
  · exact ⟨f, hf, hn⟩

theorem Factors.cons (h : Factors env fs) (he : Defined env e) (hm : e.isMul = false) :
    Factors env (e :: fs) := List.forall_mem_cons.2 ⟨⟨he, hm⟩, h⟩

theorem Factors.tail (h : Factors env (e :: fs)) : Factors env fs :=
  fun f hf => h f (List.mem_cons_of_mem e hf)

/-- Sums with a part that is not a number are defined, and so is a single term. -/
theorem denotes_rawAdd (h : ∀ t ∈ ts, Defined env t) (hs : Symbolic ts) :
    Denotes env (rawAdd ts) (ts.map (value env)).sum :=
  ⟨.add ts h hs, value_add env ts⟩

theorem denotes_rawMul (h : Factors env fs) (hs : Symbolic fs) :
    Denotes env (rawMul fs) (fs.map (value env)).prod :=
  ⟨.mul fs (fun f hf => (h f hf).1) (fun f hf => (h f hf).2) hs, value_mul env fs⟩

/-- A number in front of a product. -/
theorem denotes_rat_rawMul (h : Factors env fs) (hs : Symbolic fs) (q : ℚ) :
    Denotes env (rawMul (.rat q :: fs)) (algebraMap ℚ R q * (fs.map (value env)).prod) := by
  refine (denotes_rawMul (h.cons (.rat q) rfl) (hs.cons _)).of_eq ?_
  rw [List.map_cons, List.prod_cons, value_rat]

/-- A number in front of a single factor. -/
theorem denotes_rat_rawMul_single (h : Defined env e) (hm : e.isMul = false)
    (hn : e.isNumber = false) (q : ℚ) :
    Denotes env (rawMul [.rat q, e]) (algebraMap ℚ R q * value env e) := by
  have hfactors : Factors env [e] := List.forall_mem_singleton.2 ⟨h, hm⟩
  refine (denotes_rat_rawMul hfactors ⟨e, List.mem_singleton.2 rfl, hn⟩ q).of_eq ?_
  rw [List.map_singleton, List.prod_singleton]

theorem denotes_sumOf (h : ∀ t ∈ ts, Defined env t) (hs : Symbolic ts ∨ ts.length ≤ 1) :
    Denotes env (sumOf ts) (ts.map (value env)).sum := by
  match ts, hs with
  | [], _ => exact denotes_zero
  | [t], _ => exact (h t (List.mem_singleton.2 rfl)).denotes.of_eq (by simp)
  | t :: u :: ts, .inl hs => exact denotes_rawAdd h hs
  | _ :: _ :: _, .inr hs => simp at hs

theorem denotes_productOf (h : Factors env fs) (hs : Symbolic fs ∨ fs.length ≤ 1) :
    Denotes env (productOf fs) (fs.map (value env)).prod := by
  match fs, hs with
  | [], _ => exact denotes_one
  | [f], _ => exact (h f (List.mem_singleton.2 rfl)).1.denotes.of_eq (by simp)
  | f :: g :: fs, .inl hs => exact denotes_rawMul h hs
  | _ :: _ :: _, .inr hs => simp at hs

theorem isNumber_productOf (hs : Symbolic fs) : (productOf fs).isNumber = false := by
  match fs, hs with
  | [_], ⟨f, hf, hn⟩ =>
    rw [List.mem_singleton] at hf
    rwa [← hf]
  | _ :: _ :: _, _ => rfl

/-! ## Terms and factors -/

theorem Defined.terms (h : Defined env e) : ∀ t ∈ e.terms, Defined env t := by
  cases h with
  | add ts all => exact all
  | rat | symbol | mul | pow =>
    intro t ht
    rw [List.mem_singleton.1 ht]
    constructor <;> assumption

theorem Defined.sum_terms (h : Defined env e) : (e.terms.map (value env)).sum = value env e := by
  cases h with
  | add ts all => exact (value_add env ts).symm
  | rat | symbol | mul | pow => exact List.sum_singleton

theorem Defined.factors (h : Defined env e) : Factors env e.factors := by
  by_cases hm : e.isMul = true
  · cases h with
    | mul fs all flat => exact fun f hf => ⟨all f hf, flat f hf⟩
    | rat | symbol | add | pow => cases hm
  · rw [Bool.not_eq_true] at hm
    rw [factors_of_isMul_eq_false hm]
    exact List.forall_mem_singleton.2 ⟨h, hm⟩

theorem Defined.prod_factors (h : Defined env e) :
    (e.factors.map (value env)).prod = value env e := by
  cases h with
  | mul fs => exact (value_mul env fs).symm
  | rat | symbol | add | pow => exact List.prod_singleton

theorem symbolic_factors (h : Defined env e) (hn : e.isNumber = false) : Symbolic e.factors := by
  cases h with
  | mul _ _ _ sym => exact sym
  | rat | symbol | add | pow => exact ⟨_, List.mem_singleton.2 rfl, hn⟩

/-! ## The number in front -/

/-- **The number in front of an expression** and what remains: a defined expression that is one or
not a number at all. -/
theorem Defined.coeffMul (h : Defined env e) :
    ∃ q m, e.coeffMul = (.rat q, m) ∧ Defined env m ∧ value env e = algebraMap ℚ R q * value env m ∧
      (m = one ∨ m.isNumber = false) ∧ (e.isNumber = false → m.isNumber = false) := by
  cases h with
  | rat q =>
    exact ⟨q, one, rfl, .rat 1, by simp, .inl rfl, fun hn => by cases hn⟩
  | symbol s => exact ⟨1, .symbol s, rfl, .symbol s, by simp, .inr rfl, fun _ => rfl⟩
  | add ts all sym => exact ⟨1, _, rfl, .add ts all sym, by simp, .inr rfl, fun _ => rfl⟩
  | pow b n base kind ne_zero ne_one regular =>
    exact ⟨1, _, rfl, .pow b n base kind ne_zero ne_one regular, by simp, .inr rfl, fun _ => rfl⟩
  | mul fs all flat sym =>
    match fs, sym with
    | f :: rest, sym =>
      by_cases hf : f.isNumber = true
      · obtain ⟨q, rfl⟩ := (all f (by simp)).eq_rat hf
        have hrest : Symbolic rest := sym.tail hf
        have hfactors : Factors env rest := fun g hg =>
          ⟨all g (List.mem_cons_of_mem _ hg), flat g (List.mem_cons_of_mem _ hg)⟩
        have hproduct := denotes_productOf hfactors (.inl hrest)
        refine ⟨q, productOf rest, rfl, hproduct.defined, ?_, .inr (isNumber_productOf hrest),
          fun _ => isNumber_productOf hrest⟩
        rw [hproduct.value_eq, value_mul, List.map_cons, List.prod_cons, value_rat]
      · refine ⟨1, .app .mul (f :: rest), ?_, .mul _ all flat sym, by simp, .inr rfl, fun _ => rfl⟩
        rw [Expr.coeffMul]
        exact if_neg hf

theorem Defined.ratCoeffMul (h : Defined env e) :
    e.coeffMul = (.rat e.ratCoeffMul.1, e.ratCoeffMul.2) := by
  cases h with
  | rat | symbol | add | pow => rfl
  | mul fs all flat sym =>
    match fs, all, sym with
    | f :: rest, all, _ =>
      cases all f (by simp) with
      | rat | symbol | add | mul | pow => rfl

/-! ## Powers as factors -/

/-- A power of a base as it is written: the exponent one is left out. -/
def powerForm (b : Expr) (n : ℤ) : Expr := if n = 1 then b else rawPow b (int n)

theorem powerForm_one (b : Expr) : powerForm b 1 = b := if_pos rfl

theorem powerForm_of_ne_one (hn : n ≠ 1) : powerForm b n = rawPow b (int n) := if_neg hn

@[simp] theorem isNumber_powerForm (hb : b.isBase = true) : (powerForm b n).isNumber = false := by
  rw [powerForm]
  split
  · exact isNumber_of_isBase hb
  · rfl

theorem rat?_of_isNumber_eq_false (h : e.isNumber = false) : rat? e = none := by
  cases e with
  | rat q => cases h
  | _ => rfl

theorem rat?_powerForm (hb : b.isBase = true) : rat? (powerForm b n) = none :=
  rat?_of_isNumber_eq_false (isNumber_powerForm hb)

@[simp] theorem isMul_powerForm (hb : b.isBase = true) : (powerForm b n).isMul = false := by
  rw [powerForm]
  split
  · exact isMul_of_isBase hb
  · rfl

@[simp] theorem baseExp_of_isBase (hb : b.isBase = true) : b.baseExp = (b, one) := by
  obtain ⟨s, rfl⟩ | ⟨ts, rfl⟩ := cases_of_isBase hb <;> rfl

@[simp] theorem baseExp_rawPow (hb : b.isBase = true) (x : Expr) :
    (rawPow b x).baseExp = (b, x) := by
  obtain ⟨s, rfl⟩ | ⟨ts, rfl⟩ := cases_of_isBase hb <;> rfl

@[simp] theorem baseExp_powerForm (hb : b.isBase = true) :
    (powerForm b n).baseExp = (b, int n) := by
  by_cases hn : n = 1
  · rw [hn, powerForm_one, baseExp_of_isBase hb, int, Int.cast_one, one]
  · rw [powerForm_of_ne_one hn, baseExp_rawPow hb]

theorem denotes_powerForm (h : Defined env b) (hb : b.isBase = true) (hn : n ≠ 0)
    (hr : Regular (value env b) n) : Denotes env (powerForm b n) (wholePow (value env b) n) := by
  by_cases h1 : n = 1
  · rw [h1, powerForm_one, wholePow_one]
    exact h.denotes
  · rw [powerForm_of_ne_one h1]
    exact ⟨.pow b n h hb hn h1 hr, value_rawPow env b n⟩

/-- **What stands in a product** is a number or a power of a base. -/
theorem Defined.factor_cases (h : Defined env e) (hm : e.isMul = false) :
    (∃ q, e = .rat q) ∨ ∃ b n, Defined env b ∧ b.isBase = true ∧ n ≠ 0 ∧
      Regular (value env b) n ∧ e = powerForm b n := by
  cases h with
  | rat q => exact .inl ⟨q, rfl⟩
  | symbol s =>
    exact .inr ⟨.symbol s, 1, .symbol s, rfl, by decide, .inl (by decide), (powerForm_one _).symm⟩
  | add ts all sym =>
    exact .inr ⟨.app .add ts, 1, .add ts all sym, rfl, by decide, .inl (by decide),
      (powerForm_one _).symm⟩
  | mul => cases hm
  | pow b n base kind ne_zero ne_one regular =>
    exact .inr ⟨b, n, base, kind, ne_zero, regular, (powerForm_of_ne_one ne_one).symm⟩

/-! ## What is known of a value -/

theorem anyOf_eq (p : Expr → Bool) (es : List Expr) : anyOf p es = es.any (any p) := by
  induction es with
  | nil => rfl
  | cons e es ih => rw [anyOf, ih, List.any_cons]

theorem factsOfAll_eq (es : List Expr) : factsOfAll es = es.map facts := by
  induction es with
  | nil => rfl
  | cons e es ih => rw [factsOfAll, ih, List.map_cons]

theorem isConstant_app {h : Head} (hs : ∃ e ∈ es, e.isConstant = false) :
    (Expr.app h es).isConstant = false := by
  obtain ⟨e, he, hc⟩ := hs
  rw [isConstant, Bool.not_eq_false'] at hc ⊢
  rw [any, anyOf_eq, Bool.or_eq_true]
  exact .inr (List.any_eq_true.2 ⟨e, he, hc⟩)

theorem allNonnegative_of_mem {fs : List Facts} (h : Facts.nothing ∈ fs) :
    allNonnegative fs = false :=
  List.all_eq_false.2 ⟨_, h, by decide⟩

theorem headFacts_of_mem {h : Head} (hh : h = .add ∨ h = .mul) {fs : List Facts}
    (hf : Facts.nothing ∈ fs) : headFacts h fs = Facts.nothing := by
  have hreal : (fs.all fun f => f.real == some true) = false :=
    List.all_eq_false.2 ⟨_, hf, by decide⟩
  rcases hh with rfl | rfl
  · rw [headFacts, allNonnegative_of_mem hf, hreal]
    rfl
  · rw [headFacts, allNonnegative_of_mem hf, hreal]
    rfl

theorem headFacts_pow (f : Facts) : headFacts .pow [Facts.nothing, f] = Facts.nothing := rfl

/-- A defined expression that is not a number holds a variable, so that nothing is known of it. -/
theorem Defined.isConstant_and_facts (h : Defined env e) :
    e.isNumber = false → e.isConstant = false ∧ e.facts = Facts.nothing := by
  have htree : ∀ {h : Head} {es : List Expr}, h = .add ∨ h = .mul →
      (∀ e ∈ es, e.isNumber = false → e.isConstant = false ∧ e.facts = Facts.nothing) →
      Symbolic es → (Expr.app h es).isConstant = false ∧ (Expr.app h es).facts = Facts.nothing := by
    rintro h es hh ih ⟨e, he, hn⟩
    have hc := isConstant_app (h := h) ⟨e, he, (ih e he hn).1⟩
    refine ⟨hc, ?_⟩
    rw [Expr.facts, hc, factsOfAll_eq]
    exact headFacts_of_mem hh (List.mem_map.2 ⟨e, he, (ih e he hn).2⟩)
  induction h with
  | rat q => exact fun hn => by cases hn
  | symbol s => exact fun _ => ⟨rfl, rfl⟩
  | add ts _ sym ih => exact fun _ => htree (.inl rfl) ih sym
  | mul fs _ _ sym ih => exact fun _ => htree (.inr rfl) ih sym
  | pow b n base kind _ _ _ ih =>
    intro _
    obtain ⟨hc, hf⟩ := ih (isNumber_of_isBase kind)
    have hc' : (Expr.app .pow [b, .rat n]).isConstant = false := isConstant_app ⟨b, by simp, hc⟩
    refine ⟨hc', ?_⟩
    rw [Expr.facts, hc', factsOfAll, hf, factsOfAll]
    exact headFacts_pow (Expr.rat n).facts

theorem Defined.isConstant_eq (h : Defined env e) (hn : e.isNumber = false) :
    e.isConstant = false := (h.isConstant_and_facts hn).1

theorem isWhole_int (n : ℤ) : (int n).isWhole = true := by
  rw [isWhole, int, facts, Facts.ofRat, Rat.den_intCast]
  rfl

end ErrorBars.Expr
