import ErrorBars.Proofs.Products
import ErrorBars.Proofs.Quadrature

/-!
# Infinities, and what is no number

A term may be infinite, or no number at all.  The two reductions treat these differently: a sum with
something in it that is no number is none either, while a hypotenuse is infinite as soon as one leg
is, even if the other is no number.  So where both occur, the correlated figure is no number and the
uncorrelated one is infinite.

Which of the two a figure is does not depend on where the special terms stand, since every reduction
takes in every term once (`Added`).  What has to be known of an addition or a hypotenuse is said by
`SpecialRules`; whatever follows these rules never loses a special term (`SpecialRules.figures`).
Doubles do (`doubles_specialRules`), and so do the reals with two infinities and something that is
no number added (`Special`), which follow the stricter `ExactRules`: no number is too large there.
`figures_special` puts it together.
-/

set_option autoImplicit false

namespace ErrorBars

open Operations

variable {α : Type}

/-! ## What a reduction preserves -/

section Reductions

variable {f : α → α → α} {s : Multiset α} {P Q : α → Prop} {r : α}

/-- What holds of all terms and is kept by each step holds of the whole. -/
theorem Added.closed (h : Added f s r) (hstep : ∀ x y, P x → P y → P (f x y))
    (hs : ∀ x ∈ s, P x) : P r := by
  induction h with
  | term x => exact hs x (Multiset.mem_singleton_self x)
  | add left right ihl ihr =>
    exact hstep _ _ (ihl fun x hx => hs x (Multiset.mem_add.2 (.inl hx)))
      (ihr fun x hx => hs x (Multiset.mem_add.2 (.inr hx)))

/-- What one term has, and a step has as soon as one side has it, the whole has too. -/
theorem Added.absorbed (h : Added f s r) (hkeep : ∀ x y, P x → P y → P (f x y))
    (hstep : ∀ x y, P x → P y → Q x ∨ Q y → Q (f x y)) (hs : ∀ x ∈ s, P x)
    (hq : ∃ x ∈ s, Q x) : Q r := by
  induction h with
  | term x =>
    obtain ⟨y, hy, hqy⟩ := hq
    exact Multiset.mem_singleton.1 hy ▸ hqy
  | add left right ihl ihr =>
    have hl := fun x hx => hs x (Multiset.mem_add.2 (.inl hx))
    have hr := fun x hx => hs x (Multiset.mem_add.2 (.inr hx))
    refine hstep _ _ (left.closed hkeep hl) (right.closed hkeep hr) ?_
    obtain ⟨y, hy, hqy⟩ := hq
    exact (Multiset.mem_add.1 hy).imp (fun hy => ihl hl ⟨y, hy, hqy⟩) fun hy => ihr hr ⟨y, hy, hqy⟩

end Reductions

namespace Operations

variable (op : Operations α) {P : α → Prop} {ts : List α}

/-- The correlated figure adds every magnitude once; without terms it is zero. -/
theorem added_correlated (h : ts ≠ []) :
    Added op.add (ts.map op.abs : List α) (op.correlated ts) :=
  added_blockedSum (mt List.map_eq_nil_iff.1 h)

/-- The uncorrelated figure takes in zero and every magnitude once. -/
theorem added_uncorrelated (ts : List α) :
    Added op.hypot ({op.zero} + (ts.map op.abs : List α)) (op.uncorrelated ts) :=
  (Added.term op.zero).foldl _

/-- A mode asks for no other figures than these two. -/
theorem pick_figures (mode : Correlation) (ts : List α) (b : Bool) :
    (op.figures mode ts).pick b = op.correlated ts ∨
      (op.figures mode ts).pick b = op.uncorrelated ts := by
  cases mode with
  | uncorrelated => exact .inr rfl
  | correlated => exact .inl rfl
  | both => cases b with
    | true => exact .inl rfl
    | false => exact .inr rfl

end Operations

/-! ## Rules for special terms -/

/-- What a term can be. -/
inductive Kind where
  /-- a finite number -/
  | number
  /-- an infinity -/
  | infinite
  /-- no number -/
  | undefined
  deriving DecidableEq

/-- What operations do with special terms.  Finite numbers may come to an infinity, as they do when
a result is too large. -/
structure SpecialRules (op : Operations α) (kind : α → Kind) (negative : α → Prop) : Prop where
  zero : kind op.zero = .number ∧ ¬ negative op.zero
  abs : ∀ x, kind (op.abs x) = kind x ∧ ¬ negative (op.abs x)
  /-- sums of what is not negative are not -/
  add_sign : ∀ x y, ¬ negative x → ¬ negative y → ¬ negative (op.add x y)
  /-- a sum is no number if one of the terms is none -/
  add_undefined : ∀ x y, kind x = .undefined ∨ kind y = .undefined →
    kind (op.add x y) = .undefined
  /-- infinities of the same sign do not cancel -/
  add_defined : ∀ x y, ¬ negative x → ¬ negative y → kind x ≠ .undefined → kind y ≠ .undefined →
    kind (op.add x y) ≠ .undefined ∧
      (kind x = .infinite ∨ kind y = .infinite → kind (op.add x y) = .infinite)
  hypot_sign : ∀ x y, ¬ negative (op.hypot x y)
  /-- a hypotenuse is infinite if one of the legs is, whatever the other is -/
  hypot_infinite : ∀ x y, kind x = .infinite ∨ kind y = .infinite →
    kind (op.hypot x y) = .infinite
  hypot_special : ∀ x y, kind x ≠ .number ∨ kind y ≠ .number → kind (op.hypot x y) ≠ .number
  hypot_number : ∀ x y, kind x ≠ .undefined → kind y ≠ .undefined →
    kind (op.hypot x y) ≠ .undefined

/-- Operations for which no result is too large. -/
structure ExactRules (op : Operations α) (kind : α → Kind) (negative : α → Prop) : Prop extends
    SpecialRules op kind negative where
  add_exact : ∀ x y, kind x = .number → kind y = .number → kind (op.add x y) = .number
  hypot_exact : ∀ x y, kind x = .number → kind y = .number → kind (op.hypot x y) = .number
  hypot_undefined : ∀ x y, kind x ≠ .infinite → kind y ≠ .infinite →
    kind (op.hypot x y) ≠ .infinite

section Rules

variable {op : Operations α} {kind : α → Kind} {negative : α → Prop} {ts : List α}

namespace SpecialRules

variable (rules : SpecialRules op kind negative)

include rules

theorem forall_mem_abs {P : Kind → Prop} (h : ∀ t ∈ ts, P (kind t)) :
    ∀ x ∈ (ts.map op.abs : Multiset α), ¬ negative x ∧ P (kind x) := by
  intro x hx
  obtain ⟨t, ht, rfl⟩ := List.mem_map.1 (Multiset.mem_coe.1 hx)
  exact ⟨(rules.abs t).2, (rules.abs t).1 ▸ h t ht⟩

theorem exists_mem_abs {P : Kind → Prop} (h : ∃ t ∈ ts, P (kind t)) :
    ∃ x ∈ (ts.map op.abs : Multiset α), P (kind x) := by
  obtain ⟨t, ht, hp⟩ := h
  exact ⟨_, Multiset.mem_coe.2 (List.mem_map_of_mem ht), (rules.abs t).1.symm ▸ hp⟩

/-- A sum of magnitudes is not negative. -/
theorem correlated_sign : ¬ negative (op.correlated ts) := by
  by_cases hts : ts = []
  · rw [hts, correlated, List.map_nil, blockedSum_nil]
    exact rules.zero.2
  · refine (op.added_correlated hts).closed rules.add_sign fun x hx => ?_
    exact (rules.forall_mem_abs (P := fun _ => True) (fun _ _ => trivial) x hx).1

/-- One term that is no number spoils the sum. -/
theorem correlated_undefined (h : ∃ t ∈ ts, kind t = .undefined) :
    kind (op.correlated ts) = .undefined := by
  have hts : ts ≠ [] := fun hts => absurd h (by simp [hts])
  exact (op.added_correlated hts).absorbed (P := fun _ => True) (fun _ _ _ _ => trivial)
    (fun x y _ _ => rules.add_undefined x y) (fun _ _ => trivial)
    (rules.exists_mem_abs (P := (· = .undefined)) h)

/-- An infinite term makes the sum infinite, since no magnitude is negative. -/
theorem correlated_infinite (h : ∀ t ∈ ts, kind t ≠ .undefined)
    (hinfinite : ∃ t ∈ ts, kind t = .infinite) : kind (op.correlated ts) = .infinite := by
  have hts : ts ≠ [] := fun hts => absurd hinfinite (by simp [hts])
  refine (op.added_correlated hts).absorbed (P := fun x => ¬ negative x ∧ kind x ≠ .undefined)
    (fun x y hx hy => ?_) (fun x y hx hy => ?_) (rules.forall_mem_abs (P := (· ≠ .undefined)) h)
    (rules.exists_mem_abs (P := (· = .infinite)) hinfinite)
  · exact ⟨rules.add_sign x y hx.1 hy.1, (rules.add_defined x y hx.1 hy.1 hx.2 hy.2).1⟩
  · exact (rules.add_defined x y hx.1 hy.1 hx.2 hy.2).2

/-- A hypotenuse is not negative. -/
theorem uncorrelated_sign : ¬ negative (op.uncorrelated ts) := by
  refine (op.added_uncorrelated ts).closed (P := fun x => ¬ negative x)
    (fun x y _ _ => rules.hypot_sign x y) fun x hx => ?_
  rcases Multiset.mem_add.1 hx with hx | hx
  · exact Multiset.mem_singleton.1 hx ▸ rules.zero.2
  · exact (rules.forall_mem_abs (P := fun _ => True) (fun _ _ => trivial) x hx).1

/-- What holds of the kind of a number and of those of all terms is kept by the hypotenuses. -/
theorem uncorrelated_closed {P : Kind → Prop} (hnumber : P .number)
    (hstep : ∀ x y, P (kind x) → P (kind y) → P (kind (op.hypot x y)))
    (h : ∀ t ∈ ts, P (kind t)) : P (kind (op.uncorrelated ts)) := by
  refine (op.added_uncorrelated ts).closed (P := fun x => P (kind x)) hstep fun x hx => ?_
  rcases Multiset.mem_add.1 hx with hx | hx
  · exact Multiset.mem_singleton.1 hx ▸ rules.zero.1 ▸ hnumber
  · exact (rules.forall_mem_abs h x hx).2

/-- What one term has, and a hypotenuse has as soon as one leg has it, the whole has too. -/
theorem uncorrelated_absorbed {P : Kind → Prop}
    (hstep : ∀ x y, P (kind x) ∨ P (kind y) → P (kind (op.hypot x y)))
    (h : ∃ t ∈ ts, P (kind t)) : P (kind (op.uncorrelated ts)) := by
  obtain ⟨x, hx, hp⟩ := rules.exists_mem_abs h
  exact (op.added_uncorrelated ts).absorbed (P := fun _ => True) (fun _ _ _ _ => trivial)
    (fun x y _ _ => hstep x y) (fun _ _ => trivial) ⟨x, Multiset.mem_add.2 (.inr hx), hp⟩

/-- **No special term is lost**, whichever figure is asked for, and no figure is negative. -/
theorem figures (mode : Correlation) (ts : List α) (b : Bool) :
    ((∃ t ∈ ts, kind t ≠ .number) → kind ((op.figures mode ts).pick b) ≠ .number) ∧
      ¬ negative ((op.figures mode ts).pick b) := by
  rcases op.pick_figures mode ts b with h | h <;> rw [h]
  · refine ⟨fun hspecial => ?_, rules.correlated_sign⟩
    by_cases hundefined : ∃ t ∈ ts, kind t = .undefined
    · rw [rules.correlated_undefined hundefined]
      decide
    · have hdefined : ∀ t ∈ ts, kind t ≠ .undefined := fun t ht hk => hundefined ⟨t, ht, hk⟩
      obtain ⟨t, ht, hk⟩ := hspecial
      have hinfinite : kind t = .infinite := by
        cases hkind : kind t with
        | number => exact absurd hkind hk
        | infinite => rfl
        | undefined => exact absurd hkind (hdefined t ht)
      rw [rules.correlated_infinite hdefined ⟨t, ht, hinfinite⟩]
      decide
  · exact ⟨rules.uncorrelated_absorbed (P := (· ≠ .number)) rules.hypot_special,
      rules.uncorrelated_sign⟩

end SpecialRules

namespace ExactRules

variable (rules : ExactRules op kind negative)

include rules

/-- Numbers have a number for their sum. -/
theorem correlated_number (h : ∀ t ∈ ts, kind t = .number) :
    kind (op.correlated ts) = .number := by
  by_cases hts : ts = []
  · rw [hts, correlated, List.map_nil, blockedSum_nil, rules.zero.1]
  · exact (op.added_correlated hts).closed (P := fun x => kind x = .number) rules.add_exact
      fun x hx => (rules.forall_mem_abs (P := (· = .number)) h x hx).2

/-- Without an infinite term, one that is no number spoils the hypotenuse. -/
theorem uncorrelated_undefined (hfinite : ∀ t ∈ ts, kind t ≠ .infinite)
    (h : ∃ t ∈ ts, kind t = .undefined) : kind (op.uncorrelated ts) = .undefined := by
  obtain ⟨t, ht, hk⟩ := h
  have hnumber : kind (op.uncorrelated ts) ≠ .number :=
    rules.uncorrelated_absorbed (P := (· ≠ .number)) rules.hypot_special
      ⟨t, ht, by rw [hk]; decide⟩
  have hinfinite : kind (op.uncorrelated ts) ≠ .infinite :=
    rules.uncorrelated_closed (P := (· ≠ .infinite)) (by decide) rules.hypot_undefined hfinite
  cases hkind : kind (op.uncorrelated ts) with
  | number => exact absurd hkind hnumber
  | infinite => exact absurd hkind hinfinite
  | undefined => rfl

/-- Numbers have a number for their hypotenuse. -/
theorem uncorrelated_number (h : ∀ t ∈ ts, kind t = .number) :
    kind (op.uncorrelated ts) = .number :=
  rules.uncorrelated_closed (P := (· = .number)) rfl rules.hypot_exact h

end ExactRules

end Rules

/-! ## Reals with infinities -/

/-- A real number, an infinity or something that is no number. -/
inductive Special where
  /-- no number -/
  | undefined
  /-- an infinity -/
  | infinite (negative : Bool)
  /-- a real number -/
  | real (x : ℝ)

namespace Special

/-- What a special number is. -/
def kind : Special → Kind
  | .undefined => .undefined
  | .infinite _ => .infinite
  | .real _ => .number

/-- Whether a number, or an infinity, is below zero. -/
def Negative : Special → Prop
  | .undefined => False
  | .infinite negative => negative = true
  | .real x => x < 0

/-- The magnitude. -/
noncomputable def abs : Special → Special
  | .undefined => .undefined
  | .infinite _ => .infinite false
  | .real x => .real |x|

open Classical in
/-- The product.  Zero times an infinity has none. -/
noncomputable def mul : Special → Special → Special
  | .undefined, _ => .undefined
  | _, .undefined => .undefined
  | .infinite a, .infinite b => .infinite (a != b)
  | .infinite a, .real y => if y = 0 then .undefined else .infinite (a != decide (y < 0))
  | .real x, .infinite b => if x = 0 then .undefined else .infinite (decide (x < 0) != b)
  | .real x, .real y => .real (x * y)

/-- The sum.  Opposite infinities have none. -/
noncomputable def add : Special → Special → Special
  | .undefined, _ => .undefined
  | _, .undefined => .undefined
  | .infinite a, .infinite b => if a = b then .infinite a else .undefined
  | .infinite a, .real _ => .infinite a
  | .real _, .infinite b => .infinite b
  | .real x, .real y => .real (x + y)

/-- The length of the hypotenuse.  An infinite leg makes it infinite, whatever the other is. -/
noncomputable def hypot : Special → Special → Special
  | .infinite _, _ => .infinite false
  | _, .infinite _ => .infinite false
  | .undefined, _ => .undefined
  | _, .undefined => .undefined
  | .real x, .real y => .real √(x ^ 2 + y ^ 2)

/-- The operations on special numbers. -/
noncomputable def operations : Operations Special := ⟨.real 0, abs, mul, add, hypot⟩

theorem kind_eq_undefined {x : Special} : x.kind = .undefined ↔ x = .undefined := by
  cases x <;> simp [kind]

theorem kind_eq_infinite {x : Special} : x.kind = .infinite ↔ ∃ s, x = .infinite s := by
  cases x <;> simp [kind]

theorem kind_eq_number {x : Special} : x.kind = .number ↔ ∃ r, x = .real r := by
  cases x <;> simp [kind]

/-- Operations without rounding follow the rules, and make no number too large. -/
theorem exactRules : ExactRules operations kind Negative where
  zero := ⟨rfl, lt_irrefl (0 : ℝ)⟩
  abs x := by cases x <;> simp [operations, abs, kind, Negative]
  add_sign x y hx hy := by
    rcases x with _ | a | x <;> rcases y with _ | b | y
    case real.real => exact not_lt.2 (add_nonneg (not_lt.1 hx) (not_lt.1 hy))
    case infinite.infinite => cases a <;> cases b <;> simp_all [operations, add, Negative]
    all_goals first | exact hx | exact hy
  add_undefined x y h := by
    rcases x with _ | a | x <;> rcases y with _ | b | y
    all_goals first | rfl | simp [kind] at h
  add_defined x y hx hy hdx hdy := by
    rcases x with _ | a | x <;> rcases y with _ | b | y
    case infinite.infinite => cases a <;> cases b <;> simp_all [operations, add, kind, Negative]
    all_goals simp_all [operations, add, kind]
  hypot_sign x y := by
    rcases x with _ | a | x <;> rcases y with _ | b | y
    case real.real => exact not_lt.2 (Real.sqrt_nonneg _)
    all_goals simp [operations, hypot, Negative]
  hypot_infinite x y h := by
    rcases x with _ | a | x <;> rcases y with _ | b | y
    all_goals first | rfl | simp [kind] at h
  hypot_special x y h := by
    rcases x with _ | a | x <;> rcases y with _ | b | y
    case real.real => simp [kind] at h
    all_goals simp [operations, hypot, kind]
  hypot_number x y hx hy := by
    rcases x with _ | a | x <;> rcases y with _ | b | y
    all_goals simp_all [operations, hypot, kind]
  add_exact x y hx hy := by
    obtain ⟨x, rfl⟩ := kind_eq_number.1 hx
    obtain ⟨y, rfl⟩ := kind_eq_number.1 hy
    rfl
  hypot_exact x y hx hy := by
    obtain ⟨x, rfl⟩ := kind_eq_number.1 hx
    obtain ⟨y, rfl⟩ := kind_eq_number.1 hy
    rfl
  hypot_undefined x y hx hy := by
    rcases x with _ | a | x <;> rcases y with _ | b | y
    all_goals simp_all [operations, hypot, kind]

end Special

/-! ## Doubles -/

namespace Double

/-- What a double is. -/
def kind : Double → Kind
  | .nan => .undefined
  | .infinite _ => .infinite
  | .finite .. => .number

theorem kind_eq_undefined {x : Double} : x.kind = .undefined ↔ x = .nan := by
  cases x <;> simp [kind]

theorem kind_eq_infinite {x : Double} : x.kind = .infinite ↔ ∃ s, x = .infinite s := by
  cases x <;> simp [kind]

theorem kind_eq_number {x : Double} : x.kind = .number ↔ x.isFinite = true := by
  cases x <;> simp [kind, isFinite]

theorem kind_ofScaled (s : Bool) (n : ℕ) (k : ℤ) : (ofScaled s n k).kind ≠ .undefined := by
  rcases ofScaled_cases s n k with h | h
  · rw [kind_eq_number.2 h]
    decide
  · rw [h, kind]
    decide

theorem kind_hypot {x y : Double} (hx : x.kind ≠ .undefined) (hy : y.kind ≠ .undefined) :
    (x.hypot y).kind ≠ .undefined := by
  rcases x with _ | a | ⟨a, m, e, _⟩ <;> rcases y with _ | b | ⟨b, n, f, _⟩
  case finite.finite =>
    rw [hypot]
    split_ifs
    · simp [zero, kind]
    · exact kind_ofScaled _ _ _
  all_goals simp_all [hypot, kind]

/-- A finite sum is rounded from a scaled whole number, which is not negative if neither term is. -/
theorem add_finite (a b : Bool) {m n : ℕ} {e f : ℤ} (hm : Canonical m e) (hn : Canonical n f) :
    ∃ (z : ℤ) (g : ℤ), (finite a m e hm).add (finite b n f hn) =
        (if z = 0 then zero (a && b) else ofScaled (z < 0) z.natAbs g) ∧
      ((finite a m e hm).isNegative = false → (finite b n f hn).isNegative = false → 0 ≤ z) := by
  -- a term with a sign that is not negative is zero
  have hterm {s : Bool} {k l : ℕ} (h : (s && k != 0) = false) :
      0 ≤ if s then -((k <<< l : ℕ) : ℤ) else ((k <<< l : ℕ) : ℤ) := by
    cases s with
    | false => exact Int.natCast_nonneg _
    | true =>
      have hk : k = 0 := by simpa using h
      simp [hk]
  exact ⟨_, _, rfl, fun ha hb => add_nonneg (hterm ha) (hterm hb)⟩

theorem kind_add_finite (a b : Bool) {m n : ℕ} {e f : ℤ} (hm : Canonical m e)
    (hn : Canonical n f) : ((finite a m e hm).add (finite b n f hn)).kind ≠ .undefined := by
  obtain ⟨z, g, h, -⟩ := add_finite a b hm hn
  rw [h]
  split_ifs
  · simp [zero, kind]
  · exact kind_ofScaled _ _ _

/-- A sum is not negative if neither term is. -/
theorem isNegative_add {x y : Double} (hx : x.isNegative = false) (hy : y.isNegative = false) :
    (x.add y).isNegative = false := by
  rcases x with _ | a | ⟨a, m, e, hm⟩ <;> rcases y with _ | b | ⟨b, n, f, hn⟩
  case infinite.infinite => cases a <;> cases b <;> simp_all [add, isNegative]
  case finite.finite =>
    obtain ⟨z, g, h, hsign⟩ := add_finite a b hm hn
    rw [h, decide_eq_false (not_lt.2 (hsign hx hy))]
    split_ifs
    · exact Bool.and_false _
    · exact isNegative_ofScaled _ _
  all_goals first | rfl | exact hx | exact hy

/-- Operations with rounding follow the rules too. -/
theorem specialRules : SpecialRules doubles kind (·.isNegative = true) where
  zero := by decide
  abs x := by cases x <;> simp [doubles, abs, kind, isNegative]
  add_sign x y hx hy := by
    rw [Bool.not_eq_true] at hx hy ⊢
    exact isNegative_add hx hy
  add_undefined x y h := by
    rcases x with _ | a | ⟨a, m, e, _⟩ <;> rcases y with _ | b | ⟨b, n, f, _⟩
    all_goals first | rfl | simp [kind] at h
  add_defined x y hx hy hdx hdy := by
    rcases x with _ | a | ⟨a, m, e, hm⟩ <;> rcases y with _ | b | ⟨b, n, f, hn⟩
    case infinite.infinite => cases a <;> cases b <;> simp_all [doubles, add, kind, isNegative]
    case finite.finite => exact ⟨kind_add_finite a b hm hn, by simp [kind]⟩
    all_goals simp_all [doubles, add, kind]
  hypot_sign x y := by
    rw [Bool.not_eq_true]
    exact isNegative_hypot x y
  hypot_infinite x y h := by
    rcases x with _ | a | ⟨a, m, e, _⟩ <;> rcases y with _ | b | ⟨b, n, f, _⟩
    all_goals first | rfl | simp [kind] at h
  hypot_special x y h := by
    rcases x with _ | a | ⟨a, m, e, _⟩ <;> rcases y with _ | b | ⟨b, n, f, _⟩
    case finite.finite => simp [kind] at h
    all_goals simp [doubles, hypot, kind]
  hypot_number x y := kind_hypot

end Double

/-! ## The figures of special terms -/

theorem Special.eq_infinity {x : Special} (h : x.kind = .infinite) (hsign : ¬ x.Negative) :
    x = .infinite false := by
  obtain ⟨s, rfl⟩ := kind_eq_infinite.1 h
  cases s with
  | false => rfl
  | true => exact absurd rfl hsign

theorem Special.eq_real {x : Special} (h : x.kind = .number) (hsign : ¬ x.Negative) :
    ∃ r, 0 ≤ r ∧ x = .real r := by
  obtain ⟨r, rfl⟩ := kind_eq_number.1 h
  exact ⟨r, not_lt.1 hsign, rfl⟩

theorem Double.eq_infinity {x : Double} (h : x.kind = .infinite) (hsign : x.isNegative ≠ true) :
    x = .infinite false := by
  obtain ⟨s, rfl⟩ := kind_eq_infinite.1 h
  cases s with
  | false => rfl
  | true => exact absurd rfl hsign

/-- What the figures of special terms are, when nothing is rounded. -/
structure SpecialFigures (ts : List Special) : Prop where
  /-- the correlated figure is no number if a term is none -/
  correlated_undefined : .undefined ∈ ts → Special.operations.correlated ts = .undefined
  /-- otherwise it is infinite if a term is -/
  correlated_infinite : .undefined ∉ ts → (∃ s, .infinite s ∈ ts) →
    Special.operations.correlated ts = .infinite false
  /-- otherwise it is a number -/
  correlated_real : .undefined ∉ ts → (¬ ∃ s, .infinite s ∈ ts) →
    ∃ r, 0 ≤ r ∧ Special.operations.correlated ts = .real r
  /-- the uncorrelated figure is infinite if a term is -/
  uncorrelated_infinite : (∃ s, .infinite s ∈ ts) →
    Special.operations.uncorrelated ts = .infinite false
  /-- otherwise it is no number if a term is none -/
  uncorrelated_undefined : (¬ ∃ s, .infinite s ∈ ts) → .undefined ∈ ts →
    Special.operations.uncorrelated ts = .undefined
  /-- otherwise it is a number -/
  uncorrelated_real : (¬ ∃ s, .infinite s ∈ ts) → .undefined ∉ ts →
    ∃ r, 0 ≤ r ∧ Special.operations.uncorrelated ts = .real r
  /-- no mode loses a term that is no number or infinite -/
  kept : (∃ t ∈ ts, ¬ ∃ r, t = .real r) →
    ∀ mode b, ¬ ∃ r, (Special.operations.figures mode ts).pick b = .real r
  /-- no figure is negative -/
  sign : ∀ mode b, ¬ ((Special.operations.figures mode ts).pick b).Negative

open Special in
theorem specialFigures (ts : List Special) : SpecialFigures ts := by
  have rules := exactRules
  have hundefined : .undefined ∈ ts ↔ ∃ t ∈ ts, t.kind = .undefined := by
    simp [kind_eq_undefined]
  have hinfinite : (∃ s, .infinite s ∈ ts) ↔ ∃ t ∈ ts, t.kind = .infinite := by
    simp only [kind_eq_infinite]
    exact ⟨fun ⟨s, h⟩ => ⟨_, h, s, rfl⟩, fun ⟨_, h, s, hs⟩ => ⟨s, hs ▸ h⟩⟩
  have hnumber (hu : .undefined ∉ ts) (hi : ¬ ∃ s, .infinite s ∈ ts) :
      ∀ t ∈ ts, t.kind = .number := by
    intro t ht
    cases t with
    | undefined => exact absurd ht hu
    | infinite s => exact absurd ⟨s, ht⟩ hi
    | real r => rfl
  refine ⟨fun h => ?_, fun hu hi => ?_, fun hu hi => ?_, fun hi => ?_, fun hi hu => ?_,
    fun hi hu => ?_, fun h mode b => ?_, fun mode b => ?_⟩
  · exact kind_eq_undefined.1 (rules.correlated_undefined (hundefined.1 h))
  · have hdefined : ∀ t ∈ ts, t.kind ≠ .undefined := fun t ht hk => hu (hundefined.2 ⟨t, ht, hk⟩)
    exact eq_infinity (rules.correlated_infinite hdefined (hinfinite.1 hi)) rules.correlated_sign
  · exact eq_real (rules.correlated_number (hnumber hu hi)) rules.correlated_sign
  · exact eq_infinity (rules.uncorrelated_absorbed (P := (· = .infinite)) rules.hypot_infinite
      (hinfinite.1 hi)) rules.uncorrelated_sign
  · have hbounded : ∀ t ∈ ts, t.kind ≠ .infinite := fun t ht hk => hi (hinfinite.2 ⟨t, ht, hk⟩)
    exact kind_eq_undefined.1 (rules.uncorrelated_undefined hbounded (hundefined.1 hu))
  · exact eq_real (rules.uncorrelated_number (hnumber hu hi)) rules.uncorrelated_sign
  · simp only [← kind_eq_number] at h ⊢
    exact (rules.figures mode ts b).1 h
  · exact (rules.figures mode ts b).2

/-- What the figures of special doubles are, whatever is rounded. -/
structure DoubleFigures (ts : List Double) : Prop where
  /-- the correlated figure is no number if a term is none -/
  correlated_nan : .nan ∈ ts → doubles.correlated ts = .nan
  /-- otherwise it is infinite if a term is -/
  correlated_infinite : .nan ∉ ts → (∃ s, .infinite s ∈ ts) →
    doubles.correlated ts = .infinite false
  /-- the uncorrelated figure is infinite if a term is -/
  uncorrelated_infinite : (∃ s, .infinite s ∈ ts) → doubles.uncorrelated ts = .infinite false
  /-- no mode loses a term that is not finite -/
  kept : (∃ t ∈ ts, t.isFinite = false) →
    ∀ mode b, ((doubles.figures mode ts).pick b).isFinite = false
  /-- no figure is negative -/
  sign : ∀ mode b, ((doubles.figures mode ts).pick b).isNegative = false

open Double in
theorem doubleFigures (ts : List Double) : DoubleFigures ts := by
  have rules := specialRules
  have hnan : .nan ∈ ts ↔ ∃ t ∈ ts, t.kind = .undefined := by simp [kind_eq_undefined]
  have hinfinite : (∃ s, .infinite s ∈ ts) ↔ ∃ t ∈ ts, t.kind = .infinite := by
    simp only [kind_eq_infinite]
    exact ⟨fun ⟨s, h⟩ => ⟨_, h, s, rfl⟩, fun ⟨_, h, s, hs⟩ => ⟨s, hs ▸ h⟩⟩
  refine ⟨fun h => ?_, fun hu hi => ?_, fun hi => ?_, fun h mode b => ?_, fun mode b => ?_⟩
  · exact kind_eq_undefined.1 (rules.correlated_undefined (hnan.1 h))
  · have hdefined : ∀ t ∈ ts, t.kind ≠ .undefined := fun t ht hk => hu (hnan.2 ⟨t, ht, hk⟩)
    exact eq_infinity (rules.correlated_infinite hdefined (hinfinite.1 hi)) rules.correlated_sign
  · exact eq_infinity (rules.uncorrelated_absorbed (P := (· = .infinite)) rules.hypot_infinite
      (hinfinite.1 hi)) rules.uncorrelated_sign
  · simp only [← Bool.not_eq_true, ← kind_eq_number] at h ⊢
    exact (rules.figures mode ts b).1 h
  · exact Bool.not_eq_true _ ▸ (rules.figures mode ts b).2

/-- A double without its rounding. -/
def Double.special : Double → Special
  | .nan => .undefined
  | .infinite negative => .infinite negative
  | .finite s m e h => .real ((finite s m e h).value : ℝ)

theorem Double.value_eq_zero_iff (s : Bool) {m : ℕ} {e : ℤ} (h : Canonical m e) :
    ((finite s m e h).value : ℝ) = 0 ↔ m = 0 := by
  have hscale : (2 : ℚ) ^ e ≠ 0 := zpow_ne_zero e two_ne_zero
  rw [Rat.cast_eq_zero, value_finite, mul_eq_zero_iff_right hscale]
  cases s <;> simp

theorem Double.value_neg_iff (s : Bool) {m : ℕ} {e : ℤ} (h : Canonical m e) (hm : m ≠ 0) :
    decide (((finite s m e h).value : ℝ) < 0) = s := by
  have hsign := isNegative_iff (toRat?_of_isFinite (x := finite s m e h) rfl)
  rw [isNegative, bne_iff_ne.2 hm, Bool.and_true] at hsign
  rw [Bool.eq_iff_iff, decide_eq_true_iff, Rat.cast_lt_zero, hsign]

/-- A product of doubles is infinite or no number wherever the product of what they stand for is. -/
theorem Double.special_mul (x y : Double) (h : ¬ ∃ r, x.special.mul y.special = .real r) :
    (x * y).special = x.special.mul y.special := by
  show (x.mul y).special = _
  rcases x with _ | a | ⟨a, m, e, hm⟩ <;> rcases y with _ | b | ⟨b, n, f, hn⟩
  case infinite.finite =>
    rw [mul, special, special, Special.mul]
    by_cases hzero : n = 0
    · rw [if_pos hzero, if_pos ((value_eq_zero_iff b hn).2 hzero), special]
    · rw [if_neg hzero, if_neg (mt (value_eq_zero_iff b hn).1 hzero), value_neg_iff b hn hzero,
        special]
  case finite.infinite =>
    rw [mul, special, special, Special.mul]
    by_cases hzero : m = 0
    · rw [if_pos hzero, if_pos ((value_eq_zero_iff a hm).2 hzero), special]
    · rw [if_neg hzero, if_neg (mt (value_eq_zero_iff a hm).1 hzero), value_neg_iff a hm hzero,
        special]
  case finite.finite => exact absurd ⟨_, rfl⟩ h
  all_goals rfl

/-- **Special contributions.**  Whatever contributions there are, however many and in whatever
order: the figures of special terms are as `SpecialFigures` says.  Where numbers are doubles and
sums are rounded, the terms are special in the same cases, and no special term is lost either. -/
theorem figures_special :
    (∀ cs : List (Special × Special), SpecialFigures (Special.operations.terms cs)) ∧
    (∀ cs : List (Double × Double), DoubleFigures (doubles.terms cs) ∧
      ∀ mode, combine? mode (cs.map fun c => ⟨.float c.1, .float c.2⟩) =
        some (doubles.figures mode (doubles.terms cs))) ∧
    ∀ x y : Double, (¬ ∃ r, x.special.mul y.special = .real r) →
      (x * y).special = x.special.mul y.special :=
  ⟨fun _ => specialFigures _, fun cs => ⟨doubleFigures _, fun mode => combine?_eq_figures mode cs⟩,
    Double.special_mul⟩

/-- Where an infinity meets something that is no number, the two figures differ. -/
theorem figures_special_mixed :
    Special.operations.terms [(.infinite true, .real 2), (.real 0, .infinite false)] =
      [.infinite true, .undefined] ∧
    Special.operations.correlated [.infinite true, .undefined] = .undefined ∧
    Special.operations.uncorrelated [.infinite true, .undefined] = .infinite false := by
  have hterms : Special.operations.terms [(.infinite true, .real 2), (.real 0, .infinite false)] =
      [.infinite true, .undefined] := by
    simp [terms, Special.operations, Special.mul]
  have hfigures := figures_special.1 [(.infinite true, .real 2), (.real 0, .infinite false)]
  rw [hterms] at hfigures
  exact ⟨hterms, hfigures.correlated_undefined (by simp),
    hfigures.uncorrelated_infinite ⟨true, by simp⟩⟩

end ErrorBars
