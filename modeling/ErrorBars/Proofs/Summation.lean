import ErrorBars.Correlation
import ErrorBars.Proofs.Doubles
import Mathlib.Algebra.BigOperators.Group.Multiset.Basic
import Mathlib.Algebra.Order.BigOperators.Group.List
import Mathlib.Data.Multiset.AddSub
import Mathlib.Tactic.Abel

/-!
# Sums in blocks

The correlated figure is a sum of magnitudes, added up in an order that depends on how many there
are: from left to right, in eight running sums, or in two parts that are summed alike.  What this
comes to is said for an arbitrary addition, rounding or not.

* `Added add s x` — the terms of `s` have been added two at a time, each of them once, and have come
  to `x`.  Every blocked sum is of this kind (`added_blockedSum`), so no term is dropped at the edge
  of a block and none is counted twice.
* An addition that is commutative and associative cannot tell such sums apart
  (`Added.eq_sum`), so that the blocked sum is the plain one (`blockedSum_eq_sum`).
* Doubles are added exactly as long as no addition on the way is rounded (`Unrounded`); then the
  figure has the sum of the magnitudes as its value.

The magnitudes do not know the signs of the derivatives (`terms?_unsigned`).
-/

set_option autoImplicit false

namespace ErrorBars

variable {α β : Type} {add : α → α → α} {zero : α}

/-! ## Every term once -/

/-- The terms have been added two at a time, each of them once, and have come to this. -/
inductive Added (add : α → α → α) : Multiset α → α → Prop where
  /-- a term by itself -/
  | term (x : α) : Added add {x} x
  /-- two sums of different terms -/
  | add {s t : Multiset α} {x y : α} (left : Added add s x) (right : Added add t y) :
      Added add (s + t) (add x y)

theorem Added.of_eq {s t : Multiset α} {x : α} (h : Added add s x) (hs : s = t) : Added add t x :=
  hs ▸ h

theorem Added.foldl {s : Multiset α} {x : α} (h : Added add s x) (xs : List α) :
    Added add (s + (xs : Multiset α)) (xs.foldl add x) := by
  induction xs generalizing s x with
  | nil => exact h.of_eq (add_zero s).symm
  | cons y ys ih =>
    refine (ih (h.add (.term y))).of_eq ?_
    rw [← Multiset.cons_coe, ← Multiset.singleton_add, add_assoc]

theorem added_plainSum {xs : List α} (h : xs ≠ []) : Added add xs (plainSum add zero xs) := by
  cases xs with
  | nil => exact absurd rfl h
  | cons x xs => exact (Added.term x).foldl xs

namespace EightSums

/-- Eight running sums have together taken in these terms. -/
def Hold (add : α → α → α) (s : EightSums α) (ts : Multiset α) : Prop :=
  ∃ t0 t1 t2 t3 t4 t5 t6 t7, Added add t0 s.s0 ∧ Added add t1 s.s1 ∧ Added add t2 s.s2 ∧
    Added add t3 s.s3 ∧ Added add t4 s.s4 ∧ Added add t5 s.s5 ∧ Added add t6 s.s6 ∧
    Added add t7 s.s7 ∧ ts = t0 + t1 + t2 + t3 + t4 + t5 + t6 + t7

theorem hold_first (a b c d e f g h : α) :
    Hold add ⟨a, b, c, d, e, f, g, h⟩ ({a, b, c, d, e, f, g, h} : Multiset α) := by
  refine ⟨_, _, _, _, _, _, _, _, .term a, .term b, .term c, .term d, .term e, .term f, .term g,
    .term h, ?_⟩
  simp only [Multiset.insert_eq_cons, ← Multiset.singleton_add, add_assoc]

theorem Hold.next {s : EightSums α} {ts : Multiset α} (hs : s.Hold add ts) (a b c d e f g h : α) :
    Hold add ⟨add s.s0 a, add s.s1 b, add s.s2 c, add s.s3 d, add s.s4 e, add s.s5 f, add s.s6 g,
      add s.s7 h⟩ (ts + {a, b, c, d, e, f, g, h}) := by
  obtain ⟨t0, t1, t2, t3, t4, t5, t6, t7, h0, h1, h2, h3, h4, h5, h6, h7, rfl⟩ := hs
  refine ⟨_, _, _, _, _, _, _, _, h0.add (.term a), h1.add (.term b), h2.add (.term c),
    h3.add (.term d), h4.add (.term e), h5.add (.term f), h6.add (.term g), h7.add (.term h), ?_⟩
  simp only [Multiset.insert_eq_cons, ← Multiset.singleton_add]
  abel

theorem Hold.total {s : EightSums α} {ts : Multiset α} (hs : s.Hold add ts) :
    Added add ts (s.total add) := by
  obtain ⟨t0, t1, t2, t3, t4, t5, t6, t7, h0, h1, h2, h3, h4, h5, h6, h7, rfl⟩ := hs
  refine Added.of_eq (((h0.add h1).add (h2.add h3)).add ((h4.add h5).add (h6.add h7))) ?_
  abel

theorem Hold.run {s : EightSums α} {ts : Multiset α} (hs : s.Hold add ts) (xs : List α) :
    Added add (ts + (xs : Multiset α)) (run add s xs) := by
  fun_induction EightSums.run add s xs generalizing ts with
  | case1 s a b c d e f g h rest ih =>
    refine (ih (hs.next a b c d e f g h)).of_eq ?_
    simp only [Multiset.insert_eq_cons, ← Multiset.cons_coe, ← Multiset.singleton_add, add_assoc]
  | case2 s rest => exact hs.total.foldl rest

end EightSums

theorem added_blockSum {xs : List α} (h : xs ≠ []) : Added add xs (blockSum add zero xs) := by
  unfold blockSum
  split
  · rename_i a b c d e f g k rest
    refine ((EightSums.hold_first a b c d e f g k).run rest).of_eq ?_
    simp only [Multiset.insert_eq_cons, ← Multiset.cons_coe, ← Multiset.singleton_add, add_assoc]
  · exact added_plainSum h

/-- Two parts of a long list, both of them shorter and neither of them empty. -/
theorem length_halves {xs : List α} (h : 128 < xs.length) :
    (0 < (xs.take (splitPoint xs.length)).length ∧
      (xs.take (splitPoint xs.length)).length < xs.length) ∧
    0 < (xs.drop (splitPoint xs.length)).length ∧
      (xs.drop (splitPoint xs.length)).length < xs.length := by
  have hlt := splitPoint_lt h
  have hpos := splitPoint_pos h
  rw [List.length_take, List.length_drop]
  omega

/-- **A blocked sum adds every term once**, whatever the addition does. -/
theorem added_blockedSum {xs : List α} (h : xs ≠ []) : Added add xs (blockedSum add zero xs) := by
  fun_induction blockedSum add zero xs with
  | case1 xs hlong left right =>
    obtain ⟨⟨htake, -⟩, hdrop, -⟩ := length_halves hlong
    refine ((left (List.ne_nil_of_length_pos htake)).add
      (right (List.ne_nil_of_length_pos hdrop))).of_eq ?_
    rw [Multiset.coe_add, List.take_append_drop]
  | case2 xs hshort => exact added_blockSum h

theorem blockSum_of_length_lt {xs : List α} (h : xs.length < 8) :
    blockSum add zero xs = plainSum add zero xs := by
  unfold blockSum
  split
  · simp only [List.length_cons] at h
    omega
  · rfl

theorem blockedSum_nil : blockedSum add zero [] = zero := by
  rw [blockedSum, dif_neg (by simp), blockSum_of_length_lt (by simp), plainSum]

/-! ## Additions that do not round -/

section Exact

variable {M : Type} [AddCommMonoid M]

theorem Added.eq_sum {s : Multiset M} {x : M} (h : Added (· + ·) s x) : x = s.sum := by
  induction h with
  | term x => rw [Multiset.sum_singleton]
  | add _ _ left right => rw [Multiset.sum_add, ← left, ← right]

/-- **The blocked sum of an addition that does not round** is the plain one. -/
theorem blockedSum_eq_sum (xs : List M) : blockedSum (· + ·) 0 xs = xs.sum := by
  by_cases h : xs = []
  · rw [h, blockedSum_nil, List.sum_nil]
  · rw [(added_blockedSum h).eq_sum, Multiset.sum_coe]

end Exact

/-! ## Additions side by side -/

section Map

theorem exists_eight {xs : List α} (h : ¬ xs.length < 8) :
    ∃ a b c d e f g k rest, xs = a :: b :: c :: d :: e :: f :: g :: k :: rest := by
  rcases xs with _ | ⟨a, _ | ⟨b, _ | ⟨c, _ | ⟨d, _ | ⟨e, _ | ⟨f, _ | ⟨g, _ | ⟨k, rest⟩⟩⟩⟩⟩⟩⟩⟩
  case cons.cons.cons.cons.cons.cons.cons.cons => exact ⟨a, b, c, d, e, f, g, k, rest, rfl⟩
  all_goals simp at h

theorem length_lt_eight {xs : List α}
    (h : ∀ a b c d e f g k rest, xs = a :: b :: c :: d :: e :: f :: g :: k :: rest → False) :
    xs.length < 8 := by
  by_contra hlong
  obtain ⟨a, b, c, d, e, f, g, k, rest, hxs⟩ := exists_eight hlong
  exact h a b c d e f g k rest hxs

theorem EightSums.run_of_length_lt {s : EightSums α} {xs : List α} (h : xs.length < 8) :
    run add s xs = xs.foldl add (s.total add) := by
  unfold run
  split
  · simp only [List.length_cons] at h
    omega
  · rfl

variable {add' : β → β → β} {zero' : β} {f : α → β}

theorem map_foldl (hadd : ∀ x y, f (add x y) = add' (f x) (f y)) (x : α) (xs : List α) :
    f (xs.foldl add x) = (xs.map f).foldl add' (f x) := by
  induction xs generalizing x with
  | nil => rfl
  | cons y ys ih => rw [List.foldl_cons, ih, hadd, List.map_cons, List.foldl_cons]

theorem EightSums.map_run (hadd : ∀ x y, f (add x y) = add' (f x) (f y)) (s : EightSums α)
    (xs : List α) : f (run add s xs) =
      run add' ⟨f s.s0, f s.s1, f s.s2, f s.s3, f s.s4, f s.s5, f s.s6, f s.s7⟩ (xs.map f) := by
  fun_induction EightSums.run add s xs with
  | case1 s a b c d e f g h rest ih => simp only [ih, List.map_cons, EightSums.run, hadd]
  | case2 s rest hshort =>
    rw [run_of_length_lt (by rw [List.length_map]; exact length_lt_eight hshort),
      map_foldl hadd]
    simp only [total, hadd]

theorem map_blockSum (hadd : ∀ x y, f (add x y) = add' (f x) (f y)) (hzero : f zero = zero')
    (xs : List α) : f (blockSum add zero xs) = blockSum add' zero' (xs.map f) := by
  by_cases h : xs.length < 8
  · rw [blockSum_of_length_lt h, blockSum_of_length_lt (by rwa [List.length_map])]
    cases xs with
    | nil => exact hzero
    | cons x xs => exact map_foldl hadd x xs
  · obtain ⟨a, b, c, d, e, g, k, m, rest, rfl⟩ := exists_eight h
    exact EightSums.map_run hadd _ rest

/-- Where a function respects the additions, it respects blocked sums. -/
theorem map_blockedSum (hadd : ∀ x y, f (add x y) = add' (f x) (f y)) (hzero : f zero = zero')
    (xs : List α) : f (blockedSum add zero xs) = blockedSum add' zero' (xs.map f) := by
  fun_induction blockedSum add zero xs with
  | case1 xs hlong left right =>
    rw [hadd, left, right, blockedSum.eq_1 add' zero' (xs.map f), dif_pos (by rwa [List.length_map]),
      List.length_map, List.map_take, List.map_drop]
  | case2 xs hshort =>
    rw [blockedSum, dif_neg (by rwa [List.length_map]), map_blockSum hadd hzero]

end Map

/-! ## Exact additions of doubles -/

namespace Double

/-- A double to be added up, and whether all is exact so far: it is finite. -/
def counted (x : Double) : Double × Bool := (x, x.isFinite)

/-- The sum of two doubles, and whether all is exact so far: nothing was rounded in it. -/
def addCounted (x y : Double × Bool) : Double × Bool :=
  (x.1.add y.1, x.2 && y.2 && (x.1.add y.1).toRat? == some (x.1.value + y.1.value))

end Double

open Double

/-- All terms are finite, and none of the additions of their blocked sum is rounded. -/
def Unrounded (xs : List Double) : Prop :=
  (blockedSum addCounted (counted (Double.zero false)) (xs.map counted)).2 = true

instance (xs : List Double) : Decidable (Unrounded xs) :=
  inferInstanceAs (Decidable (_ = true))

theorem toRat?_of_added {s : Multiset (Double × Bool)} {p : Double × Bool}
    (h : Added addCounted s p) (hs : ∀ x ∈ s, x.2 = true → x.1.isFinite = true)
    (hp : p.2 = true) : p.1.toRat? = some (s.map fun x => x.1.value).sum := by
  induction h with
  | term x =>
    rw [toRat?_of_isFinite (hs x (Multiset.mem_singleton_self x) hp), Multiset.map_singleton,
      Multiset.sum_singleton]
  | @add s t x y _ _ left right =>
    simp only [addCounted, Bool.and_eq_true, beq_iff_eq] at hp
    obtain ⟨⟨hx, hy⟩, hsum⟩ := hp
    have hleft := left (fun z hz => hs z (Multiset.mem_add.2 (.inl hz))) hx
    have hright := right (fun z hz => hs z (Multiset.mem_add.2 (.inr hz))) hy
    rw [addCounted, hsum, Multiset.map_add, Multiset.sum_add, value, hleft, value, hright,
      Option.getD_some, Option.getD_some]

/-- **Doubles that are added without rounding** come to the sum of their values. -/
theorem toRat?_blockedSum {xs : List Double} (h : Unrounded xs) :
    (blockedSum Double.add (Double.zero false) xs).toRat? = some (xs.map value).sum := by
  by_cases hxs : xs = []
  · rw [hxs, blockedSum_nil, toRat?_zero, List.map_nil, List.sum_nil]
  · have hadded : Added addCounted (xs.map counted)
        (blockedSum addCounted (counted (Double.zero false)) (xs.map counted)) :=
      added_blockedSum (by rwa [ne_eq, List.map_eq_nil_iff])
    have hvalue := toRat?_of_added hadded ?_ h
    · have hfirst : (blockedSum addCounted (counted (Double.zero false)) (xs.map counted)).1 =
          blockedSum Double.add (Double.zero false) ((xs.map counted).map Prod.fst) :=
        map_blockedSum (fun _ _ => rfl) rfl _
      rw [List.map_map, show Prod.fst ∘ counted = id from rfl, List.map_id] at hfirst
      rw [← hfirst, hvalue, Multiset.map_coe, Multiset.sum_coe, List.map_map]
      rfl
    · intro p hp
      obtain ⟨x, -, rfl⟩ := List.mem_map.1 (Multiset.mem_coe.1 hp)
      exact id

end ErrorBars
