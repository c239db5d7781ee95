import ErrorBars.Expr.Canonical.Sum
import ErrorBars.Proofs.Exact.Arith

/-!
# Canonical sums keep values

A sum is gathered term by term: a number, and for every other term the number in front of it.
`SumState.Gathers` says what has been gathered so far in terms of values.  Every term that is taken
in adds its value (`Gathers.take`), however deeply sums are nested, and in the end the sum that is
written down has the value that has been gathered (`Gathers.finish`).
-/

set_option autoImplicit false

namespace ErrorBars

open Expr

variable {R : Type} [CommRing R] [Algebra ℚ R] {A : Arith} {env : String → R}

theorem Expr.sortArgs_perm (es : List Expr) : (sortArgs es).Perm es := List.mergeSort_perm _ _

theorem Expr.sortArgs_nil : sortArgs [] = [] := List.mergeSort_nil

theorem Canonical.boundsSum?_eq_none {A : Arith} {a b : Expr} (ha : Defined env a)
    (hb : Defined env b) : boundsSum? A a b = none := by
  rw [boundsSum?, ha.ends, hb.ends]

namespace Canonical.SumState

/-- A term that has been gathered: a number and something that is none. -/
def IsTerm (env : String → R) (p : Expr × Expr) : Prop :=
  Defined env p.1 ∧ p.1.isNumber = false ∧ ∃ q : ℚ, p.2 = .rat q

/-- The value of the terms that have been gathered. -/
noncomputable def termsValue (env : String → R) (ps : List (Expr × Expr)) : R :=
  (ps.map fun p => value env p.2 * value env p.1).sum

theorem termsValue_cons (p : Expr × Expr) (ps : List (Expr × Expr)) :
    termsValue env (p :: ps) = value env p.2 * value env p.1 + termsValue env ps := rfl

/-- What has been gathered has a value. -/
structure Gathers (env : String → R) (s : SumState) (r : R) : Prop where
  /-- the number is rational -/
  coeff : ∃ c : ℚ, s.coeff = .rat c
  /-- the terms have numbers in front -/
  terms : ∀ p ∈ s.terms, IsTerm env p
  /-- the sum has a value -/
  undefined : s.undefined = false
  /-- that value -/
  value_eq : value env s.coeff + termsValue env s.terms = r

variable {s : SumState} {r : R} {q : ℚ} {e t : Expr}

theorem gathers_empty : Gathers env empty 0 where
  coeff := ⟨0, rfl⟩
  terms p hp := absurd hp List.not_mem_nil
  undefined := rfl
  value_eq := by
    show value env zero + 0 = 0
    rw [value_zero, add_zero]

/-- Numbers are added up. -/
theorem addNumber_rat {c : ℚ} (hc : s.coeff = .rat c) :
    s.addNumber A (.rat q) = { s with coeff := .rat (c + q) } := by
  obtain ⟨coeff, terms, undefined⟩ := s
  obtain rfl : coeff = .rat c := hc
  rfl

theorem Gathers.addNumber (h : Gathers env s r) :
    Gathers env (s.addNumber A (.rat q)) (r + algebraMap ℚ R q) := by
  obtain ⟨c, hc⟩ := h.coeff
  rw [addNumber_rat hc]
  refine ⟨⟨c + q, rfl⟩, h.terms, h.undefined, ?_⟩
  rw [← h.value_eq, hc, value_rat, value_rat, map_add]
  ring

theorem bump_eq_some {ps qs : List (Expr × Expr)} (h : bump (.rat q) t ps = some qs)
    (hps : ∀ p ∈ ps, IsTerm env p) : (∀ p ∈ qs, IsTerm env p) ∧
      termsValue env qs = termsValue env ps + algebraMap ℚ R q * value env t := by
  induction ps generalizing qs with
  | nil => cases h
  | cons p ps ih =>
    obtain ⟨hp, hrest⟩ := List.forall_mem_cons.1 hps
    obtain ⟨u, m⟩ := p
    obtain ⟨hu, hn, d, hm⟩ := hp
    obtain rfl : m = .rat d := hm
    rw [bump] at h
    split at h
    · rename_i hut
      rw [← Option.some.inj h, ← beq_iff_eq.1 hut]
      refine ⟨List.forall_mem_cons.2 ⟨⟨hu, hn, d + q, rfl⟩, hrest⟩, ?_⟩
      rw [termsValue_cons, termsValue_cons]
      show value env (.rat (d + q)) * _ + _ = value env (.rat d) * _ + _ + _
      rw [value_rat, value_rat, map_add]
      ring
    · obtain ⟨qs, hqs, rfl⟩ := Option.map_eq_some_iff.1 h
      obtain ⟨hmem, hv⟩ := ih hqs hrest
      refine ⟨List.forall_mem_cons.2 ⟨⟨hu, hn, d, rfl⟩, hmem⟩, ?_⟩
      rw [termsValue_cons, termsValue_cons, hv, add_assoc]

theorem Gathers.addTerm (h : Gathers env s r) (ht : Defined env t) (hn : t.isNumber = false) :
    Gathers env (s.addTerm (.rat q) t) (r + algebraMap ℚ R q * value env t) := by
  rw [SumState.addTerm]
  split
  · rename_i terms hbump
    obtain ⟨hterms, hv⟩ := bump_eq_some hbump h.terms
    refine ⟨h.coeff, hterms, ?_, ?_⟩
    · rw [h.undefined, Bool.false_or]
      refine List.any_eq_false.2 fun p hp => ?_
      obtain ⟨_, _, d, hd⟩ := hterms p hp
      rw [hd]
      exact Bool.not_eq_true _ ▸ rfl
    · rw [← h.value_eq, hv, add_assoc]
  · refine ⟨h.coeff, List.forall_mem_cons.2 ⟨⟨ht, hn, q, rfl⟩, h.terms⟩, h.undefined, ?_⟩
    rw [← h.value_eq]
    rw [termsValue_cons, value_rat]
    ring

theorem foldl_take {fuel : Nat} {ts : List Expr}
    (ih : ∀ {s r e}, Gathers env s r → Defined env e →
      Gathers env (take A fuel s e) (r + value env e))
    (h : Gathers env s r) (hts : ∀ t ∈ ts, Defined env t) :
    Gathers env (ts.foldl (take A fuel) s) (r + (ts.map (value env)).sum) := by
  induction ts generalizing s r with
  | nil =>
    rw [List.map_nil, List.sum_nil, add_zero]
    exact h
  | cons t ts hrec =>
    obtain ⟨ht, hts⟩ := List.forall_mem_cons.1 hts
    rw [List.map_cons, List.sum_cons, ← add_assoc]
    exact hrec (ih h ht) hts

/-- **Every term adds its value**, to whatever depth sums are opened. -/
theorem Gathers.take {fuel : Nat} (h : Gathers env s r) (he : Defined env e) :
    Gathers env (SumState.take A fuel s e) (r + value env e) := by
  induction fuel generalizing s r e with
  | zero =>
    rw [SumState.take]
    split
    · rename_i hn
      obtain ⟨q, rfl⟩ := he.eq_rat hn
      rw [value_rat]
      exact h.addNumber
    · rename_i hn
      have hadd := h.addTerm (q := 1) he (Bool.not_eq_true _ ▸ hn)
      rwa [map_one, one_mul] at hadd
  | succ fuel ih =>
    have hone : ∀ {t}, Defined env t → t.isNumber = false →
        Gathers env (s.addTerm one t) (r + value env t) := fun ht hn => by
      have hadd := h.addTerm (q := 1) ht hn
      rwa [map_one, one_mul] at hadd
    cases he with
    | rat q =>
      rw [value_rat]
      exact h.addNumber
    | symbol x => exact hone (.symbol x) rfl
    | add ts all =>
      rw [value_add]
      exact foldl_take ih h all
    | mul fs all flat sym =>
      obtain ⟨q, m, hqm, hm, hv, -, hn⟩ := (Defined.mul fs all flat sym).coeffMul
      rw [hv]
      have heq : SumState.take A (fuel + 1) s (.app .mul fs) = s.addTerm (.rat q) m := by
        show s.addTerm (Expr.app .mul fs).coeffMul.1 (Expr.app .mul fs).coeffMul.2 = _
        rw [hqm]
      rw [heq]
      exact h.addTerm hm (hn rfl)
    | pow b n base kind ne_zero ne_one regular =>
      have heq : SumState.take A (fuel + 1) s (.app .pow [b, .rat n]) =
          s.addTerm one (.app .pow [b, .rat n]) := by
        obtain ⟨s, rfl⟩ | ⟨ts, rfl⟩ := cases_of_isBase kind <;> rfl
      rw [heq]
      exact hone (.pow b n base kind ne_zero ne_one regular) rfl

/-! ## Writing the sum down -/

/-- A term is written with its number in front, unless that is zero. -/
theorem term?_cases (hA : A.Exact env) {p : Expr × Expr} (h : IsTerm env p) :
    (term? A p = none ∧ value env p.2 * value env p.1 = 0) ∨
      ∃ t, term? A p = some t ∧ Denotes env t (value env p.2 * value env p.1) ∧
        t.isNumber = false := by
  obtain ⟨u, m⟩ := p
  obtain ⟨hu, hn, q, hm⟩ := h
  obtain rfl : m = .rat q := hm
  change Defined env u at hu
  change u.isNumber = false at hn
  by_cases h0 : q = 0
  · refine .inl ⟨?_, ?_⟩
    · rw [h0]
      rfl
    · show value env (.rat q) * value env u = 0
      rw [h0, value_rat, map_zero, zero_mul]
  · right
    have hzero : (Expr.rat q).isZero = false := beq_eq_false_iff_ne.2 h0
    by_cases h1 : q = 1
    · refine ⟨u, ?_, hu.denotes.of_eq (by rw [h1]; simp), hn⟩
      rw [h1]
      rfl
    · have hone : (Expr.rat q == one) = false := by
        rw [beq_eq_false_iff_ne]
        exact fun h => h1 (Expr.rat.inj h)
      have hsingle : u.isMul = false → Denotes env (rawMul [.rat q, u])
          (algebraMap ℚ R q * value env u) := fun hm =>
        denotes_rat_rawMul_single hu hm hn q
      have hpower : u.isMul = false → u.isAdd = false → A.mul (.rat q) u = rawMul [.rat q, u] := by
        intro hm ha
        rcases hu.factor_cases hm with ⟨p, rfl⟩ | ⟨b, n, hb, hbase, hn0, -, rfl⟩
        · cases hn
        · exact hA.product_coeff h0 h1 hb hbase hn0 ha
      rw [term?.eq_def]
      simp only [hzero, hone, Bool.false_eq_true, if_false]
      cases hu with
      | rat => cases hn
      | mul fs all flat sym =>
        refine ⟨rawMul (.rat q :: fs), rfl, ?_, rfl⟩
        rw [value_mul]
        exact denotes_rat_rawMul (fun f hf => ⟨all f hf, flat f hf⟩) sym q
      | add ts all sym => exact ⟨_, rfl, hsingle rfl, rfl⟩
      | symbol x => exact ⟨_, congrArg some (hpower rfl rfl), hsingle rfl, rfl⟩
      | pow b n => exact ⟨_, congrArg some (hpower rfl rfl), hsingle rfl, rfl⟩

theorem filterMap_term? (hA : A.Exact env) {ps : List (Expr × Expr)}
    (h : ∀ p ∈ ps, IsTerm env p) :
    (∀ t ∈ ps.filterMap (term? A), Defined env t ∧ t.isNumber = false) ∧
      ((ps.filterMap (term? A)).map (value env)).sum = termsValue env ps := by
  induction ps with
  | nil => exact ⟨fun t ht => absurd ht List.not_mem_nil, rfl⟩
  | cons p ps ih =>
    obtain ⟨hp, hps⟩ := List.forall_mem_cons.1 h
    obtain ⟨hmem, hv⟩ := ih hps
    rw [termsValue_cons]
    rcases term?_cases hA hp with ⟨hnone, hzero⟩ | ⟨t, hsome, ht, hn⟩
    · rw [List.filterMap_cons_none hnone, hzero, zero_add]
      exact ⟨hmem, hv⟩
    · rw [List.filterMap_cons_some hsome, List.map_cons, List.sum_cons, hv, ht.value_eq]
      exact ⟨List.forall_mem_cons.2 ⟨⟨ht.defined, hn⟩, hmem⟩, rfl⟩

/-- **What is written down has the value that has been gathered.** -/
theorem Gathers.finish (hA : A.Exact env) (h : Gathers env s r) : Denotes env (s.finish A) r := by
  obtain ⟨c, hc⟩ := h.coeff
  have hterms : ∀ p ∈ s.terms.reverse, IsTerm env p := fun p hp =>
    h.terms p (List.mem_reverse.1 hp)
  obtain ⟨hmem, hv⟩ := filterMap_term? hA hterms
  have hperm := sortArgs_perm (s.terms.reverse.filterMap (term? A))
  generalize hsorted : sortArgs (s.terms.reverse.filterMap (term? A)) = sorted at hperm
  have hdefined : ∀ t ∈ sorted, Defined env t ∧ t.isNumber = false := fun t ht =>
    hmem t (hperm.mem_iff.1 ht)
  have hsum : (sorted.map (value env)).sum = termsValue env s.terms := by
    rw [(hperm.map _).sum_eq, hv, termsValue, List.map_reverse, List.sum_reverse, termsValue]
  have hsymbolic : sorted ≠ [] → Symbolic sorted := fun hne => by
    obtain ⟨t, ht⟩ := List.exists_mem_of_ne_nil _ hne
    exact ⟨t, ht, (hdefined t ht).2⟩
  have heq : s.finish A = sumOf (if Expr.rat c == zero then sorted else .rat c :: sorted) := by
    rw [SumState.finish, h.undefined, hc, ← hsorted]
    rfl
  rw [heq, ← h.value_eq, hc, value_rat, ← hsum]
  by_cases hnil : sorted = []
  · rw [hnil, List.map_nil, List.sum_nil, add_zero]
    split
    · rename_i h0
      rw [Expr.rat.inj (beq_iff_eq.1 h0), map_zero]
      exact denotes_zero
    · exact denotes_rat c
  · split
    · rename_i h0
      rw [Expr.rat.inj (beq_iff_eq.1 h0), map_zero, zero_add]
      exact denotes_sumOf (fun t ht => (hdefined t ht).1) (.inl (hsymbolic hnil))
    · have hall : ∀ t ∈ .rat c :: sorted, Defined env t :=
        List.forall_mem_cons.2 ⟨.rat c, fun t ht => (hdefined t ht).1⟩
      refine (denotes_sumOf hall (.inl ((hsymbolic hnil).cons _))).of_eq ?_
      rw [List.map_cons, List.sum_cons, value_rat]

end Canonical.SumState

namespace Canonical

variable {es : List Expr}

theorem sum_filter_zero (env : String → R) (es : List Expr) :
    ((es.filter fun e => !(e == zero)).map (value env)).sum = (es.map (value env)).sum := by
  induction es with
  | nil => rfl
  | cons e es ih =>
    rw [List.map_cons, List.sum_cons, ← ih]
    by_cases he : e == zero
    · rw [List.filter_cons_of_neg (by simp [he]), beq_iff_eq.1 he, value_zero, zero_add]
    · rw [List.filter_cons_of_pos (by simp [he]), List.map_cons, List.sum_cons]

/-- **A canonical sum has the sum of the values.** -/
theorem denotes_sum (hA : A.Exact env) (h : ∀ e ∈ es, Defined env e) :
    Denotes env (sum A es) (es.map (value env)).sum := by
  have hfilter : ∀ e ∈ es.filter fun e => !(e == zero), Defined env e := fun e he =>
    h e (List.mem_of_mem_filter he)
  rw [sum, ← sum_filter_zero]
  generalize es.filter (fun e => !(e == zero)) = fs at hfilter
  have hgeneral : Denotes env ((fs.foldl (SumState.take A openingDepth) SumState.empty).finish A)
      (fs.map (value env)).sum := by
    have htake : ∀ {s r e}, SumState.Gathers env s r → Defined env e →
        SumState.Gathers env (SumState.take A openingDepth s e) (r + value env e) :=
      fun hs he => hs.take he
    have hfold := SumState.foldl_take htake SumState.gathers_empty hfilter
    rw [zero_add] at hfold
    exact hfold.finish hA
  have hraw : (∃ e ∈ fs, e.isNumber = false) → Denotes env (rawAdd fs) (fs.map (value env)).sum :=
    denotes_rawAdd hfilter
  split
  · exact denotes_zero
  · rename_i e
    rw [List.map_singleton, List.sum_singleton]
    exact (hfilter e (List.mem_singleton.2 rfl)).denotes
  · exact hraw ⟨_, List.mem_cons_of_mem _ (List.mem_singleton.2 rfl), rfl⟩
  · refine (denotes_rawAdd ?_ ?_).of_eq ?_
    · exact fun t ht => hfilter t (by simpa [or_comm] using ht)
    · exact ⟨_, List.mem_cons_of_mem _ (List.mem_singleton.2 rfl), rfl⟩
    · exact ((List.Perm.swap _ _ _).map _).sum_eq
  · split
    · rename_i a b _ _ _ _
      rw [boundsSum?_eq_none (hfilter a (by simp)) (hfilter b (by simp))]
      exact hgeneral
    · exact hgeneral

theorem foldl_take_rat (c : ℚ) (qs : List ℚ) :
    (qs.map Expr.rat).foldl (SumState.take A openingDepth) ⟨.rat c, [], false⟩ =
      ⟨.rat (c + qs.sum), [], false⟩ := by
  induction qs generalizing c with
  | nil => rw [List.sum_nil, add_zero]; rfl
  | cons q qs ih =>
    rw [List.sum_cons, ← add_assoc, ← ih]
    rfl

theorem map_rat_filter (qs : List ℚ) :
    (qs.map Expr.rat).filter (fun e => !(e == zero)) =
      (qs.filter fun q => !(q == 0)).map Expr.rat := by
  induction qs with
  | nil => rfl
  | cons q qs ih =>
    rw [List.map_cons]
    by_cases h0 : q = 0
    · rw [h0]
      exact ih
    · have hq : (q == 0) = false := beq_eq_false_iff_ne.2 h0
      have he : (Expr.rat q == zero) = false :=
        beq_eq_false_iff_ne.2 fun h => h0 (Expr.rat.inj h)
      rw [List.filter_cons_of_pos (by simp [he]), List.filter_cons_of_pos (by simp [hq]), ih,
        List.map_cons]

/-- A canonical sum of numbers is a number. -/
theorem sum_rat (qs : List ℚ) : sum A (qs.map .rat) = .rat qs.sum := by
  have hsum : (qs.filter fun q => !(q == 0)).sum = qs.sum := by
    induction qs with
    | nil => rfl
    | cons q qs ih =>
      by_cases h0 : q = 0
      · rw [List.filter_cons_of_neg (by simp [h0]), ih, h0, List.sum_cons, zero_add]
      · rw [List.filter_cons_of_pos (by simp [h0]), List.sum_cons, List.sum_cons, ih]
  rw [sum, map_rat_filter, ← hsum]
  generalize qs.filter (fun q => !(q == 0)) = ps
  have hgeneral : (((ps.map Expr.rat).foldl (SumState.take A openingDepth) SumState.empty).finish A)
      = .rat ps.sum := by
    rw [show SumState.empty = ⟨.rat 0, [], false⟩ from rfl, foldl_take_rat, zero_add]
    have heq : SumState.finish A ⟨.rat ps.sum, [], false⟩ =
        sumOf (if Expr.rat ps.sum == zero then sortArgs [] else .rat ps.sum :: sortArgs []) := rfl
    rw [heq, sortArgs_nil]
    split
    · rename_i h0
      rw [beq_iff_eq.1 h0]
      rfl
    · rfl
  match ps, hgeneral with
  | [], _ => rfl
  | [p], _ => rw [List.sum_singleton]; rfl
  | [p, q], hgeneral => exact hgeneral
  | _ :: _ :: _ :: _, hgeneral => exact hgeneral

end Canonical

end ErrorBars
