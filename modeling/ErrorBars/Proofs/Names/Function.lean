import ErrorBars.Expr.Canonical
import ErrorBars.Proofs.Names.Hyperbolic
import ErrorBars.Proofs.Names.Parts
import ErrorBars.Proofs.Names.Power
import ErrorBars.Proofs.Names.Product

/-!
# Functions are over the variables of their arguments

The exponential and the logarithm come first: what the exponential of a sum takes out and what it
keeps, and the absolute value and the angle that a logarithm is split into.  Then there are extremes
and the functions of number theory and analysis.  With them every constructor of a level keeps to the
variables if those of the level below do, so the standard constructors keep to them too.
-/

set_option autoImplicit false

namespace ErrorBars

namespace Canonical

open Expr (Over OverAll PairsOver)

variable {S : String → Prop} {A : Arith}

/-! ## Exponential and logarithm -/

@[grind →] theorem over_expTurn? {r : Rat} {v : Expr} (h : expTurn? A r = some v)
    (hA : A.Preserves S) : Over S v := by
  unfold expTurn? at h
  grind -ring -linarith -lia

@[grind →] theorem over_expOfLog? {fs : List Expr} {v : Expr} (h : expOfLog? A fs = some v)
    (hA : A.Preserves S) (hfs : OverAll S fs) : Over S v := by
  unfold expOfLog? at h
  grind -ring -linarith -lia

/-- What the exponential of a term gives, outside or inside, is over the variables of the term. -/
theorem over_expTerm {t : Expr} (hA : A.Preserves S) (ht : Over S t) :
    (∀ v, expTerm A t = .inl v → Over S v) ∧ ∀ v, expTerm A t = .inr v → Over S v := by
  have hexp := Arith.over_apply_single hA (f := .exp) ht
  unfold expTerm
  grind -ring -linarith -lia

@[grind →] theorem over_expOfSum {ts : List Expr} {v : Expr} (h : expOfSum A ts = some v)
    (hA : A.Preserves S) (hts : OverAll S ts) : Over S v := by
  have hsplit : ∀ s ∈ ts.map (expTerm A),
      (∀ v, s = .inl v → Over S v) ∧ ∀ v, s = .inr v → Over S v :=
    List.forall_mem_map.2 fun t ht => over_expTerm hA (hts t ht)
  unfold expOfSum at h
  simp only at h
  generalize ts.map (expTerm A) = split at h hsplit
  have hpick : ∀ f : Expr ⊕ Expr → Option Expr,
      (∀ s v, f s = some v → s = .inl v ∨ s = .inr v) → OverAll S (split.filterMap f) :=
    fun f hf => Expr.overAll_filterMap fun s hs v hv =>
      (hf s v hv).elim ((hsplit s hs).1 v) ((hsplit s hs).2 v)
  split at h
  · simp at h
  · obtain rfl := Option.some.inj h
    refine hA.product (Expr.overAll_append.2 ⟨?_, ?_⟩)
    · exact hpick _ fun s v hv => by cases s <;> simp_all
    · have hexp : ∀ {rest : Expr}, Over S rest →
          OverAll S [if rest == Expr.zero then Expr.one else Expr.rawFn .exp [rest]] := by
        grind
      exact hexp (hA.sum (hpick _ fun s v hv => by cases s <;> simp_all))

theorem over_expOfInfinite {e v : Expr} {negative : Bool}
    (h : expOfInfinite A negative e = some v) : Over S v := by
  unfold expOfInfinite at h
  grind -ring -linarith -lia

grind_pattern over_expOfInfinite => expOfInfinite A negative e, some v, Over S v

@[grind →] theorem over_exp {e v : Expr} (h : exp A e = some v) (hA : A.Preserves S)
    (he : Over S e) : Over S v := by
  unfold exp at h
  grind -ring -linarith -lia

@[grind ←] theorem over_logBase {x b : Expr} (hA : A.Preserves S) (hx : Over S x) (hb : Over S b) :
    Over S (logBase A x b) := by
  unfold logBase
  grind -ring -linarith -lia

@[grind ←] theorem over_polarLog {size : Expr} {r : Rat} (hA : A.Preserves S)
    (hsize : Over S size) : Over S (polarLog A size r) := by
  unfold polarLog
  grind -ring -linarith -lia

@[grind →] theorem over_logOfAlgebraic {e v : Expr} (h : logOfAlgebraic A e = some v)
    (hA : A.Preserves S) (he : Over S e) : Over S v := by
  have hfilter : ∀ p : Expr → Bool, Over S (A.product (e.factors.filter p)) := fun p =>
    hA.product (Expr.overAll_filter (Expr.overAll_factors he))
  unfold logOfAlgebraic at h
  extract_lets outer inner at h
  generalize hparts : (if e.isAdd then (Expr.one, e) else (A.product outer, A.product inner)) = parts
    at h
  obtain ⟨houter, hinner⟩ : Over S parts.1 ∧ Over S parts.2 := by
    rw [← hparts]
    split
    · exact ⟨Expr.over_one, he⟩
    · exact ⟨hfilter _, hfilter _⟩
  obtain ⟨p, q⟩ := parts
  simp only at h
  generalize hsigned : (if p.isNegative then (A.neg p, A.neg q) else (p, q)) = signed at h
  obtain ⟨hsize, hcore⟩ : Over S signed.1 ∧ Over S signed.2 := by
    rw [← hsigned]
    split
    · exact ⟨Arith.over_neg hA houter, Arith.over_neg hA hinner⟩
    · exact ⟨houter, hinner⟩
  obtain ⟨size, core⟩ := signed
  simp only at h
  split at h
  · cases h
  · rename_i z hz
    obtain ⟨hre, him⟩ := over_cartesian? hz hA (over_multipliedOut hA hcore)
    split at h
    · cases h
    · split at h
      · split at h <;> cases h
        · exact over_polarLog hA (Arith.over_mul hA hsize him)
        · exact over_polarLog hA (Arith.over_mul hA hsize (Arith.over_neg hA him))
      · obtain ⟨r, -, rfl⟩ := Option.map_eq_some_iff.1 h
        exact over_polarLog hA (Arith.over_mul hA hsize (over_cartesianAbs hA hre him))

@[grind ←] theorem over_principalAngle {i : Expr} (hA : A.Preserves S) (hi : Over S i) : Over S
    (principalAngle A i) := by
  unfold principalAngle
  grind -ring -linarith -lia

@[grind →] theorem over_logOfExp {x v : Expr} (h : logOfExp A x = some v) (hA : A.Preserves S)
    (hx : Over S x) : Over S v := by
  unfold logOfExp at h
  grind -ring -linarith -lia

@[grind →] theorem over_logOfUnit {e v : Expr} (h : logOfUnit A e = some v) (hA : A.Preserves S)
    (he : Over S e) : Over S v := by
  unfold logOfUnit at h
  grind -ring -linarith -lia

@[grind →] theorem over_logOfImaginary {e v : Expr} (h : logOfImaginary A e = some v)
    (hA : A.Preserves S) (he : Over S e) : Over S v := by
  have hlog : ∀ q, Over S (A.apply .log [.rat q]) := fun q => hA.apply (by simp)
  unfold logOfImaginary at h
  split at h
  · cases h
  · split at h
    · have hquarter : Over S (A.mul (turn A (1 / 2)) Expr.imaginary) := by grind
      cases h
      split
      · exact Arith.over_add hA (Arith.over_neg hA hquarter) (hlog _)
      · exact Arith.over_add hA hquarter (hlog _)
    · split at h <;> cases h
      exact Expr.over_infinity
    · cases h

@[grind ←] theorem over_logBounds {s : Ends} (hA : A.Preserves S) (hs : s.Over S) : Over S
    (logBounds A s) := by
  unfold logBounds
  grind -ring -linarith -lia

@[grind →] theorem over_log {e v : Expr} (h : log A e = some v) (hA : A.Preserves S)
    (he : Over S e) : Over S v := by
  unfold log at h
  repeat' split at h
  all_goals grind -ring -linarith -lia

/-! ## Extremes -/

@[simp, grind ←] theorem over_extremeBottom (largest : Bool) : Over S (extremeBottom largest) := by
  unfold extremeBottom
  split <;> grind

@[grind ←] theorem overAll_distinct {es : List Expr} (h : OverAll S es) :
    OverAll S (distinct es) := by
  unfold distinct
  refine List.foldlRecOn _ _ Expr.overAll_nil fun acc hacc e he => ?_
  have he := h e he
  grind

@[grind ←] theorem overAll_sortBySize {es : List Expr} (h : OverAll S es) :
    OverAll S (Expr.sortBySize es) := by
  unfold Expr.sortBySize
  refine Expr.overAll_map fun p hp => ?_
  obtain ⟨e, he, rfl⟩ := List.mem_map.1 ((List.mergeSort_perm _ _).mem_iff.1 hp)
  exact h e he

@[grind ←] theorem over_plainExtreme {largest : Bool} {es : List Expr} (h : OverAll S es) :
    Over S (plainExtreme largest es) := by
  have hsorted := overAll_sortBySize (overAll_distinct h)
  unfold plainExtreme
  grind

theorem over_asExtreme? {e : Expr} {kind : Bool} {as : List Expr}
    (h : asExtreme? e = some (kind, as)) (he : Over S e) : OverAll S as := by
  unfold asExtreme? at h
  grind

grind_pattern over_asExtreme? => asExtreme? e, some (kind, as), OverAll S as

@[grind ←] theorem overAll_openNested {f : Func} {es : List Expr} (h : OverAll S es) :
    OverAll S (openNested f es) := by
  unfold openNested
  refine Expr.overAll_flatMap fun e he => ?_
  have he := h e he
  split <;> grind

theorem overAll_dropBounded {largest : Bool} {es : List Expr} (h : OverAll S es) :
    OverAll S (dropBounded A largest es) := by
  unfold dropBounded
  grind

mutual

theorem over_without {largest : Bool} {a : Expr} (ha : Over S a) :
    ∀ {e : Expr}, Over S e → Over S (without largest a e)
  | .app hd as, he => by
    have hrest : OverAll S (withoutAll largest a as) := over_withoutAll ha (Expr.over_app.1 he)
    unfold without
    split
    · rename_i f as' happ
      obtain ⟨rfl, rfl⟩ := Expr.app.inj happ
      simp only
      split
      · split
        · split
          · exact over_plainExtreme (Expr.overAll_filter hrest)
          · exact ha
        · exact over_plainExtreme hrest
      · exact he
    · exact he
  | .rat _, he | .float _ _, he | .const _, he | .symbol _, he | .dummy _, he => he

theorem over_withoutAll {largest : Bool} {a : Expr} (ha : Over S a) :
    ∀ {es : List Expr}, OverAll S es → OverAll S (withoutAll largest a es)
  | [], _ => Expr.overAll_nil
  | e :: es, hes => by
    have he := Expr.overAll_cons.1 hes
    exact Expr.overAll_cons.2 ⟨over_without ha he.1, over_withoutAll ha he.2⟩

end

theorem overAll_absorb {largest : Bool} {fuel : Nat} {es : List Expr} (h : OverAll S es) :
    OverAll S (absorb largest fuel es) := by
  induction fuel generalizing es with
  | zero => exact h
  | succ fuel ih =>
    cases es with
    | nil => exact h
    | cons e es =>
      have he := Expr.overAll_cons.1 h
      exact Expr.overAll_cons.2 ⟨he.1, ih (Expr.overAll_map fun x hx =>
        over_without he.1 (he.2 x hx))⟩

theorem overAll_shareArguments {largest : Bool} {es : List Expr} (h : OverAll S es) :
    OverAll S (shareArguments largest es) := by
  have hopposite : ∀ x ∈ es.filterMap fun e => (asExtreme? e).filter fun x => x.1 != largest,
      OverAll S x.2 := by
    intro x hx
    obtain ⟨e, he, hx⟩ := List.mem_filterMap.1 hx
    exact over_asExtreme? (Option.filter_eq_some_iff.1 hx).1 (h e he)
  unfold shareArguments
  simp only
  generalize es.filterMap (fun e => (asExtreme? e).filter fun x => x.1 != largest) = opposite
    at hopposite
  split
  · exact h
  · rename_i _ first rest
    have hcommon : OverAll S (first.filter fun a => rest.all fun x => x.2.any (· == a)) :=
      Expr.overAll_filter (hopposite _ List.mem_cons_self)
    generalize first.filter (fun a => rest.all fun x => x.2.any (· == a)) = common at hcommon
    split
    · exact h
    · refine Expr.overAll_append.2 ⟨Expr.overAll_filter h, Expr.overAll_cons.2
        ⟨over_plainExtreme (Expr.overAll_append.2 ⟨hcommon, ?_⟩), Expr.overAll_nil⟩⟩
      split
      · exact Expr.overAll_nil
      · refine Expr.overAll_cons.2 ⟨over_plainExtreme (Expr.overAll_map fun es hes => ?_),
          Expr.overAll_nil⟩
        obtain ⟨x, hx, rfl⟩ := List.mem_map.1 hes
        exact over_plainExtreme (Expr.overAll_filter (hopposite x hx))

theorem overAll_takeCandidate {largest : Bool} {kept : List Expr} {e : Expr}
    (hkept : OverAll S kept) (he : Over S e) : OverAll S (takeCandidate A largest kept e) := by
  unfold takeCandidate
  grind

theorem over_extreme {largest : Bool} {es : List Expr} {v : Expr}
    (h : extreme A largest es = some v) (hes : OverAll S es) : Over S v := by
  have hopened : OverAll S (distinct (openNested (extremeFunc largest)
      (es.filter fun e => !(e == extremeBottom largest)))) :=
    overAll_distinct (overAll_openNested (Expr.overAll_filter hes))
  unfold extreme at h
  simp only at h
  generalize distinct (openNested _ _) = opened at h hopened
  split at h
  · grind
  · have habsorbed : OverAll S (absorb largest
        (dropBounded A largest (Expr.sortBySize opened)).length
        (dropBounded A largest (Expr.sortBySize opened))) :=
      overAll_absorb (overAll_dropBounded (overAll_sortBySize hopened))
    generalize absorb largest _ _ = absorbed at h habsorbed
    obtain rfl := Option.some.inj h
    refine over_plainExtreme (List.foldlRecOn _ _ Expr.overAll_nil fun kept hkept e he =>
      overAll_takeCandidate hkept (overAll_distinct ?_ e he))
    split
    · exact habsorbed
    · exact overAll_shareArguments habsorbed

grind_pattern over_extreme => extreme A largest es, some v, Over S v

/-! ## Factorials and related functions -/

theorem over_factorial {e v : Expr} (h : factorial e = some v) : Over S v := by
  unfold factorial at h
  grind -ring -linarith -lia

grind_pattern over_factorial => factorial e, some v, Over S v

theorem over_factorial2 {e v : Expr} (h : factorial2 e = some v) : Over S v := by
  unfold factorial2 at h
  grind -ring -linarith -lia

grind_pattern over_factorial2 => factorial2 e, some v, Over S v

@[grind ←] theorem over_mulTerms {a b : Expr} (hA : A.Preserves S) (ha : Over S a) (hb : Over S b) :
    Over S (mulTerms A a b) := by
  unfold mulTerms
  grind -ring -linarith -lia

@[grind ←] theorem over_risingRatio {d : Expr} {k : Nat} (hA : A.Preserves S) (hd : Over S d) :
    Over S (risingRatio A d k) := by
  unfold risingRatio
  grind -ring -linarith -lia

@[grind →] theorem over_binomial {n k v : Expr} (h : binomial A n k = some v) (hA : A.Preserves S)
    (hn : Over S n) (hk : Over S k) : Over S v := by
  unfold binomial at h
  grind -ring -linarith -lia

@[grind →] theorem over_gamma {e v : Expr} (h : gamma A e = some v) (hA : A.Preserves S)
    (he : Over S e) : Over S v := by
  unfold gamma at h
  grind -ring -linarith -lia

@[grind →] theorem over_erf {e v : Expr} (h : erf A e = some v) (hA : A.Preserves S)
    (he : Over S e) : Over S v := by
  unfold erf at h
  grind -ring -linarith -lia

@[grind →] theorem over_erfc {e v : Expr} (h : erfc A e = some v) (hA : A.Preserves S)
    (he : Over S e) : Over S v := by
  unfold erfc at h
  grind -ring -linarith -lia

theorem over_heaviside {e edge v : Expr} (h : heaviside e edge = some v) (he : Over S e)
    (hedge : Over S edge) : Over S v := by
  unfold heaviside at h
  grind -ring -linarith -lia

grind_pattern over_heaviside => heaviside e edge, some v, Over S v

theorem over_heavisideWith {e edge v : Expr} (h : heavisideWith e edge = some v) (he : Over S e)
    (hedge : Over S edge) : Over S v := by
  unfold heavisideWith at h
  grind -ring -linarith -lia

grind_pattern over_heavisideWith => heavisideWith e edge, some v, Over S v

@[grind →] theorem over_dirac {e v : Expr} (h : dirac A e = some v) (hA : A.Preserves S)
    (he : Over S e) : Over S v := by
  unfold dirac at h
  grind -ring -linarith -lia

@[grind →] theorem over_diracDerivative {e order v : Expr} (h : diracDerivative A e order = some v)
    (hA : A.Preserves S) (he : Over S e) (horder : Over S order) : Over S v := by
  unfold diracDerivative at h
  grind -ring -linarith -lia

@[grind →] theorem over_polygamma {n z v : Expr} (h : polygamma A n z = some v)
    (hA : A.Preserves S) : Over S v := by
  unfold polygamma at h
  grind -ring -linarith -lia

/-! ## All functions -/

@[simp, grind ←] theorem over_ofPart (bits : Nat) (p : Part) : Over S (ofPart bits p) := by
  unfold ofPart
  grind

@[grind →] theorem over_approximate? {f : Func} {args : List Expr} {v : Expr}
    (h : approximate? A f args = some v) (hA : A.Preserves S) : Over S v := by
  unfold approximate? at h
  grind -ring -linarith -lia

@[grind →] theorem over_simpler {f : Func} {args : List Expr} {v : Expr}
    (h : simpler A f args = some v) (hA : A.Preserves S) (hargs : OverAll S args) : Over S v := by
  unfold simpler at h
  split at h <;> grind

/-- **A canonical function application is over the variables of its arguments.** -/
@[grind ←] theorem over_apply {f : Func} {args : List Expr} (hA : A.Preserves S)
    (h : OverAll S args) : Over S (apply A f args) := by
  unfold apply
  grind

end Canonical

namespace Arith

variable {S : String → Prop}

/-- One step up keeps to the variables. -/
theorem preserves_step {A : Arith} (hA : A.Preserves S) : A.step.Preserves S where
  sum h := Canonical.over_sum hA h
  product h := Canonical.over_product hA h
  power hb he := Canonical.over_power hA hb he
  apply h := Canonical.over_apply hA h

theorem preserves_level (n : Nat) : (level n).Preserves S := by
  induction n with
  | zero => exact preserves_plain
  | succ n ih => exact preserves_step ih

/-- **The standard constructors make up no variables.** -/
@[grind ←] theorem preserves_standard : standard.Preserves S := preserves_level standardLevel

end Arith

end ErrorBars
