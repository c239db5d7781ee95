import ErrorBars.Expr.Canonical.Complex
import ErrorBars.Proofs.Names.Basic

/-!
# Angles and closed complex numbers are over the variables they are taken from

What stands in front of the imaginary unit or of the circle constant is made of the factors of the
expression it is taken from.  The exact values of sine and cosine hold no variables.
-/

set_option autoImplicit false

namespace ErrorBars.Canonical

open Expr (Over OverAll)

variable {S : String → Prop} {A : Arith}

/-! ## Units and half turns taken out -/

@[grind →] theorem over_coeffOf? {c e v : Expr} (h : coeffOf? A c e = some v) (hA : A.Preserves S)
    (he : Over S e) : Over S v := by
  unfold coeffOf? at h
  grind

mutual

theorem over_withoutUnit? (hA : A.Preserves S) :
    ∀ e v : Expr, withoutUnit? A e = some v → Over S e → Over S v
  | .const c, v, h, _ => by
    cases c <;> grind [withoutUnit?]
  | .rat _, v, h, _ | .float _ _, v, h, _ | .symbol _, v, h, _ | .dummy _, v, h, _ => by
    grind [withoutUnit?]
  | .app hd as, v, h, he => by
    have hfactors := over_withoutUnitInFactors? hA as
    have hterms := over_withoutUnitInTerms? hA as
    unfold withoutUnit? at h
    grind

theorem over_withoutUnitInFactors? (hA : A.Preserves S) :
    ∀ fs gs : List Expr, withoutUnitInFactors? A fs = some gs → OverAll S fs → OverAll S gs
  | [], gs, h, _ => by simp [withoutUnitInFactors?] at h
  | f :: fs, gs, h, hfs => by
    have hhead := over_withoutUnit? hA f
    have htail := over_withoutUnitInFactors? hA fs
    unfold withoutUnitInFactors? at h
    grind

theorem over_withoutUnitInTerms? (hA : A.Preserves S) :
    ∀ ts us : List Expr, withoutUnitInTerms? A ts = some us → OverAll S ts → OverAll S us
  | [], us, h, _ => by
    rw [← Option.some.inj h]
    exact Expr.overAll_nil
  | t :: ts, us, h, hts => by
    have hhead := over_withoutUnit? hA t
    have htail := over_withoutUnitInTerms? hA ts
    simp only [withoutUnitInTerms?, Option.bind_eq_bind, Option.bind_eq_some_iff,
      Option.pure_def, Option.some.injEq] at h
    obtain ⟨u, hu, vs, hvs, rfl⟩ := h
    grind

end

attribute [grind →] over_withoutUnit?

@[grind →] theorem over_coeffOfUnit? {e v : Expr} (h : coeffOfUnit? A e = some v)
    (hA : A.Preserves S) (he : Over S e) : Over S v :=
  over_withoutUnit? hA e v (Option.filter_eq_some_iff.1 h).1 he

@[grind ←] theorem over_exactFraction {e : Expr} (he : Over S e) : Over S (exactFraction e) := by
  unfold exactFraction
  grind

@[grind ←] theorem over_withinTurn {e : Expr} (he : Over S e) : Over S (withinTurn e) := by
  unfold withinTurn
  grind

@[grind →] theorem over_piCoeff? {e v : Expr} (h : piCoeff? A e = some v) (hA : A.Preserves S)
    (he : Over S e) : Over S v := by
  unfold piCoeff? at h
  grind

@[grind ←] theorem over_turn (r : Rat) (hA : A.Preserves S) : Over S (turn A r) :=
  Arith.over_mul hA (Expr.over_rat r) Expr.over_pi

theorem over_piTerms (ts : List Expr) (hts : OverAll S ts) :
    OverAll S (piTerms A ts).2 := by
  unfold piTerms
  induction ts with
  | nil => simp
  | cons t ts ih => grind

theorem over_peelPi {e v : Expr} {r : Rat} (h : peelPi A e = some (v, r)) (hA : A.Preserves S)
    (he : Over S e) : Over S v := by
  unfold peelPi at h
  have hterms := over_piTerms (S := S) (A := A)
  grind

grind_pattern over_peelPi => peelPi A e, some (v, r), Over S e

/-! ## Exact values -/

@[grind →] theorem over_cosTurn? {fuel : Nat} {r : Rat} {v : Expr}
    (h : cosTurn? A fuel r = some v) (hA : A.Preserves S) : Over S v := by
  induction fuel generalizing r v with
  | zero => simp [cosTurn?] at h
  | succ fuel ih =>
    unfold cosTurn? at h
    simp only at h
    split at h
    · grind
    · split at h
      · grind
      · split at h
        · grind
        · split at h
          · grind
          · split at h
            · grind
            · split at h
              · grind
              · split at h
                · simp only [Option.bind_eq_bind, Option.bind_eq_some_iff] at h
                  obtain ⟨cx, hcx, cy, hcy, sx, hsx, sy, hsy, h⟩ := h
                  grind
                · grind

theorem over_halfTurns {f : Func} {q : Rat} (hA : A.Preserves S) :
    Over S (Expr.rawFn f [A.mul (.rat q) Expr.pi]) :=
  Expr.over_rawFn.2 (by grind)

@[grind ←] theorem over_cosTurn (r : Rat) (hA : A.Preserves S) : Over S (cosTurn A r) := by
  have hat := fun q => over_halfTurns (f := .cos) (q := q) hA
  unfold cosTurn
  split
  · exact over_cosTurn? (by assumption) hA
  · grind

@[grind ←] theorem over_sinTurn (r : Rat) (hA : A.Preserves S) : Over S (sinTurn A r) := by
  have hat := fun q => over_halfTurns (f := .sin) (q := q) hA
  unfold sinTurn
  split
  · exact over_cosTurn? (by assumption) hA
  · grind

/-! ## Real and imaginary parts -/

@[grind ←] theorem over_distribute {a b : Expr} (hA : A.Preserves S) (ha : Over S a)
    (hb : Over S b) : Over S (distribute A a b) := by
  unfold distribute
  grind

@[grind ←] theorem over_multipliedOut {e : Expr} (hA : A.Preserves S) (he : Over S e) :
    Over S (multipliedOut A e) := by
  unfold multipliedOut
  split
  · exact List.foldlRecOn _ _ Expr.over_one fun a ha f hf =>
      over_distribute hA ha (Expr.over_app.1 he f hf)
  · exact he

@[grind →] theorem over_cartesian? {e : Expr} {z : Cartesian} (h : cartesian? A e = some z)
    (hA : A.Preserves S) (he : Over S e) : Over S z.re ∧ Over S z.im := by
  unfold cartesian? at h
  grind

@[grind ←] theorem over_cartesianAbs {z : Cartesian} (hA : A.Preserves S) (hre : Over S z.re)
    (him : Over S z.im) : Over S (cartesianAbs A z) :=
  Arith.over_sqrt hA (Arith.over_add hA (over_distribute hA hre hre) (over_distribute hA him him))

end ErrorBars.Canonical
