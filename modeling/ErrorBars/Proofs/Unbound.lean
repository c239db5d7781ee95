import ErrorBars.Proofs.Names.Point
import ErrorBars.Proofs.Reordered

/-!
# Names without values

Two faults say that names have no value.  One is for the variables of a formula that have no
measurement, and comes before any slope is looked for.  The other comes from an evaluation, and one
expects it never to be seen: a derivative has no other variables than the formula
(`over_differentiate`), and all of these have values by then.

It is seen, however.  The remainder of `x` by two has a derivative that is left as it is; no value
comes of it, whatever `x` is, and the fault says that there is none for `x` (`unbound_remainder`).
What is true is that an expression has to stall for this (`Expr.Stalls`), which is `unbound_cases`.
-/

set_option autoImplicit false

namespace ErrorBars

/-- The names that have no value, as a fault says. -/
def CallFault.unvalued? : CallFault → Option (List String)
  | .missing names _ => some names
  | .engine (.unbound names _) => some names
  | _ => none

namespace Propagator

open Watched

/-- An expression whose value a calculation needs: the formula, or its derivative in the direction of
one of its variables. -/
def Needed (f e : Expr) : Prop := e = f ∨ ∃ name ∈ f.freeSymbols, e = f.differentiate name

theorem mem_freeSymbols_of_differentiate {f : Expr} {name s : String}
    (h : s ∈ (f.differentiate name).freeSymbols) : s ∈ f.freeSymbols := by
  have hover : Expr.Over (· ∈ f.freeSymbols) (f.differentiate name) :=
    Expr.over_differentiate (Expr.over_iff_freeSymbols.2 fun _ hs => hs)
  exact Expr.over_iff_freeSymbols.1 hover s h

section

variable {source : String} {vs : Variables} {f e : Expr}

theorem mem_unmeasured {n : String} :
    n ∈ unmeasured source vs f ↔ n ∈ f.freeSymbols ∧ n ∉ vs.map Prod.fst := by
  have hlookup : (vs.find? n).isNone = true ↔ n ∉ vs.map Prod.fst := by
    rw [Option.isNone_iff_eq_none, Variables.find?, List.lookup_eq_none_iff]
    simp only [bne_iff_ne, List.mem_map, not_exists, not_and]
    exact ⟨fun h v hv heq => h v hv heq.symm, fun h v hv heq => h v hv heq.symm⟩
  rw [unmeasured, List.mem_filter, hlookup, Formula.freeVariables, List.mem_mergeSort]

/-- Once no measurement is missing, everything that is needed has values for its variables. -/
theorem Needed.given (h : Needed f e) (hm : unmeasured source vs f = []) :
    Expr.Given (bindings vs) e where
  closed := secondsOver_bindings vs
  bound s hs := by
    have hf : s ∈ f.freeSymbols := by
      rcases h with rfl | ⟨name, -, rfl⟩
      · exact hs
      · exact mem_freeSymbols_of_differentiate hs
    have hmem : s ∈ vs.map Prod.fst := by
      by_contra hnot
      have hmissing : s ∈ unmeasured source vs f := mem_unmeasured.2 ⟨hf, hnot⟩
      rw [hm] at hmissing
      exact List.not_mem_nil hmissing
    rwa [bindings, List.map_map]

end

/-- What a calculation that has read its formula may say about names without values. -/
structure AboutNames (expression inputs : Datum) (source : String) (vs : Variables) (f : Expr)
    (answer : Except CallFault (Outcome Double)) (ms : List Emission) : Prop where
  /-- missing are those variables of the formula that are not among the measurements -/
  mem_unmeasured : ∀ n, n ∈ unmeasured source vs f ↔ n ∈ f.freeSymbols ∧ n ∉ vs.map Prod.fst
  /-- if there are any, this is what the fault says, and nothing is reported but the arguments -/
  missing : unmeasured source vs f ≠ [] →
    answer = .error (.missing (unmeasured source vs f) source) ∧
      ms = [told (.input expression inputs)]
  /-- if there are none, a fault about names comes from an expression that stalls, and what it names
  are variables of the formula, which have values -/
  stalls : unmeasured source vs f = [] → ∀ fault names, answer = .error fault →
    fault.unvalued? = some names → ∃ e, Needed f e ∧ fault = .engine (.unbound names e) ∧
      e.Stalls (bindings vs) ∧ ∀ n ∈ names, n ∈ f.freeSymbols ∧ n ∈ vs.map Prod.fst

/-- Without anything that stalls, a fault about names is one about missing measurements. -/
theorem AboutNames.iff {expression inputs : Datum} {source : String} {vs : Variables} {f : Expr}
    {answer : Except CallFault (Outcome Double)} {ms : List Emission}
    (h : AboutNames expression inputs source vs f answer ms)
    (hstalls : ∀ e, Needed f e → ¬ e.Stalls (bindings vs)) :
    (∃ fault names, answer = .error fault ∧ fault.unvalued? = some names) ↔
      ∃ n ∈ f.freeSymbols, n ∉ vs.map Prod.fst := by
  constructor
  · rintro ⟨fault, names, hanswer, hnames⟩
    cases hm : unmeasured source vs f with
    | nil =>
      obtain ⟨e, he, -, hstall, -⟩ := h.stalls hm fault names hanswer hnames
      exact absurd hstall (hstalls e he)
    | cons n rest =>
      have hn : n ∈ unmeasured source vs f := hm ▸ List.mem_cons_self
      exact ⟨n, (h.mem_unmeasured n).1 hn⟩
  · rintro ⟨n, hn⟩
    have hne := List.ne_nil_of_mem ((h.mem_unmeasured n).2 hn)
    exact ⟨_, _, (h.missing hne).1, rfl⟩

section

variable {ε : Type} {emit : Event → Call ε Unit} {mode : Correlation}
  {expression inputs : Datum} {s : CallState ε} {source : String} {vs : Variables} {f : Expr}

/-- The fault of a setting is that of an expression which is needed. -/
theorem Ends.needed {S : Setting} {ds : List Differential}
    {answer : Except CallFault (Outcome Double)} (h : Ends mode S ds answer) {fault : CallFault}
    (hfault : answer = .error fault) :
    ∃ e reason, Needed S.formula e ∧ e.evaluate S.point = .error reason ∧
      fault = .engine reason := by
  cases h with
  | @noSlope name reason next fails =>
    cases hfault
    have hname : name ∈ S.formula.freeSymbols := List.mem_mergeSort.1 (List.mem_of_getElem? next)
    exact ⟨_, reason, .inr ⟨name, hname, rfl⟩, fails, rfl⟩
  | @noValue reason _ fails =>
    cases hfault
    exact ⟨_, reason, .inl rfl, fails, rfl⟩
  | result _ _ _ => cases hfault

theorem aboutNames_calculate (quiet : Quiet (emissions emit mode expression inputs s))
    (hsource : readFormula expression = .ok source) (hvs : readVariables inputs = .ok vs)
    (hf : Formula.parse source (vs.map Prod.fst) = .ok f) :
    AboutNames expression inputs source vs f (calculate emit mode expression inputs s).1
      (emissions emit mode expression inputs s) := by
  obtain ⟨hreports, hanswer⟩ := emissions_calculate quiet
  have hopen := (opening_eq_setting hsource hvs).trans (setting_of_read hf)
  refine ⟨fun n => mem_unmeasured, fun hne => ?_, fun hm fault names hfault hnames => ?_⟩
  · obtain ⟨n, rest, hm⟩ := List.exists_cons_of_ne_nil hne
    rw [hm] at hopen ⊢
    rw [hreports, hanswer, reports, slopesOf, reference_eq_error mode hopen, hopen]
    exact ⟨rfl, rfl⟩
  · rw [hm] at hopen
    rw [hanswer, reference_eq_conclusion mode hopen] at hfault
    obtain ⟨e, reason, he, hreason, rfl⟩ := (ends_survey mode hopen).needed hfault
    cases reason with
    | unbound found g =>
      cases hnames
      have hgiven := he.given hm
      obtain ⟨rfl, hstalls, hfound⟩ := Expr.evaluate_unbound hgiven hreason
      refine ⟨g, he, rfl, hstalls, fun n hn => ?_⟩
      have hmem := hgiven.bound n (hfound n hn)
      rw [bindings, List.map_map] at hmem
      refine ⟨?_, hmem⟩
      rcases he with rfl | ⟨name, -, rfl⟩
      · exact hfound n hn
      · exact mem_freeSymbols_of_differentiate (hfound n hn)
    | _ => cases hnames

end

/-- **Names without values.**  A derivative has no other variables than the formula.

If all variables of an expression have values, then none of them is left in what it comes to unless
it stalls, and only then does the fault say that variables have no value.  It does say so of whatever
stalls as a whole, can be written down and has variables.

So if a calculation has read its formula, and no listener lets a fault escape, it says that names
have no value for two reasons.  If variables of the formula have no measurement, it says so of just
these, and nothing but the arguments has been reported; otherwise it can only do so where the formula
or a derivative stalls at the measured point.  If none of these stalls, the first reason is the only
one. -/
theorem unbound_cases {ε : Type} (emit : Event → Call ε Unit) (mode : Correlation)
    (expression inputs : Datum) (s : CallState ε) (source : String) (vs : Variables) (f : Expr) :
    (∀ (g : Expr) (name : String), ∀ n ∈ (g.differentiate name).freeSymbols, n ∈ g.freeSymbols) ∧
    (∀ (bs : Bindings) (e : Expr), Expr.Given bs e →
      (∀ rest, e.reach bs = .ok (.stuck rest) → rest.freeSymbols = [] ∨ e.Stalls bs) ∧
      (∀ names g, e.evaluate bs = .error (.unbound names g) →
        g = e ∧ e.Stalls bs ∧ ∀ n ∈ names, n ∈ e.freeSymbols) ∧
      (e.Plain → e.Stalls bs → e.isWritable = true → e.freeSymbols ≠ [] →
        e.evaluate bs = .error (.unbound e.leftNames e))) ∧
    (Quiet (emissions emit mode expression inputs s) →
      readFormula expression = .ok source → readVariables inputs = .ok vs →
      Formula.parse source (vs.map Prod.fst) = .ok f →
      AboutNames expression inputs source vs f (calculate emit mode expression inputs s).1
        (emissions emit mode expression inputs s) ∧
      ((∀ e, Needed f e → ¬ e.Stalls (bindings vs)) →
        ((∃ fault names, (calculate emit mode expression inputs s).1 = .error fault ∧
            fault.unvalued? = some names) ↔
          ∃ n ∈ f.freeSymbols, n ∉ vs.map Prod.fst))) := by
  refine ⟨fun g name n => mem_freeSymbols_of_differentiate, fun bs e h =>
    ⟨fun rest hrest => (h.left hrest).2, fun names g => Expr.evaluate_unbound h,
      fun hplain hstalls hwritable hne => ?_⟩, fun quiet hsource hvs hf => ?_⟩
  · rw [Expr.evaluate_of_stalls hplain hstalls, Expr.valueFault_leftNames hwritable hne]
  · have h := aboutNames_calculate quiet hsource hvs hf
    exact ⟨h, h.iff⟩

/-- The derivative of the remainder of `x` by two, which is left as it is. -/
def remainderSlope : Expr :=
  .app .derivative [.app (.fn .modulo) [.symbol "x", .rat 2], .symbol "x"]

/-- The point where `x` is five. -/
def five : Bindings := [("x", .rat 5)]

theorem plain_remainderSlope : remainderSlope.Plain := fun _ _ heq => by cases heq

theorem given_remainderSlope : Expr.Given five remainderSlope where
  closed := Expr.secondsOver_cons.2 ⟨Expr.over_rat 5, Expr.secondsOver_nil⟩
  bound := by decide +kernel

theorem stalls_remainderSlope : remainderSlope.Stalls five := by
  have hunfollowed : remainderSlope.evaluatorIn (Expr.environmentAt five) Expr.pointBits.1
      Expr.pointBits.2 = .error .unsupported := rfl
  have hparts : (Expr.substituteMany 53 five.ordered remainderSlope).toOption.map
      Expr.hasEvaluableParts = some false := by
    decide +kernel
  cases hv : Expr.substituteMany 53 five.ordered remainderSlope with
  | error fault =>
    rw [hv] at hparts
    cases hparts
  | ok v =>
    rw [hv] at hparts
    exact .whole plain_remainderSlope hunfollowed hv (Option.some.inj hparts)

/-- `x`, measured as five. -/
def measuredFive : Datum := .mapping [(.text "x", about 5)]

theorem exists_read_measuredFive :
    ∃ vs, readVariables measuredFive = .ok vs ∧ vs.map Prod.fst = ["x"] := ⟨_, rfl, rfl⟩

theorem readFormula_remainder : readFormula (.text "x%2") = .ok "x%2" := if_neg (by decide +kernel)

theorem exists_parse_remainder :
    ∃ f, Formula.parse "x%2" ["x"] = .ok f ∧ f.freeSymbols = ["x"] := by
  have hnames : (Formula.parse "x%2" ["x"]).toOption.map (·.freeSymbols) = some ["x"] := by
    decide +kernel
  cases hf : Formula.parse "x%2" ["x"] with
  | error fault =>
    rw [hf] at hnames
    cases hnames
  | ok f =>
    rw [hf] at hnames
    exact ⟨f, rfl, Option.some.inj hnames⟩

/-- The derivative stalls at five, and the calculation comes upon it. -/
theorem unbound_cases_remainder :
    Expr.Given five remainderSlope ∧
      remainderSlope.evaluate five =
        .error (.unbound remainderSlope.leftNames remainderSlope) ∧
      ∃ vs f, readVariables measuredFive = .ok vs ∧
        Formula.parse "x%2" (vs.map Prod.fst) = .ok f ∧
        AboutNames (.text "x%2") measuredFive "x%2" vs f
          (calculate unheard .uncorrelated (.text "x%2") measuredFive untouched).1
          (emissions unheard .uncorrelated (.text "x%2") measuredFive untouched) := by
  obtain ⟨vs, hvs, hkeys⟩ := exists_read_measuredFive
  obtain ⟨f, hf, -⟩ := exists_parse_remainder
  rw [← hkeys] at hf
  obtain ⟨-, hevaluate, hcalculate⟩ := unbound_cases unheard .uncorrelated (.text "x%2") measuredFive
    untouched "x%2" vs f
  obtain ⟨-, -, hstalls⟩ := hevaluate five remainderSlope given_remainderSlope
  refine ⟨given_remainderSlope, ?_, vs, f, hvs, hf, ?_⟩
  · exact hstalls plain_remainderSlope stalls_remainderSlope (by decide +kernel) (by decide +kernel)
  · exact (hcalculate (quiet_unheard _ _ _) readFormula_remainder hvs hf).1

/-- Where `x` is five, the remainder by two has a value, but the fault says that `x` has none. -/
theorem unbound_remainder :
    ∃ vs f e, readVariables measuredFive = .ok vs ∧
      Formula.parse "x%2" (vs.map Prod.fst) = .ok f ∧ (∀ n ∈ f.freeSymbols, n ∈ vs.map Prod.fst) ∧
      (calculate unheard .uncorrelated (.text "x%2") measuredFive untouched).1 =
        .error (.engine (.unbound ["x"] e)) := by
  obtain ⟨vs, hvs, hkeys⟩ := exists_read_measuredFive
  obtain ⟨f, hf, hnames⟩ := exists_parse_remainder
  rw [← hkeys] at hf hnames
  have hbound : ∀ n ∈ f.freeSymbols, n ∈ vs.map Prod.fst := fun n hn => hnames ▸ hn
  have hmeasured : unmeasured "x%2" vs f = [] :=
    List.eq_nil_iff_forall_not_mem.2 fun n hn =>
      (mem_unmeasured.1 hn).2 (hbound n (mem_unmeasured.1 hn).1)
  have hanswer : (faultOf (calculate unheard .uncorrelated (.text "x%2") measuredFive
      untouched).1).bind CallFault.unvalued? = some ["x"] := by
    decide +kernel
  have h := aboutNames_calculate (quiet_unheard .uncorrelated (.text "x%2") measuredFive)
    readFormula_remainder hvs hf
  cases hcalculate : (calculate unheard .uncorrelated (.text "x%2") measuredFive untouched).1 with
  | ok r =>
    rw [hcalculate] at hanswer
    cases hanswer
  | error fault =>
    rw [hcalculate] at hanswer
    obtain ⟨e, -, rfl, -⟩ := h.stalls hmeasured fault ["x"] hcalculate hanswer
    exact ⟨vs, f, e, hvs, hf, hbound, rfl⟩

end Propagator
end ErrorBars
