import ErrorBars.Proofs.Slips.Operation

/-!
# How applications slip

An application reads the texts among its arguments as formulas, and it may come to the remainder of
a division by zero: in `Mod`, in `pow` with three arguments, and where zero is put into a remainder.
`CallSlips` has one rule for each of these ways, and `call_eq_error` says that there are no others.
-/

set_option autoImplicit false

namespace ErrorBars.Formula

namespace Value

variable {fault : ParseFault}

/-! ## Reading texts -/

/-- The text that a value hands over to be read. -/
def source? : Value → Option String
  | .text q =>
    if q.kind = .bytes then none else some (String.ofList (q.content.filter (· ≠ '\n')))
  | _ => none

theorem described_eq_error {read : TextReader} {v : Value} (hf : fault.escapes) :
    described read v = .error fault ↔ ∃ s, v.source? = some s ∧ read s = .error fault := by
  have hunreadable := unreadable_ne hf
  rw [described.eq_def]
  split <;> rw [bind_eq_error]
  · simp [source?, hunreadable]
  · rename_i q hbytes
    have hkind : q.kind ≠ .bytes := fun h => hbytes q.content (by rw [← h])
    have hsource : source? (.text q) = some (String.ofList (q.content.filter (· ≠ '\n'))) := by
      simp [source?, hkind]
    rw [hsource]
    simp only [Option.some.injEq, exists_eq_left', or_iff_left_iff_imp]
    rintro ⟨w, -, h⟩
    cases hw : w.expr? <;> simp_all
  · rename_i hnone htext
    refine iff_of_false ?_ ?_
    · cases hv : v.expr? <;> simp [hv, hunreadable]
    · rintro ⟨s, hs, -⟩
      cases v with
      | text q => exact htext q rfl
      | _ => simp [source?] at hs

/-- Values are read as expressions one after the other, up to a text that fails. -/
def ReadsUpTo (read : TextReader) (fails : String → Prop) : List Value → Prop
  | [] => False
  | v :: vs =>
    (∃ s, v.source? = some s ∧ fails s) ∨
      (∃ e, described read v = .ok e) ∧ ReadsUpTo read fails vs

theorem mapM_described_eq_error {read : TextReader} {fails : String → Prop} (hf : fault.escapes)
    (hfails : ∀ s, fails s ↔ read s = .error fault) (vs : List Value) :
    vs.mapM (described read) = .error fault ↔ ReadsUpTo read fails vs := by
  induction vs with
  | nil => exact iff_of_false nofun id
  | cons v vs ih =>
    simp only [List.mapM_cons, bind_eq_error, described_eq_error hf, ih, ReadsUpTo, hfails]
    simp [pure, Except.pure]

/-! ## Functions of mathematics -/

/-- Only a remainder refuses its arguments because of a division by zero. -/
theorem contained_applied {f : Func} (hf : f ≠ .modulo) (args : List Expr) :
    Contained (applied f args) := by
  have hrefused : Canonical.refused? f args ≠ some .divisionByZero := by
    rw [Canonical.refused?.eq_def]
    split
    case h_7 => exact absurd rfl hf
    case h_3 | h_4 => simp
    case h_8 => simp
    all_goals split <;> simp
  rw [applied, Expr.applyChecked]
  cases h : Canonical.refused? f args with
  | none => simp
  | some refusal =>
    cases refusal with
    | divisionByZero => exact absurd h hrefused
    | _ => simp

theorem ne_modulo_of_lookup {name : String} {f : Func}
    (h : unaryFunctions.lookup name = some f) : f ≠ .modulo := by
  obtain ⟨before, after, heq, -⟩ := List.lookup_eq_some_iff.1 h
  have hall : ∀ p ∈ unaryFunctions, p.2 ≠ .modulo := by decide
  exact hall (name, f) (by simp [heq])

theorem contained_extreme {f : Func} (hf : f ≠ .modulo) (args : List Expr) :
    Contained (extreme f args) := by
  rw [extreme.eq_def]
  split
  · simp
  · exact contained_applied hf _

/-- Functions of mathematics other than the remainder do not slip. -/
theorem contained_applyNamed {name : String} (h : name ≠ "Mod") (es : List Expr) :
    Contained (applyNamed name es) := by
  rw [applyNamed.eq_def]
  split
  case h_1 hlookup => exact contained_applied (ne_modulo_of_lookup hlookup) _
  case h_3 => exact contained_applied (by decide) _
  case h_4 =>
    rw [contained_ite]
    exact ⟨fun _ => contained_applied (by decide) _, fun _ => contained_unreadable⟩
  case h_6 =>
    split
    case h_6 => exact absurd rfl h
    case h_7 | h_8 | h_9 | h_10 => exact contained_extreme (by decide) _
    all_goals simp
  all_goals simp

/-- The remainder slips if its divisor is zero. -/
theorem applyNamed_mod_eq_error {es : List Expr} (hf : fault.escapes) :
    applyNamed "Mod" es = .error fault ↔
      fault = .divisionByZero ∧ ∃ x m, es = [x, m] ∧ m.isZero := by
  have hlookup : unaryFunctions.lookup "Mod" = none := by decide
  have hunreadable := unreadable_ne hf
  rw [applyNamed.eq_def, hlookup]
  match es with
  | [x, m] => simp [modulo_eq_error, and_assoc]
  | [] => simp [hunreadable]
  | [x] => simp [hunreadable]
  | x :: y :: z :: rest => simp [hunreadable]

theorem contained_standNamed (name : String) (es : List Expr) : Contained (standNamed name es) := by
  rw [standNamed.eq_def]
  split
  case h_6 => split <;> simp
  all_goals simp

theorem contained_total (vs : List Value) (acc : Value) : Contained (total vs acc) := by
  induction vs generalizing acc with
  | nil => simp [total]
  | cons v vs ih => exact (contained_binary rfl acc v).bind fun _ => ih _

/-- Whether a function is worked out, as its arguments by name tell. -/
def workedBy : List (String × Value) → Calculated Bool
  | [] => .ok true
  | [("evaluate", v)] => v.truth
  | _ => .error .unreadable

theorem contained_workedBy (named : List (String × Value)) : Contained (workedBy named) := by
  rw [workedBy.eq_def]
  split <;> simp

theorem applyMathematical_eq (read : TextReader) (name : String) (a : Arguments) :
    applyMathematical read name a =
      a.values.mapM (described read) >>= fun es =>
        workedBy a.named >>= fun worked =>
          (if worked then applyNamed name es else standNamed name es).map .scalar := by
  have hlast : ∀ (es : List Expr) (worked : Bool),
      (if worked then (applyNamed name es >>= fun e => pure (scalar e))
        else standNamed name es >>= fun e => pure (scalar e)) =
      (if worked then applyNamed name es else standNamed name es).map scalar := by
    intro es worked
    cases worked with
    | false => cases standNamed name es <;> rfl
    | true => cases applyNamed name es <;> rfl
  rw [applyMathematical]
  refine bind_congr fun es => ?_
  split
  · rename_i h
    rw [h]
    exact bind_congr fun worked => hlast es worked
  · rename_i v h
    rw [h]
    exact bind_congr fun worked => hlast es worked
  · rename_i hnil hevaluate
    have hworked : workedBy a.named = .error .unreadable := by
      rw [workedBy.eq_def]
      split
      · exact absurd ‹_› hnil
      · exact absurd ‹_› (hevaluate _)
      · rfl
    rw [hworked]
    rfl

theorem applyMathematical_eq_error {read : TextReader} {fails : String → Prop} {name : String}
    {a : Arguments} (hf : fault.escapes) (hfails : ∀ s, fails s ↔ read s = .error fault) :
    applyMathematical read name a = .error fault ↔
      ReadsUpTo read fails a.values ∨
        fault = .divisionByZero ∧ name = "Mod" ∧ workedBy a.named = .ok true ∧
          ∃ x m, a.values.mapM (described read) = .ok [x, m] ∧ m.isZero := by
  rw [applyMathematical_eq, bind_eq_error, mapM_described_eq_error hf hfails]
  refine or_congr_right ?_
  simp only [bind_eq_error, (contained_workedBy _).ne_error hf, false_or, map_eq_error]
  constructor
  · rintro ⟨es, hes, worked, hworked, h⟩
    cases worked with
    | false => exact absurd h ((contained_standNamed name es).ne_error hf)
    | true =>
      obtain rfl : name = "Mod" :=
        Decidable.not_not.1 fun hname => (contained_applyNamed hname es).ne_error hf h
      obtain ⟨hfault, x, m, rfl, hm⟩ := (applyNamed_mod_eq_error hf).1 h
      exact ⟨hfault, rfl, hworked, x, m, hes, hm⟩
  · rintro ⟨hfault, rfl, hworked, x, m, hes, hm⟩
    exact ⟨[x, m], hes, true, hworked, (applyNamed_mod_eq_error hf).2 ⟨hfault, x, m, rfl, hm⟩⟩

/-! ## Roots and powers -/

/-- The remainder of a power slips if its divisor is zero. -/
theorem powerModulo_eq_error {a b m : Expr} :
    powerModulo a b m = .error fault ↔ fault = .divisionByZero ∧ m.isZero := by
  rw [powerModulo.eq_def]
  split
  · rename_i p n q hp hn hq
    rw [isZero_of_int? hq]
    by_cases hzero : q = 0
    · simp [hzero, modulo_eq_error, isZero_of_int? hq]
    · simp only [hzero, if_false, and_false, iff_false]
      split
      · simp
      · simp [modulo_eq_error, isZero_of_int? hq, hzero]
  · exact modulo_eq_error

/-- The expression that a value has to be. -/
def exprOf (v : Value) : Calculated Expr :=
  match v.expr? with
  | some e => .ok e
  | none => .error .unreadable

theorem exprOf_eq_ok {v : Value} {e : Expr} : exprOf v = .ok e ↔ v.expr? = some e := by
  rw [exprOf]
  cases v.expr? <;> simp

theorem contained_exprOf (v : Value) : Contained (exprOf v) := by
  rw [exprOf]
  cases v.expr? <;> simp

theorem contained_workedOut (v : Option Value) : Contained (workedOut v) := by
  rw [workedOut.eq_def]
  split <;> simp

/-- The index of a root; the principal root has none. -/
def branchOf : Option Value → Calculated Expr
  | some k => exprOf k
  | none => .ok Expr.zero

theorem applyPower_root (read : TextReader) (x n : Value) (k w : Option Value) :
    applyPower read "root" [some x, some n, k, w] =
      branchOf k >>= fun k => workedOut w >>= fun worked => exprOf x >>= fun x =>
        described read n >>= fun n => .ok (rootOf worked x n k) := by
  cases k <;> rfl

theorem applyPower_pow (read : TextReader) (b e m : Value) :
    applyPower read "pow" [some b, some e, some m] =
      exprOf b >>= fun b => exprOf e >>= fun e => exprOf m >>= fun m => powerModulo b e m := rfl

/-- The ways in which roots and powers slip, by their arguments in order. -/
inductive PowerSlips (fails : String → ParseFault → Prop) (name : String) :
    List (Option Value) → ParseFault → Prop where
  /-- the degree of a root is a text that fails -/
  | degree {x n : Value} {k w : Option Value} {branch radicand : Expr} {worked : Bool} {s : String}
    {fault : ParseFault} (hname : name = "root") (hk : branchOf k = .ok branch)
    (hw : workedOut w = .ok worked) (hx : x.expr? = some radicand) (hn : n.source? = some s)
    (hs : fails s fault) : PowerSlips fails name [some x, some n, k, w] fault
  /-- the remainder of a power is divided by zero -/
  | remainder {b e m : Value} {x y z : Expr} (hname : name = "pow") (hb : b.expr? = some x)
    (he : e.expr? = some y) (hm : m.expr? = some z) (hz : z.isZero) :
    PowerSlips fails name [some b, some e, some m] .divisionByZero

theorem applyPower_eq_error {read : TextReader} {fails : String → ParseFault → Prop} {name : String}
    {args : List (Option Value)} (hf : fault.escapes)
    (hfails : ∀ s, fails s fault ↔ read s = .error fault) :
    applyPower read name args = .error fault ↔ PowerSlips fails name args fault := by
  have hplain := fun v => (contained_exprOf v).ne_error hf
  have hworked := fun v => (contained_workedOut v).ne_error hf
  have hother : ∀ {name : String} {args : List (Option Value)}, name ≠ "root" → name ≠ "pow" →
      ¬ PowerSlips fails name args fault := by
    intro name args hroot hpow h
    cases h with
    | degree hname => exact hroot hname
    | remainder hname => exact hpow hname
  rw [applyPower.eq_def]
  split
  case h_3 x n k w =>
    show (applyPower read "root" [some x, some n, k, w] = _) ↔ _
    have hbranch : branchOf k ≠ .error fault := by
      cases k with
      | none => exact nofun
      | some v => exact hplain v
    simp only [applyPower_root, bind_eq_error, hbranch, hworked, hplain, described_eq_error hf,
      exprOf_eq_ok, false_or, reduceCtorEq, and_false, exists_false, or_false]
    constructor
    · rintro ⟨branch, hk, worked, hw, radicand, hx, s, hn, hs⟩
      exact .degree rfl hk hw hx hn ((hfails s).2 hs)
    · intro h
      cases h with
      | degree _ hk hw hx hn hs => exact ⟨_, hk, _, hw, _, hx, _, hn, (hfails _).1 hs⟩
  case h_6 b e m =>
    show (applyPower read "pow" [some b, some e, some m] = _) ↔ _
    simp only [applyPower_pow, bind_eq_error, hplain, powerModulo_eq_error, exprOf_eq_ok, false_or]
    constructor
    · rintro ⟨x, hb, y, he, z, hm, rfl, hz⟩
      exact .remainder rfl hb he hm hz
    · intro h
      cases h with
      | remainder _ hb he hm hz => exact ⟨_, hb, _, he, _, hm, rfl, hz⟩
  case h_1 x w | h_2 x w =>
    refine iff_of_false (Contained.ne_error ?_ hf) (hother (by decide) (by decide))
    exact (contained_workedOut w).bind fun _ => (contained_exprOf x).bind fun _ => contained_ok _
  case h_4 b e w =>
    refine iff_of_false (Contained.ne_error ?_ hf) (hother (by decide) (by decide))
    exact (contained_workedOut w).bind fun _ => (contained_exprOf b).bind fun _ =>
      (contained_exprOf e).bind fun _ => contained_ok _
  case h_5 b e =>
    refine iff_of_false (Contained.ne_error ?_ hf) nofun
    exact (contained_exprOf b).bind fun _ => (contained_exprOf e).bind fun _ => contained_ok _
  case h_7 p q =>
    refine iff_of_false (Contained.ne_error ?_ hf) (hother (by decide) (by decide))
    exact (contained_exprOf p).bind fun _ => (contained_exprOf q).bind fun _ => contained_ok _
  case h_8 p => exact iff_of_false (hplain p) (hother (by decide) (by decide))
  case h_9 hroot _ _ hpow _ _ =>
    refine iff_of_false (contained_unreadable.ne_error hf) fun h => ?_
    cases h with
    | degree hname => exact hroot _ _ _ _ hname rfl
    | remainder hname => exact hpow _ _ _ hname rfl

/-! ## Methods -/

/-- Only putting a value into a remainder divides by zero. -/
theorem applyPart_eq_divisionByZero {e : Expr} {name : String} {es : List Expr} :
    e.applyPart name es = .divisionByZero ↔
      name = "subs" ∧ ∃ s v, es = [.symbol s, v] ∧ Expr.substitute s v e = .error .divisionByZero := by
  rw [Expr.applyPart.eq_def]
  split
  case h_1 => split <;> simp
  case h_2 => cases Expr.derivativeBy es e <;> simp
  case h_3 s v =>
    cases h : Expr.substitute s v e with
    | ok r => simp [h]
    | error refusal => cases refusal <;> simp [h, and_assoc]
  case h_16 hsubs _ _ _ _ _ _ _ _ _ _ =>
    refine iff_of_false nofun ?_
    rintro ⟨hname, s, v, hes, -⟩
    exact hsubs s v hname hes
  all_goals simp

theorem applyMethod_eq_error {read : TextReader} {fails : String → Prop} {e : Expr} {name : String}
    {vs : List Value} (hf : fault.escapes) (hfails : ∀ s, fails s ↔ read s = .error fault) :
    applyMethod read e name vs = .error fault ↔
      ReadsUpTo read fails vs ∨
        fault = .divisionByZero ∧ ∃ es, vs.mapM (described read) = .ok es ∧
          e.applyPart name es = .divisionByZero := by
  have hunreadable := unreadable_ne hf
  rw [applyMethod, bind_eq_error, mapM_described_eq_error hf hfails]
  refine or_congr_right ?_
  rw [← exists_and_left]
  refine exists_congr fun es => ?_
  rw [and_left_comm]
  refine and_congr_right fun _ => ?_
  cases e.applyPart name es with
  | divisionByZero => simp [throw, throwThe, MonadExceptOf.throw, eq_comm]
  | refused => simp [throw, throwThe, MonadExceptOf.throw, hunreadable]
  | _ => simp [pure, Except.pure]

/-! ## All applications -/

/-- The values that an application reads as expressions, whatever it does with them. -/
def readBy : Value → Arguments → List Value
  | .callable name, a =>
    if isMathematical name then a.values
    else if transformations.contains name && a.named.isEmpty then a.values
    else if ["S", "sympify"].contains name && a.values.length == 1 && a.named.isEmpty then a.values
    else []
  | .method _ _, a => if a.named.isEmpty then a.values else []
  | _, _ => []

/-- The ways in which an application slips; `fails` says how the reading of a text does. -/
inductive CallSlips (read : TextReader) (fails : String → ParseFault → Prop) (f : Value)
    (a : Arguments) : ParseFault → Prop where
  /-- a text among the arguments fails -/
  | text {fault : ParseFault} (h : ReadsUpTo read (fails · fault) (readBy f a)) :
    CallSlips read fails f a fault
  /-- a root or a power slips -/
  | power {name : String} {names : List String} {args : List (Option Value)} {fault : ParseFault}
    (hf : f = .callable name) (hnames : parameters.lookup name = some names)
    (hargs : inOrder? names a = some args) (h : PowerSlips fails name args fault) :
    CallSlips read fails f a fault
  /-- a remainder of a division by zero -/
  | remainder {x m : Expr} (hf : f = .callable "Mod") (hworked : workedBy a.named = .ok true)
    (hvalues : a.values.mapM (described read) = .ok [x, m]) (hm : m.isZero) :
    CallSlips read fails f a .divisionByZero
  /-- a value for a variable that makes a divisor zero -/
  | substitution {e v : Expr} {s : String} (hf : f = .method e "subs") (hnamed : a.named = [])
    (hvalues : a.values.mapM (described read) = .ok [.symbol s, v])
    (hv : Expr.substitute s v e = .error .divisionByZero) : CallSlips read fails f a .divisionByZero

section

variable {read : TextReader} {fails : String → ParseFault → Prop} {name : String} {a : Arguments}

/-- Roots and powers are none of the functions that read all their arguments. -/
theorem readBy_of_parameters {names : List String} (h : parameters.lookup name = some names) :
    isMathematical name = false ∧ readBy (.callable name) a = [] := by
  obtain ⟨before, after, heq, -⟩ := List.lookup_eq_some_iff.1 h
  have hall : ∀ p ∈ parameters, isMathematical p.1 = false ∧
      transformations.contains p.1 = false ∧ ["S", "sympify"].contains p.1 = false := by decide
  obtain ⟨hmath, htransformation, hsympify⟩ :=
    hall (name, names) (heq ▸ List.mem_append_right before List.mem_cons_self)
  exact ⟨hmath, by simp only [readBy, hmath, htransformation, hsympify]; rfl⟩

/-- A function of mathematics slips where it reads, or as a remainder. -/
theorem callSlips_of_mathematical (h : isMathematical name) :
    CallSlips read fails (.callable name) a fault ↔
      ReadsUpTo read (fails · fault) a.values ∨
        fault = .divisionByZero ∧ name = "Mod" ∧ workedBy a.named = .ok true ∧
          ∃ x m, a.values.mapM (described read) = .ok [x, m] ∧ m.isZero := by
  have hread : readBy (.callable name) a = a.values := by simp [readBy, h]
  constructor
  · intro hslips
    cases hslips with
    | text hreads => exact .inl (hread ▸ hreads)
    | power hname hnames =>
      obtain rfl := Value.callable.inj hname
      exact absurd h (by simp [(readBy_of_parameters (a := a) hnames).1])
    | remainder hname hworked hvalues hm =>
      exact .inr ⟨rfl, Value.callable.inj hname, hworked, _, _, hvalues, hm⟩
    | substitution hname => exact absurd hname nofun
  · rintro (hreads | ⟨rfl, rfl, hworked, x, m, hvalues, hm⟩)
    · exact .text (hread ▸ hreads)
    · exact .remainder rfl hworked hvalues hm

/-- A root or a power slips by its arguments in order. -/
theorem callSlips_of_parameters {names : List String} (h : parameters.lookup name = some names) :
    CallSlips read fails (.callable name) a fault ↔
      ∃ args, inOrder? names a = some args ∧ PowerSlips fails name args fault := by
  obtain ⟨hmath, hread⟩ := readBy_of_parameters (a := a) h
  constructor
  · intro hslips
    cases hslips with
    | text hreads => exact (hread ▸ hreads : ReadsUpTo read _ []).elim
    | power hname hnames hargs hslips =>
      obtain rfl := Value.callable.inj hname
      obtain rfl := Option.some.inj (h.symm.trans hnames)
      exact ⟨_, hargs, hslips⟩
    | remainder hname =>
      obtain rfl := Value.callable.inj hname
      exact absurd hmath (by decide)
    | substitution hname => exact absurd hname nofun
  · rintro ⟨args, hargs, hslips⟩
    exact .power rfl h hargs hslips

/-- Any other function slips only where it reads. -/
theorem callSlips_of_other (hmath : isMathematical name = false)
    (hparameters : parameters.lookup name = none) :
    CallSlips read fails (.callable name) a fault ↔
      ReadsUpTo read (fails · fault) (readBy (.callable name) a) := by
  refine ⟨fun hslips => ?_, .text⟩
  cases hslips with
  | text hreads => exact hreads
  | power hname hnames =>
    obtain rfl := Value.callable.inj hname
    exact absurd (hparameters.symm.trans hnames) nofun
  | remainder hname =>
    obtain rfl := Value.callable.inj hname
    exact absurd hmath (by decide)
  | substitution hname => exact absurd hname nofun

/-- A method slips where it reads, or where it makes a divisor zero. -/
theorem callSlips_of_method {e : Expr} (hnamed : a.named = []) :
    CallSlips read fails (.method e name) a fault ↔
      ReadsUpTo read (fails · fault) a.values ∨
        fault = .divisionByZero ∧ ∃ es, a.values.mapM (described read) = .ok es ∧
          e.applyPart name es = .divisionByZero := by
  have hread : readBy (.method e name) a = a.values := by simp [readBy, hnamed]
  constructor
  · intro hslips
    cases hslips with
    | text hreads => exact .inl (hread ▸ hreads)
    | power h => exact absurd h nofun
    | remainder h => exact absurd h nofun
    | substitution h _ hvalues hv =>
      obtain ⟨rfl, rfl⟩ := Value.method.inj h
      exact .inr ⟨rfl, _, hvalues, applyPart_eq_divisionByZero.2 ⟨rfl, _, _, rfl, hv⟩⟩
  · rintro (hreads | ⟨rfl, es, hvalues, hpart⟩)
    · exact .text (hread ▸ hreads)
    · obtain ⟨rfl, s, v, rfl, hv⟩ := applyPart_eq_divisionByZero.1 hpart
      exact .substitution rfl hnamed hvalues hv

end

theorem methodOf_ne_subs {name : String} (h : transformations.contains name) :
    methodOf name ≠ "subs" := by
  have hall : ∀ name ∈ transformations, methodOf name ≠ "subs" := by decide
  exact hall name (List.contains_iff_mem.1 h)

/-- A transformation slips where it reads. -/
theorem transform_eq_error {read : TextReader} {fails : String → Prop} {name : String} {v : Value}
    {rest : List Value} (hf : fault.escapes) (hfails : ∀ s, fails s ↔ read s = .error fault)
    (h : transformations.contains name) :
    (described read v >>= fun e => applyMethod read e (methodOf name) rest) = .error fault ↔
      ReadsUpTo read fails (v :: rest) := by
  have hmethod : ∀ e, applyMethod read e (methodOf name) rest = .error fault ↔
      ReadsUpTo read fails rest := by
    intro e
    rw [applyMethod_eq_error hf hfails]
    simp [applyPart_eq_divisionByZero, methodOf_ne_subs h]
  simp only [bind_eq_error, described_eq_error hf, hmethod, ReadsUpTo, hfails, exists_and_right]

theorem readBy_of_transformation {name : String} {a : Arguments}
    (hmath : isMathematical name = false)
    (h : transformations.contains name && a.named.isEmpty) :
    readBy (.callable name) a = a.values := by
  rw [readBy, if_neg (by simp [hmath]), if_pos h]

theorem readBy_of_other {name : String} {a : Arguments} (hmath : isMathematical name = false)
    (htransformation : ¬ (transformations.contains name && a.named.isEmpty) = true)
    (hsympify : ¬ (["S", "sympify"].contains name && a.values.length == 1 && a.named.isEmpty) =
      true) : readBy (.callable name) a = [] := by
  rw [readBy, if_neg (by simp [hmath]), if_neg htransformation, if_neg hsympify]

/-- **An application slips in one of these ways.** -/
theorem call_eq_error {read : TextReader} {fails : String → ParseFault → Prop} {f : Value}
    {a : Arguments} (hf : fault.escapes) (hfails : ∀ s, fails s fault ↔ read s = .error fault) :
    call read f a = .error fault ↔ CallSlips read fails f a fault := by
  have hunreadable := unreadable_ne hf
  rw [call.eq_def]
  split
  case h_1 xs _ _ =>
    rw [callSlips_of_other (by decide) (by decide)]
    exact iff_of_false ((contained_total xs _).ne_error hf) id
  case h_2 | h_3 | h_4 =>
    rw [callSlips_of_other (by decide) (by decide)]
    exact iff_of_false nofun id
  case h_5 q _ _ =>
    rw [callSlips_of_other (by decide) (by decide)]
    refine iff_of_false (Contained.ne_error ?_ hf) id
    simp
  case h_6 v hvalues hnamed | h_7 v hvalues hnamed =>
    rw [callSlips_of_other (by decide) (by decide), map_eq_error, described_eq_error hf]
    simp only [readBy, hvalues, hnamed]
    simp [show isMathematical "S" = false by decide, show isMathematical "sympify" = false by decide,
      ReadsUpTo, hfails]
  case h_8 name _ _ _ _ _ hS hsympify =>
    split
    · rename_i hmath
      rw [callSlips_of_mathematical hmath, applyMathematical_eq_error hf hfails]
    · rename_i hmath
      rw [Bool.not_eq_true] at hmath
      split
      · rename_i names hnames
        rw [callSlips_of_parameters hnames]
        split
        · rename_i args hargs
          rw [map_eq_error, applyPower_eq_error hf hfails]
          simp [hargs]
        · rename_i hargs
          simp [hargs, hunreadable]
      · rename_i hnames
        rw [callSlips_of_other hmath hnames]
        split
        · rename_i htransformation
          rw [readBy_of_transformation hmath htransformation]
          cases a.values with
          | nil => exact iff_of_false (contained_unreadable.ne_error hf) id
          | cons v rest =>
            rw [Bool.and_eq_true] at htransformation
            exact transform_eq_error hf hfails htransformation.1
        · rename_i htransformation
          have hread : readBy (.callable name) a = [] := by
            refine readBy_of_other hmath htransformation fun h => ?_
            simp only [List.contains_cons, List.contains_nil, Bool.or_false, Bool.and_eq_true,
              Bool.or_eq_true, beq_iff_eq, List.isEmpty_iff] at h
            obtain ⟨⟨hname, hlength⟩, hnamed⟩ := h
            obtain ⟨v, hvalues⟩ := List.length_eq_one_iff.1 hlength
            exact hname.elim (hS v hvalues hnamed) (hsympify v hvalues hnamed)
          rw [hread]
          refine iff_of_false (Contained.ne_error ?_ hf) id
          split
          · refine (contained_applyNamed ?_ _).map _
            rintro rfl
            exact absurd hmath (by decide)
          · simp
  case h_9 e name hnamed =>
    rw [applyMethod_eq_error hf hfails, callSlips_of_method hnamed]
  case h_10 hcallable hmethod _ _ _ _ _ _ _ =>
    refine iff_of_false (contained_unreadable.ne_error hf) fun hslips => ?_
    cases hslips with
    | text hread =>
      rw [readBy.eq_def] at hread
      split at hread
      · exact hcallable _ rfl
      · rw [if_neg fun h => hmethod _ _ rfl (List.isEmpty_iff.1 h)] at hread
        exact hread
      · exact hread
    | power h => exact hcallable _ h
    | remainder h => exact hcallable _ h
    | substitution h hnamed => exact hmethod _ _ h hnamed

end Value

end ErrorBars.Formula
