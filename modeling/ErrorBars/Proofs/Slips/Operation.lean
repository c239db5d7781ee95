import ErrorBars.Formula.Parse

/-!
# How operations slip

An operation on something it is not made for makes the text unreadable, and the engine has a wording
for that.  A few operations fail in other ways, which the engine passes on as they are
(`ParseFault.escapes`): they divide by zero, go beyond the end of a list, or miss a key.

`Slips` lists all the ways in which one operation can do that, by its operands alone, and
`result_eq_error_iff` says that there are no others.  For all functions that are not on this list it
is enough to know that they are `Contained`.
-/

set_option autoImplicit false

namespace ErrorBars.Formula

/-- Whether a fault is passed on as it is, instead of being put down to the text. -/
def ParseFault.escapes : ParseFault → Bool
  | .unreadable => false
  | .notScalar => false
  | .outOfRange => true
  | .missingKey => true
  | .divisionByZero => true

theorem unreadable_ne {fault : ParseFault} (h : fault.escapes) : ParseFault.unreadable ≠ fault := by
  rintro rfl
  exact absurd h nofun

section

variable {α β : Type} {fault : ParseFault}

/-- A calculation that fails does so at its first part or behind it. -/
theorem bind_eq_error {c : Calculated α} {k : α → Calculated β} :
    (c >>= k) = .error fault ↔ c = .error fault ∨ ∃ x, c = .ok x ∧ k x = .error fault := by
  cases c <;> simp [bind, Except.bind]

theorem map_eq_error {c : Calculated α} {f : α → β} :
    c.map f = .error fault ↔ c = .error fault := by
  cases c <;> simp [Except.map]

/-! ## Faults that stay -/

/-- If the calculation fails, then the text is to blame. -/
def Contained (c : Calculated α) : Prop := ∀ fault, c = .error fault → fault.escapes = false

@[simp] theorem contained_ok (x : α) : Contained (.ok x : Calculated α) := nofun

@[simp] theorem contained_unreadable : Contained (.error .unreadable : Calculated α) := by
  rintro _ ⟨⟩
  rfl

@[simp] theorem contained_ite {p : Prop} [Decidable p] {c d : Calculated α} :
    Contained (if p then c else d) ↔ (p → Contained c) ∧ (¬p → Contained d) := by
  split <;> simp [*]

theorem Contained.bind {c : Calculated α} {k : α → Calculated β} (hc : Contained c)
    (hk : ∀ x, Contained (k x)) : Contained (c >>= k) := by
  intro fault h
  rcases bind_eq_error.1 h with h | ⟨x, -, h⟩
  · exact hc fault h
  · exact hk x fault h

theorem Contained.map {c : Calculated α} (hc : Contained c) (f : α → β) : Contained (c.map f) :=
  fun fault h => hc fault (map_eq_error.1 h)

theorem Contained.ne_error {c : Calculated α} (hc : Contained c) (hf : fault.escapes) :
    c ≠ .error fault := fun h => absurd (hc fault h) (by simp [hf])

end

/-- Whether an operation can divide by zero. -/
def BinaryOp.divides : BinaryOp → Bool
  | .div => true
  | .floorDiv => true
  | .modulo => true
  | .power => true
  | _ => false

namespace Value

/-! ## Operations that do not slip -/

@[simp] theorem contained_truth (v : Value) : Contained v.truth := by
  cases v <;> simp [truth]

@[simp] theorem contained_connect (op : BinaryOp) (a b : Value) : Contained (connect op a b) := by
  unfold connect
  split
  · split
    · split <;> simp
    · simp
  · simp

@[simp] theorem contained_unary (op : UnaryOp) (a : Value) : Contained (unary op a) := by
  unfold unary
  split
  · exact (contained_truth _).bind fun _ => contained_ok _
  case h_5 | h_9 => split <;> simp
  all_goals simp

theorem contained_orderExprs (c : Comparison) (a b : Expr) : Contained (orderExprs c a b) := by
  simp [orderExprs]

@[simp] theorem contained_compare (c : Comparison) (a b : Value) : Contained (compare c a b) := by
  unfold compare
  split
  case h_5 | h_6 => split <;> simp
  case h_7 =>
    split
    · simp
    · simp
    · split
      · simp
      · split
        · exact contained_orderExprs _ _ _
        · simp
  all_goals simp

@[simp] theorem contained_bound? (v : Value) : Contained v.bound? := by
  unfold bound?
  split
  · simp
  · split <;> simp

@[simp] theorem contained_part (v : Value) (name : String) : Contained (v.part name) := by
  unfold part
  split
  · split <;> simp
  · simp

@[simp] theorem contained_slice {α : Type} (xs : List α) (first stop step : Option Int) :
    Contained (slice xs first stop step) := by
  simp [slice]

/-! ## Divisions by zero -/

/-- The expressions that an operation works with; a truth value beside a whole number counts as zero
or one. -/
def operands? : Value → Value → Option (Expr × Expr)
  | .flag x, .scalar e => if e.isInteger then some (Expr.int (if x then 1 else 0), e) else none
  | .scalar e, .flag x => if e.isInteger then some (e, Expr.int (if x then 1 else 0)) else none
  | a, b =>
    match a.expr?, b.expr? with
    | some x, some y => some (x, y)
    | _, _ => none

/-- The operations that involve a division by zero. -/
inductive DividesByZero : BinaryOp → Value → Value → Prop where
  /-- a quotient or a remainder of plain whole numbers -/
  | plain {op : BinaryOp} {a b : Value} {m : Int} (hop : op ∈ [.div, .floorDiv, .modulo])
    (ha : a.plain? = some m) (hb : b.plain? = some 0) : DividesByZero op a b
  /-- a negative power of a plain zero -/
  | reciprocal {a b : Value} {n : Int} (ha : a.plain? = some 0) (hb : b.plain? = some n)
    (hn : n < 0) : DividesByZero .power a b
  /-- a remainder of an expression -/
  | remainder {a b : Value} {x y : Expr} (h : operands? a b = some (x, y)) (hy : y.isZero) :
    DividesByZero .modulo a b
  /-- the whole part of a quotient of a whole number -/
  | wholePart {a b : Value} {x y : Expr} {m : Int} (h : operands? a b = some (x, y))
    (hx : x.int? = some m) (hy : y.isZero) : DividesByZero .floorDiv a b

section

variable {fault : ParseFault} {op : BinaryOp} {a b : Value}

theorem isZero_of_int? {e : Expr} {n : Int} (h : e.int? = some n) : e.isZero ↔ n = 0 := by
  cases e with
  | rat q =>
    simp only [Expr.int?, Option.ite_none_right_eq_some, Option.some.injEq] at h
    simp [Expr.isZero, ← h.2]
  | _ => simp [Expr.int?] at h

theorem int?_int (n : Int) : (Expr.int n).int? = some n := by
  simp [Expr.int, Expr.int?]

theorem modulo_eq_error {x y : Expr} :
    modulo x y = .error fault ↔ fault = .divisionByZero ∧ y.isZero := by
  rw [modulo]
  split <;> simp [*, eq_comm]

theorem floorDiv_eq_error {x y : Expr} :
    floorDiv x y = .error fault ↔
      fault = .divisionByZero ∧ (∃ m, x.int? = some m) ∧ y.isZero := by
  unfold floorDiv
  split
  · rename_i m n hx hy
    rw [isZero_of_int? hy]
    split <;> simp [*, eq_comm]
  · rename_i m hx hy
    split <;> simp [*, eq_comm]
  · rename_i hx hy
    cases hm : x.int? with
    | none => simp
    | some m =>
      cases hn : y.int? with
      | none => exact absurd hn (hy m hm)
      | some n => exact absurd hn (hx m n hm)

theorem onPlain_eq_error {m n : Int} (hf : fault.escapes) :
    onPlain op m n = .error fault ↔ fault = .divisionByZero ∧
      (op ∈ [.div, .floorDiv, .modulo] ∧ n = 0 ∨ op = .power ∧ m = 0 ∧ n < 0) := by
  have hunreadable := unreadable_ne hf
  cases op with
  | div => by_cases hn : n = 0 <;> simp [onPlain, hn, eq_comm]
  | floorDiv => by_cases hn : n = 0 <;> simp [onPlain, hn, eq_comm]
  | modulo => by_cases hn : n = 0 <;> simp [onPlain, hn, eq_comm]
  | power =>
    by_cases hn : 0 ≤ n
    · simp [onPlain, hn, Int.not_lt.2 hn]
    · by_cases hm : m = 0 <;> simp [onPlain, hn, hm, Int.not_le.1 hn, eq_comm]
  | _ => simp [onPlain, hunreadable]

theorem onExprs_eq_error {x y : Expr} (hf : fault.escapes) :
    onExprs op x y = .error fault ↔ fault = .divisionByZero ∧ y.isZero ∧
      (op = .modulo ∨ op = .floorDiv ∧ ∃ m, x.int? = some m) := by
  have hunreadable := unreadable_ne hf
  cases op with
  | floorDiv => simp [onExprs, map_eq_error, floorDiv_eq_error, and_comm]
  | modulo => simp [onExprs, map_eq_error, modulo_eq_error]
  | _ => simp [onExprs, hunreadable]

/-- Operations that can divide by zero work with plain whole numbers, or else with expressions. -/
theorem binary_of_divides (hop : op.divides) (a b : Value) :
    binary op a b =
      match a.plain?, b.plain? with
      | some m, some n => onPlain op m n
      | _, _ =>
        match operands? a b with
        | some (x, y) => onExprs op x y
        | none => .error .unreadable := by
  cases op <;> try exact absurd hop (by decide)
  all_goals
    cases a with
    | flag x =>
      cases b with
      | scalar e => cases h : e.isInteger <;> simp [binary, plain?, operands?, h]
      | _ => rfl
    | scalar e =>
      cases b with
      | flag x => cases h : e.isInteger <;> simp [binary, plain?, operands?, h]
      | _ => rfl
    | _ => cases b <;> rfl

/-- Operations that cannot divide by zero do not slip. -/
theorem contained_binary (hop : op.divides = false) (a b : Value) : Contained (binary op a b) := by
  have hplain : ∀ m n, Contained (onPlain op m n) := by
    intro m n
    cases op <;> first | exact absurd hop (by decide) | simp [onPlain]
  have hexprs : ∀ x y, Contained (onExprs op x y) := by
    intro x y
    cases op <;> first | exact absurd hop (by decide) | simp [onExprs]
  rw [binary.eq_def]
  split
  case h_5 =>
    split
    · exact hplain _ _
    · split
      case h_7 | h_8 => simp [hexprs]
      case h_9 =>
        split
        · exact hexprs _ _
        · simp
      case h_2 => simp
      all_goals (split <;> simp)
  all_goals exact contained_connect _ _ _

/-- The second of two plain whole numbers, as an expression. -/
theorem eq_of_operands? {m n : Int} {x y : Expr} (ha : a.plain? = some m) (hb : b.plain? = some n)
    (h : operands? a b = some (x, y)) : y = Expr.int n := by
  cases a <;> simp only [plain?, reduceCtorEq] at ha <;>
    cases b <;> simp only [plain?, reduceCtorEq, Option.some.injEq] at hb <;>
    simp_all [operands?, expr?]

/-- **An operation slips if and only if it divides by zero.** -/
theorem binary_eq_error (hf : fault.escapes) :
    binary op a b = .error fault ↔ fault = .divisionByZero ∧ DividesByZero op a b := by
  have hunreadable := unreadable_ne hf
  cases hop : op.divides with
  | false =>
    refine iff_of_false ((contained_binary hop a b).ne_error hf) ?_
    rintro ⟨-, h⟩
    cases h with
    | plain hmem => cases op <;> simp_all [BinaryOp.divides]
    | _ => exact absurd hop nofun
  | true =>
    rw [binary_of_divides hop]
    split
    · rename_i m n ha hb
      rw [onPlain_eq_error hf]
      refine and_congr_right fun _ => ⟨?_, fun h => ?_⟩
      · rintro (⟨hmem, rfl⟩ | ⟨rfl, rfl, hn⟩)
        · exact .plain hmem ha hb
        · exact .reciprocal ha hb hn
      · cases h with
        | plain hmem _ hb' => exact .inl ⟨hmem, Option.some.inj (hb.symm.trans hb')⟩
        | reciprocal ha' hb' hn =>
          obtain rfl := Option.some.inj (hb.symm.trans hb')
          exact .inr ⟨rfl, Option.some.inj (ha.symm.trans ha'), hn⟩
        | remainder h hy =>
          rw [eq_of_operands? ha hb h, isZero_of_int? (int?_int n)] at hy
          exact .inl ⟨by simp, hy⟩
        | wholePart h _ hy =>
          rw [eq_of_operands? ha hb h, isZero_of_int? (int?_int n)] at hy
          exact .inl ⟨by simp, hy⟩
    · rename_i hplain
      cases ho : operands? a b with
      | none =>
        refine iff_of_false (fun h => hunreadable (Except.error.inj h)) ?_
        rintro ⟨-, h⟩
        cases h with
        | plain _ ha hb => exact hplain _ _ ha hb
        | reciprocal ha hb => exact hplain _ _ ha hb
        | remainder h => exact absurd (ho.symm.trans h) nofun
        | wholePart h => exact absurd (ho.symm.trans h) nofun
      | some p =>
        obtain ⟨x, y⟩ := p
        simp only
        rw [onExprs_eq_error hf]
        refine and_congr_right fun _ => ⟨?_, fun h => ?_⟩
        · rintro ⟨hy, rfl | ⟨rfl, m, hx⟩⟩
          · exact .remainder ho hy
          · exact .wholePart ho hx hy
        · cases h with
          | plain _ ha hb => exact absurd hb (hplain _ _ ha)
          | reciprocal ha hb => exact absurd hb (hplain _ _ ha)
          | remainder h hy =>
            obtain ⟨rfl, rfl⟩ := Prod.mk.inj (Option.some.inj (ho.symm.trans h))
            exact ⟨hy, .inl rfl⟩
          | wholePart h hx hy =>
            obtain ⟨rfl, rfl⟩ := Prod.mk.inj (Option.some.inj (ho.symm.trans h))
            exact ⟨hy, .inr ⟨rfl, _, hx⟩⟩

end

/-! ## Positions and keys -/

/-- A position lies beyond the ends of a list of this length. -/
def BeyondEnd (size : Nat) (i : Value) : Prop := ∃ n, i.count? = some n ∧ (n < -size ∨ size ≤ n)

/-- How many positions a value has. -/
def size? : Value → Option Nat
  | .items _ xs => some xs.length
  | .text q => some q.content.length
  | _ => none

/-- The ways in which there is no part of a value. -/
inductive LacksPart : Value → Value → ParseFault → Prop where
  /-- a position beyond the ends of a list or a text -/
  | position {a i : Value} {n : Nat} (hsize : a.size? = some n) (hi : BeyondEnd n i) :
    LacksPart a i .outOfRange
  /-- a key that a mapping does not hold -/
  | key {entries : List (Value × Value)} {i : Value} (hi : i.isKey)
    (hlacks : ∀ e ∈ entries, same e.1 i = false) : LacksPart (.mapping entries) i .missingKey

section

variable {fault : ParseFault}

theorem memberAt_eq_error {α : Type} {xs : List α} {i : Value} (hf : fault.escapes) :
    memberAt xs i = .error fault ↔ fault = .outOfRange ∧ BeyondEnd xs.length i := by
  rw [memberAt, BeyondEnd]
  cases hi : i.count? with
  | none =>
    refine iff_of_false ?_ (by simp)
    rintro ⟨⟩
    exact absurd hf nofun
  | some n =>
    simp only [Option.some.injEq, exists_eq_left']
    generalize hk : (if n < 0 then n + xs.length else n) = k
    -- the position counted from the front lies outside just when the one that is given does
    have houtside : (n < -xs.length ∨ xs.length ≤ n) ↔ (k < 0 ∨ xs.length ≤ k) := by
      split at hk <;> omega
    rw [houtside]
    by_cases hneg : k < 0
    · simp [hneg, eq_comm]
    · cases hx : xs[k.toNat]? with
      | none =>
        have hlen : (xs.length : Int) ≤ k := by
          have := List.getElem?_eq_none_iff.1 hx
          omega
        simp [hneg, hlen, eq_comm]
      | some x =>
        have hlen : ¬ (xs.length : Int) ≤ k := by
          have := (List.getElem?_eq_some_iff.1 hx).1
          omega
        simp [hneg, hlen]

theorem lacksPart_of_size {a i : Value} {n : Nat} (ha : a.size? = some n) :
    LacksPart a i fault ↔ fault = .outOfRange ∧ BeyondEnd n i := by
  refine ⟨fun h => ?_, fun ⟨hfault, hi⟩ => hfault ▸ .position ha hi⟩
  cases h with
  | position hsize hi => exact ⟨rfl, Option.some.inj (ha.symm.trans hsize) ▸ hi⟩
  | key => exact absurd ha nofun

theorem lacksPart_mapping {entries : List (Value × Value)} {i : Value} :
    LacksPart (.mapping entries) i fault ↔
      fault = .missingKey ∧ i.isKey ∧ ∀ e ∈ entries, same e.1 i = false := by
  refine ⟨fun h => ?_, fun ⟨hfault, hi, hlacks⟩ => hfault ▸ .key hi hlacks⟩
  cases h with
  | position hsize => exact absurd hsize nofun
  | key hi hlacks => exact ⟨rfl, hi, hlacks⟩

/-- **A part of a value is missing in one of these ways, or it is no part that can be asked for.** -/
theorem index_eq_error {a i : Value} (hf : fault.escapes) :
    index a i = .error fault ↔ LacksPart a i fault := by
  have hunreadable := unreadable_ne hf
  have hrange : ∀ n first stop step, ¬ BeyondEnd n (.range first stop step) := by
    rintro n first stop step ⟨_, h, -⟩
    exact absurd h nofun
  rw [index.eq_def]
  split
  · rw [lacksPart_of_size rfl, map_eq_error]
    exact iff_of_false ((contained_slice _ _ _ _).ne_error hf) fun h => hrange _ _ _ _ h.2
  · rw [lacksPart_of_size rfl, memberAt_eq_error hf]
  · rw [lacksPart_of_size rfl, map_eq_error]
    exact iff_of_false ((contained_slice _ _ _ _).ne_error hf) fun h => hrange _ _ _ _ h.2
  · rw [lacksPart_of_size rfl, map_eq_error, memberAt_eq_error hf]
  · rename_i entries
    rw [lacksPart_mapping]
    cases hi : i.isKey with
    | false => simp [hunreadable]
    | true =>
      cases hfound : entries.find? fun e => same e.1 i with
      | none =>
        have hlacks : ∀ e ∈ entries, same e.1 i = false := by
          simpa using List.find?_eq_none.1 hfound
        simp only [Bool.not_true, Bool.false_eq_true, if_false, Except.error.injEq]
        exact ⟨fun h => ⟨h.symm, trivial, hlacks⟩, fun h => h.1.symm⟩
      | some e =>
        refine iff_of_false (by simp) fun h => ?_
        have hsame := List.find?_some hfound
        exact absurd hsame (by simp [h.2.2 e (List.mem_of_find?_eq_some hfound)])
  · refine iff_of_false (fun h => hunreadable (Except.error.inj h)) fun h => ?_
    rename_i hitems htext hmapping _ _
    cases h with
    | @position a _ _ hsize _ =>
      cases a with
      | items _ xs => exact hitems _ _ rfl
      | text q => exact htext _ rfl
      | _ => exact absurd hsize nofun
    | key => exact hmapping _ rfl

end

end Value

end ErrorBars.Formula
