import ErrorBars.Formula.Phrase
import ErrorBars.Expr.Remainder

/-!
# Values of phrases

Most phrases mean an expression; the others mean truth values, texts, lists or functions, which a
formula may hold but not be.  An operation on something it is not made for makes the formula
unreadable, and so does a comparison that has to be decided and cannot be.

There are two kinds of truth values.  Whether two things are the same is a `flag`, which also counts
as zero or one; the order of two expressions is a `verdict`, which does not.
-/

set_option autoImplicit false

namespace ErrorBars.Formula

/-- What a phrase can mean. -/
inductive Value where
  /-- an expression -/
  | scalar (e : Expr)
  /-- a plain whole number -/
  | whole (n : Int)
  /-- a truth value, which counts as zero or one -/
  | flag (b : Bool)
  /-- a statement that is true or false -/
  | verdict (b : Bool)
  /-- a quoted text -/
  | text (q : Quotation)
  /-- a list, or a group -/
  | items (isList : Bool) (xs : List Value)
  /-- keys with their values -/
  | mapping (entries : List (Value × Value))
  /-- a range of positions: the first one, the end and the step, where they are given -/
  | range (first stop step : Option Int)
  /-- something that can be applied -/
  | callable (name : String)
  /-- what can be applied to an expression, by name -/
  | method (e : Expr) (name : String)
  /-- a comparison that is not decided -/
  | relation
  /-- a statement about variables -/
  | statement
  /-- anything else, and whether it counts as true -/
  | other (truth : Bool)

instance : Inhabited Value := ⟨.relation⟩

/-- A calculation that may fail. -/
abbrev Calculated (α : Type) := Except ParseFault α

namespace Value

/-- The expression that a value is, or stands for. -/
def expr? : Value → Option Expr
  | .scalar e => some e
  | .whole n => some (Expr.int n)
  | _ => none

/-- Whether a value counts as true. -/
def truth : Value → Calculated Bool
  | .scalar e => .ok !e.isZero
  | .whole n => .ok (n ≠ 0)
  | .flag b => .ok b
  | .verdict b => .ok b
  | .text q => .ok !q.isEmpty
  | .items _ xs => .ok !xs.isEmpty
  | .mapping entries => .ok !entries.isEmpty
  | .range .. => .ok true
  | .callable _ => .ok true
  | .method .. => .ok true
  | .relation => .error .unreadable
  | .statement => .ok true
  | .other b => .ok b

/-- The plain whole number that a value counts as. -/
def plain? : Value → Option Int
  | .whole n => some n
  | .flag b => some (if b then 1 else 0)
  | _ => none

/-- The whole number that a value counts as where a count is needed. -/
def count? : Value → Option Int
  | .scalar e => e.int?
  | v => v.plain?

/-! ## Arithmetic -/

/-- The whole part of a quotient. -/
def floorDiv (a b : Expr) : Calculated Expr :=
  match a.int?, b.int? with
  | some m, some n => if n = 0 then .error .divisionByZero else .ok (Expr.int (Int.fdiv m n))
  | some _, none =>
    if b.isZero then .error .divisionByZero else .ok (Expr.apply .floor [a / b])
  | _, _ => .ok (Expr.apply .floor [a / b])

/-- The remainder of a division. -/
def modulo (a b : Expr) : Calculated Expr :=
  if b.isZero then .error .divisionByZero else .ok (Expr.remainder a b)

/-- An operation on the binary digits of two whole numbers. -/
def onBits (f : Nat → Nat → Nat) (a b : Int) : Int :=
  let size := 2 ^ (max a.natAbs.log2 b.natAbs.log2 + 2)
  let n := f (a % size).toNat (b % size).toNat
  if n < size / 2 then n else (n : Int) - size

/-- Operations on the binary digits of whole numbers; `none` for a shift by less than zero. -/
def bits? (op : BinaryOp) (a b : Int) : Option Int :=
  match op with
  | .bitAnd => some (onBits Nat.land a b)
  | .bitOr => some (onBits Nat.lor a b)
  | .shiftLeft => if b < 0 then none else some (a * 2 ^ b.toNat)
  | .shiftRight => if b < 0 then none else some (Int.fdiv a (2 ^ b.toNat))
  | _ => none

/-- A value as a part of a statement: true, false or open.  A plain truth value is none by
itself. -/
def asStatement? : Value → Option (Option Bool)
  | .verdict b => some (some b)
  | .flag b => some (some b)
  | .scalar (.symbol _) => some none
  | .statement => some none
  | .relation => some none
  | _ => none

/-- Both of two statements. -/
def both : Value → Value → Value
  | .scalar (.symbol s), .scalar (.symbol t) => if s = t then .scalar (.symbol s) else .statement
  | a, b =>
    match a.asStatement?, b.asStatement? with
    | some (some false), _ => .verdict false
    | _, some (some false) => .verdict false
    | some (some true), some (some true) => .verdict true
    | some (some true), _ => b
    | _, some (some true) => a
    | _, _ => .statement

/-- The opposite of a statement. -/
def opposite : Value → Value
  | .verdict b => .verdict !b
  | .flag b => .verdict !b
  | .relation => .relation
  | _ => .statement

/-- One of two statements. -/
def oneOf : Value → Value → Value
  | .scalar (.symbol s), .scalar (.symbol t) => if s = t then .scalar (.symbol s) else .statement
  | a, b =>
    match a.asStatement?, b.asStatement? with
    | some (some true), _ => .verdict true
    | _, some (some true) => .verdict true
    | some (some false), some (some false) => .verdict false
    | some (some false), _ => b
    | _, some (some false) => a
    | _, _ => .statement

/-- A statement that follows from another. -/
def follows (a b : Value) : Value :=
  match a, b with
  | .scalar (.symbol s), .scalar (.symbol t) => if s = t then .verdict true else .statement
  | a, b => oneOf (opposite a) b

/-- Connectives of statements, and operations on the binary digits of whole numbers. -/
def connect (op : BinaryOp) (a b : Value) : Calculated Value :=
  match a.count?, b.count? with
  | some m, some n =>
    match bits? op m n with
    | some k =>
      match op, a, b with
      | .bitAnd, .flag x, .flag y => .ok (.flag (x && y))
      | .bitOr, .flag x, .flag y => .ok (.flag (x || y))
      | _, _, _ =>
        .ok (if a.plain?.isSome && b.plain?.isSome then .whole k else .scalar (Expr.int k))
    | none => .error .unreadable
  | _, _ =>
    if a.asStatement?.isSome && b.asStatement?.isSome then
      .ok (match op with
        | .bitAnd => both a b
        | .bitOr => oneOf a b
        | .shiftRight => follows a b
        | _ => follows b a)
    else .error .unreadable

/-- An operation on two expressions. -/
def onExprs (op : BinaryOp) (a b : Expr) : Calculated Value :=
  match op with
  | .add => .ok (.scalar (a + b))
  | .sub => .ok (.scalar (a - b))
  | .mul => .ok (.scalar (a * b))
  | .div => .ok (.scalar (a / b))
  | .power => .ok (.scalar (Expr.power a b))
  | .floorDiv => (floorDiv a b).map .scalar
  | .modulo => (modulo a b).map .scalar
  | _ => .error .unreadable

/-- An operation on two plain whole numbers. -/
def onPlain (op : BinaryOp) (a b : Int) : Calculated Value :=
  match op with
  | .add => .ok (.whole (a + b))
  | .sub => .ok (.whole (a - b))
  | .mul => .ok (.whole (a * b))
  | .floorDiv => if b = 0 then .error .divisionByZero else .ok (.whole (Int.fdiv a b))
  | .modulo => if b = 0 then .error .divisionByZero else .ok (.whole (Int.fmod a b))
  | .div => if b = 0 then .error .divisionByZero else .ok (.other (a ≠ 0))
  | .power =>
    if 0 ≤ b then .ok (.whole (a ^ b.toNat))
    else if a = 0 then .error .divisionByZero
    else .ok (.other true)
  | _ => .error .unreadable

/-- Several copies of a list. -/
def repeated (n : Int) (xs : List Value) : List Value := (List.replicate n.toNat xs).flatten

/-- An operation on two values. -/
def binary (op : BinaryOp) (a b : Value) : Calculated Value :=
  match op with
  | .bitAnd | .bitOr | .shiftLeft | .shiftRight => connect op a b
  | op =>
    match a.plain?, b.plain? with
    | some m, some n => onPlain op m n
    | _, _ =>
      match op, a, b with
      | .add, .text x, .text y =>
        match x.append? y with
        | some q => .ok (.text q)
        | none => .error .unreadable
      | .add, .items k xs, .items l ys =>
        if k = l then .ok (.items k (xs ++ ys)) else .error .unreadable
      | .mul, .text x, n =>
        match n.count? with
        | some n => .ok (.text (x.copies n))
        | none => .error .unreadable
      | .mul, n, .text x =>
        match n.count? with
        | some n => .ok (.text (x.copies n))
        | none => .error .unreadable
      | .mul, .items k xs, n =>
        match n.count? with
        | some n => .ok (.items k (repeated n xs))
        | none => .error .unreadable
      | .mul, n, .items k xs =>
        match n.count? with
        | some n => .ok (.items k (repeated n xs))
        | none => .error .unreadable
      | op, .flag x, .scalar e =>
        if e.isInteger then onExprs op (Expr.int (if x then 1 else 0)) e else .error .unreadable
      | op, .scalar e, .flag x =>
        if e.isInteger then onExprs op e (Expr.int (if x then 1 else 0)) else .error .unreadable
      | op, a, b =>
        match a.expr?, b.expr? with
        | some x, some y => onExprs op x y
        | _, _ => .error .unreadable

/-- A sign or a negation. -/
def unary (op : UnaryOp) (a : Value) : Calculated Value :=
  match op, a with
  | .not, a => do return .flag !(← a.truth)
  | .plus, .scalar e => .ok (.scalar e)
  | .minus, .scalar e => .ok (.scalar (-e))
  | .invert, .scalar (.symbol _) => .ok .statement
  | .invert, .scalar e =>
    match e.int? with
    | some n => .ok (.scalar (Expr.int (-n - 1)))
    | none => .error .unreadable
  | .invert, .statement => .ok .statement
  | .invert, .relation => .ok .relation
  | .invert, .verdict b => .ok (.verdict !b)
  | op, a =>
    match a.plain? with
    | some n => .ok (.whole (match op with | .minus => -n | .invert => -n - 1 | _ => n))
    | none => .error .unreadable

/-! ## Comparisons -/

mutual

/-- Whether two values are the same. -/
def same : Value → Value → Bool
  | .scalar a, .scalar b => a == b
  | .scalar a, .whole n => a == Expr.int n
  | .whole n, .scalar a => a == Expr.int n
  | .whole m, .whole n => m == n
  | .flag a, .flag b => a == b
  | .flag a, .verdict b => a == b
  | .verdict a, .flag b => a == b
  | .verdict a, .verdict b => a == b
  | .flag a, .scalar b => Expr.int (if a then 1 else 0) == b
  | .scalar a, .flag b => a == Expr.int (if b then 1 else 0)
  | .flag a, .whole n => (if a then 1 else 0) == n
  | .whole n, .flag a => (if a then 1 else 0) == n
  | .items k xs, .items l ys => k == l && sameAll xs ys
  | .text x, .text y => x.isBytes == y.isBytes && x.content == y.content
  | .callable f, .callable g => f == g
  | _, _ => false

/-- Whether two lists of values are the same. -/
def sameAll : List Value → List Value → Bool
  | [], [] => true
  | x :: xs, y :: ys => same x y && sameAll xs ys
  | _, _ => false

end

/-- The order of two expressions: decided for real numbers, impossible for numbers that are not
real, and open otherwise. -/
def orderExprs (c : Comparison) (a b : Expr) : Calculated Value :=
  let f := a.facts
  let g := b.facts
  if f.real == some false || g.real == some false || a == Expr.undefined || b == Expr.undefined then
    .error .unreadable
  else
    let d := if a == b then Facts.ofRat 0 else (a - b).facts
    let decided := fun (x : Option Bool) => match x with
      | some b => Value.verdict b
      | none => Value.relation
    if !((a.isConstant && b.isConstant) || a == b) then .ok .relation
    else
      .ok (match c with
        | .less => decided d.negative
        | .lessEqual => decided (d.positive.map not)
        | .greater => decided d.positive
        | .greaterEqual => decided (d.negative.map not)
        | _ => .relation)

/-- Whether a comparison holds of two things in this order. -/
def ofOrdering (c : Comparison) (o : Ordering) : Bool :=
  match c with
  | .less => o == .lt
  | .lessEqual => o != .gt
  | .greater => o == .gt
  | .greaterEqual => o != .lt
  | _ => false

/-- A comparison of two values. -/
def compare (c : Comparison) (a b : Value) : Calculated Value :=
  match c with
  | .equal => .ok (.flag (same a b))
  | .unequal => .ok (.flag !(same a b))
  | .same => .ok (.flag (same a b))
  | .notSame => .ok (.flag !(same a b))
  | .member | .notMember =>
    match a, b with
    | a, .items _ xs => .ok (.flag ((xs.any (same a)) == (c = .member)))
    | a, .mapping entries => .ok (.flag ((entries.any fun e => same a e.1) == (c = .member)))
    | .text x, .text y =>
      if x.isBytes == y.isBytes then .ok (.flag (y.contains x == (c = .member)))
      else .error .unreadable
    | _, _ => .error .unreadable
  | c =>
    match a, b with
    | .text x, .text y =>
      if x.isBytes == y.isBytes then
        .ok (.flag (ofOrdering c (Ord.compare x.content y.content)))
      else .error .unreadable
    | .items k _, .items l _ => if k = l then .ok (.flag false) else .error .unreadable
    | a, b =>
      match a.plain?, b.plain? with
      | some m, some n => .ok (.flag (ofOrdering c (Ord.compare m n)))
      | _, _ =>
        match a.expr?, b.expr? with
        | some x, some y => orderExprs c x y
        | _, _ => .error .unreadable

/-! ## Parts -/

mutual

/-- Whether a value can be a key, or a member of a set. -/
def isKey : Value → Bool
  | .items isList xs => !isList && areKeys xs
  | .mapping _ => false
  | .range .. => false
  | _ => true

/-- Whether several values can be keys. -/
def areKeys : List Value → Bool
  | [] => true
  | x :: xs => isKey x && areKeys xs

end

/-- The entries of a mapping whose keys and values alternate: a repeated key has its last value. -/
def entriesOf : List Value → List (Value × Value) → List (Value × Value)
  | k :: v :: rest, acc =>
    let acc := if acc.any fun e => same e.1 k then
        acc.map fun e => if same e.1 k then (e.1, v) else e
      else acc ++ [(k, v)]
    entriesOf rest acc
  | _, acc => acc

/-- A bound of a range, where it is given. -/
def bound? : Value → Calculated (Option Int)
  | .other false => .ok none
  | v =>
    match v.count? with
    | some n => .ok (some n)
    | none => .error .unreadable

/-- The positions from one on, in steps, as long as they lie before the end, or behind it if the
steps go backwards. -/
def positions : Nat → Int → Int → Int → List Nat
  | 0, _, _, _ => []
  | fuel + 1, i, stop, step =>
    if (0 < step ∧ i < stop) ∨ (step < 0 ∧ stop < i) then
      i.toNat :: positions fuel (i + step) stop step
    else []

/-- The members of a list at a range of positions; positions below zero count from the end, and the
range is cut off at the ends of the list. -/
def slice {α : Type} (xs : List α) (first stop step : Option Int) : Calculated (List α) :=
  let step := step.getD 1
  if step = 0 then .error .unreadable
  else
    let size : Int := xs.length
    let low : Int := if step < 0 then -1 else 0
    let high : Int := if step < 0 then size - 1 else size
    let clamp := fun (n : Int) => max low (min high (if n < 0 then n + size else n))
    let start := (first.map clamp).getD (if step < 0 then high else low)
    let stop := (stop.map clamp).getD (if step < 0 then low else high)
    .ok ((positions (xs.length + 1) start stop step).filterMap fun (i : Nat) => xs[i]?)

/-- The member of a list at a position, which counts from the end if it is below zero. -/
def memberAt {α : Type} (xs : List α) (i : Value) : Calculated α :=
  match i.count? with
  | some n =>
    let n := if n < 0 then n + xs.length else n
    if n < 0 then .error .outOfRange
    else
      match xs[n.toNat]? with
      | some v => .ok v
      | none => .error .outOfRange
  | none => .error .unreadable

/-- One character of a text, or one byte. -/
def letter (q : Quotation) (c : Char) : Value :=
  if q.isBytes then .whole c.toNat else .text ⟨.plain, [c]⟩

/-- A part of a value by its position, its range or its key. -/
def index (a i : Value) : Calculated Value :=
  match a, i with
  | .items isList xs, .range first stop step => (slice xs first stop step).map (.items isList)
  | .items _ xs, i => memberAt xs i
  | .text q, .range first stop step =>
    (slice q.content first stop step).map fun cs => .text { q with content := cs }
  | .text q, i => (memberAt q.content i).map (letter q)
  | .mapping entries, i =>
    if !i.isKey then .error .unreadable
    else
      match entries.find? fun e => same e.1 i with
      | some e => .ok e.2
      | none => .error .missingKey
  | _, _ => .error .unreadable

end Value

end ErrorBars.Formula
