import ErrorBars.Expr.Simplify.Expand
import ErrorBars.Expr.Simplify.Sign
import ErrorBars.Expr.Simplify.Together

/-!
# Rules for the circular functions

Each definition uses one family of identities from left to right, everywhere in an expression.  None
of them is good by itself: squares of sines become squares of cosines as well as the other way
round. Which rules help is for the strategy that applies them to find out.
-/

set_option autoImplicit false

namespace ErrorBars.Expr

/-- The circular functions. -/
def circularFunctions : List Func := [.sin, .cos, .tan, .cot, .sec, .csc]

/-- Whether the expression is a circular function of something. -/
def isCircular : Expr → Bool
  | .app (.fn f) [_] => circularFunctions.contains f
  | _ => false

/-- Whether a circular function occurs. -/
def hasCircular (e : Expr) : Bool := e.hasFn circularFunctions

/-! ## Quotients -/

/-- Secants and cosecants as reciprocals. -/
def secantsToReciprocals (e : Expr) : Expr :=
  e.bottomUp fun
    | .app (.fn .sec) [x] => inv (apply .cos [x])
    | .app (.fn .csc) [x] => inv (apply .sin [x])
    | e => e

/-- Tangents and cotangents as quotients of sine and cosine. -/
def tangentsToQuotients (e : Expr) : Expr :=
  e.bottomUp fun
    | .app (.fn .tan) [x] => apply .sin [x] / apply .cos [x]
    | .app (.fn .cot) [x] => apply .cos [x] / apply .sin [x]
    | e => e

/-- Takes a quotient of equal powers of sine and cosine of one angle together. -/
def joinTangents : Nat → List (Expr × Expr) → List (Expr × Expr)
  | 0, ps => ps
  | _ + 1, [] => []
  | fuel + 1, (b, n) :: rest =>
    let other := match b with
      | .app (.fn .sin) [x] => some (Func.cos, x)
      | .app (.fn .cos) [x] => some (Func.sin, x)
      | _ => none
    match other, n.int? with
    | some (f, x), some k =>
      match rest.find? fun p => p.1 == rawFn f [x] && p.2.int? == some (-k) with
      | some _ =>
        (apply .tan [x], int (if f = .cos then k else -k)) ::
          joinTangents fuel (rest.filter fun p => !(p.1 == rawFn f [x]))
      | none => (b, n) :: joinTangents fuel rest
    | _, _ => (b, n) :: joinTangents fuel rest

/-- Quotients of sine and cosine as tangents. -/
def quotientsToTangents (e : Expr) : Expr :=
  e.bottomUp fun
    | .app .mul fs =>
      let powers := fs.map baseExp
      let joined := joinTangents powers.length powers
      if joined.length = powers.length then .app .mul fs
      else product (joined.map fun p => power p.1 p.2)
    | e => e

/-- Negative powers as positive powers of the reciprocal functions. -/
def reciprocalsToSecants (e : Expr) : Expr :=
  e.bottomUp fun
    | .app .pow [.app (.fn f) [x], .rat q] =>
      let e := Expr.app .pow [.app (.fn f) [x], .rat q]
      if q.den = 1 && q < 0 then
        match f with
        | .tan => power (apply .cot [x]) (.rat (-q))
        | .sin => power (apply .csc [x]) (.rat (-q))
        | .cos => power (apply .sec [x]) (.rat (-q))
        | _ => e
      else e
    | e => e

/-! ## Squares -/

/-- The highest power that is taken for a product of squares. -/
def squaresLimit : Int := 4

/-- The square of one function by another one: the two functions, and the second square turned into
the first. -/
structure SquareRule where
  /-- the function that is replaced -/
  source : Func
  /-- the function that replaces it -/
  target : Func
  /-- the first square from the second -/
  square : Expr → Expr

/-- A power above one of the first function by squares of the second. -/
def SquareRule.power? (r : SquareRule) (f : Func) (x : Expr) (n : Int) : Option Expr :=
  if f = r.source ∧ 1 < n ∧ n ≤ squaresLimit then
    let s := r.square (power (apply r.target [x]) (int 2))
    let whole := power s (int (n / 2))
    some (if n % 2 = 0 then whole else apply f [x] * whole)
  else none

/-- Replaces squares everywhere. -/
def SquareRule.apply (r : SquareRule) (e : Expr) : Expr :=
  e.bottomUp fun
    | .app .pow [.app (.fn f) [x], .rat q] =>
      let e := Expr.app .pow [.app (.fn f) [x], .rat q]
      if q.den = 1 then (r.power? f x q.num).getD e else e
    | e => e

/-- Replaces squares in denominators everywhere, the rule being one for the reciprocal of the
square; an odd power keeps one factor. -/
def SquareRule.applyBelow (r : SquareRule) (e : Expr) : Expr :=
  e.bottomUp fun
    | .app .pow [.app (.fn f) [x], .rat q] =>
      let e := Expr.app .pow [.app (.fn f) [x], .rat q]
      if q.den = 1 && q < 0 then
        let n := -q.num
        if n % 2 = 0 then (r.power? f x n).getD e
        else
          match r.power? f x (n - 1) with
          | some s => s / Expr.apply f [x]
          | none => e
      else e
    | e => e

/-- Squares of sines by cosines. -/
def sineSquares : SquareRule := ⟨.sin, .cos, fun s => one - s⟩

/-- Squares of cosines by sines. -/
def cosineSquares : SquareRule := ⟨.cos, .sin, fun s => one - s⟩

/-- Squares of tangents by secants. -/
def tangentSquares : SquareRule := ⟨.tan, .sec, fun s => s - one⟩

/-- Squares of cotangents by cosecants. -/
def cotangentSquares : SquareRule := ⟨.cot, .csc, fun s => s - one⟩

/-- Reciprocal squares of sines by cotangents. -/
def sineReciprocals : SquareRule := ⟨.sin, .cot, fun s => one + s⟩

/-- Reciprocal squares of cosines by tangents. -/
def cosineReciprocals : SquareRule := ⟨.cos, .tan, fun s => one + s⟩

/-! ## Sums of angles -/

/-- The sine and the cosine of a sum of angles. -/
def sumOfAngles : List Expr → Expr × Expr
  | [] => (zero, one)
  | [a] => (apply .sin [a], apply .cos [a])
  | a :: rest =>
    let (s, c) := sumOfAngles rest
    (apply .sin [a] * c + apply .cos [a] * s, apply .cos [a] * c - apply .sin [a] * s)

/-- The most angles of a sum that is opened; the result doubles with every one. -/
def angleLimit : Nat := 7

/-- Sines and cosines of sums by those of the terms. -/
def openAngles (e : Expr) : Expr :=
  e.bottomUp fun
    | .app (.fn f) [.app .add ts] =>
      let opened := fun (_ : Unit) => sumOfAngles (sortBySize ts).reverse
      if angleLimit < ts.length then .app (.fn f) [.app .add ts]
      else if f = .sin then (opened ()).1
      else if f = .cos then (opened ()).2
      else .app (.fn f) [.app .add ts]
    | e => e

/-- The tangent of a sum of angles. -/
def tangentOfSum : List Expr → Expr
  | [] => zero
  | [a] => apply .tan [a]
  | a :: rest =>
    let s := tangentOfSum rest
    let t := apply .tan [a]
    (t + s) / (one - t * s)

/-- Tangents of sums by those of the terms. -/
def openTangents (e : Expr) : Expr :=
  e.bottomUp fun
    | .app (.fn .tan) [.app .add ts] =>
      if angleLimit < ts.length then .app (.fn .tan) [.app .add ts]
      else tangentOfSum (sortBySize ts).reverse
    | e => e

/-- Sine and cosine of an angle by those of its half, as long as the number in front is even. -/
def halfAngles : Nat → Expr → Expr × Expr
  | 0, x => (apply .sin [x], apply .cos [x])
  | fuel + 1, x =>
    let (q, m) := match x with
      | .app .mul (.rat q :: rest) => (q, productOf rest)
      | x => (1, x)
    if q.num % 2 = 0 && !x.isNumber then
      let (s, c) := halfAngles fuel (.rat (q / 2) * m)
      (int 2 * s * c, power c (int 2) - power s (int 2))
    else (apply .sin [x], apply .cos [x])

/-- Sines and cosines of double angles by those of the angles. -/
def openDoubles (e : Expr) : Expr :=
  e.bottomUp fun
    | .app (.fn .sin) [x] => (halfAngles 8 x).1
    | .app (.fn .cos) [x] => (halfAngles 8 x).2
    | e => e

/-- The angles of the sines and of the cosines that are factors with whole positive exponents. -/
def factorAngles (e : Expr) : List Expr × List Expr :=
  e.factors.foldl (fun acc f =>
    let (b, n) := f.baseExp
    match b, n.int? with
    | .app (.fn .sin) [x], some k => if 0 < k then (acc.1 ++ [x], acc.2) else acc
    | .app (.fn .cos) [x], some k => if 0 < k then (acc.1, acc.2 ++ [x]) else acc
    | _, _ => acc) ([], [])

/-- The sine and the cosine of twice an angle by those of the angle. -/
def openDoubleOf (angle e : Expr) : Expr :=
  let twice := int 2 * angle
  e.bottomUp fun
    | .app (.fn .sin) [x] =>
      if x == twice then int 2 * apply .cos [angle] * apply .sin [angle] else .app (.fn .sin) [x]
    | .app (.fn .cos) [x] =>
      if x == twice then power (apply .cos [angle]) (int 2) - power (apply .sin [angle]) (int 2)
      else .app (.fn .cos) [x]
    | e => e

/-- Opens the double angles of sines on one side of a line whose halves occur on the other side. -/
def openShared (sines : List Expr) (other : List Expr × List Expr) (e : Expr) :
    Expr × (List Expr × List Expr) :=
  sines.foldl (fun (acc : Expr × (List Expr × List Expr)) x =>
    let half := .rat (1 / 2) * x
    let (ss, cs) := acc.2
    if cs.any (· == half) then (openDoubleOf half acc.1, (ss, cs.filter fun y => !(y == half)))
    else if ss.any (· == half) then
      (openDoubleOf half acc.1, (ss.filter fun y => !(y == half), cs))
    else acc) (e, other)

/-- Opens double angles where the angle itself is on the other side of a line. -/
def openSharedDoubles (e : Expr) : Expr :=
  e.bottomUp fun e =>
    let (n, d) := e.numerDenom
    let above := factorAngles n
    let (e, below) := openShared above.1 (factorAngles d) e
    (openShared below.1 above e).1

/-! ## Angles between one eighth and one quarter of a turn -/

/-- The function of what is missing to a quarter turn. -/
def cofunction : Func → Func
  | .sin => .cos | .cos => .sin | .tan => .cot | .cot => .tan | .sec => .csc | .csc => .sec
  | f => f

/-- Functions of fixed angles between one eighth and one quarter of a turn by those of the angle
that is missing to a quarter turn. -/
def turnAngles (e : Expr) : Expr :=
  e.bottomUp fun e =>
    if !isCircular e then e
    else
      match e with
      | .app (.fn f) [x] =>
        match apply f [settleSigns x] with
        | .app (.fn g) [.app .mul [.rat q, .const .pi]] =>
          if 1 / 4 < q ∧ q < 1 / 2 then apply (cofunction g) [.rat (1 / 2 - q) * pi]
          else .app (.fn g) [.app .mul [.rat q, .const .pi]]
        | r => r
      | e => e

/-! ## Products -/

/-- A factor `g * (f + s)` for a sine or cosine `f` and a sign `s`, to a power. -/
structure ConjugateFactor where
  /-- what is in front -/
  scale : Expr
  /-- the exponent -/
  exponent : Expr
  /-- the function -/
  func : Expr
  /-- whether one is taken away rather than added -/
  minus : Bool
  /-- the sum as it was -/
  whole : Expr

/-- A sum taken apart as a factor with a sine or a cosine and one. -/
def conjugateFactor? (e exponent : Expr) : Option ConjugateFactor :=
  let sineOrCosine := fun (f : Expr) => f.isFnOf .sin || f.isFnOf .cos
  match e with
  | .app .add [.rat q, b] =>
    let magnitude := if q < 0 then -q else q
    let b' := .rat (1 / magnitude) * b
    if sineOrCosine b' then some ⟨.rat magnitude, exponent, b', decide (q < 0), e⟩
    else if sineOrCosine (-b') then some ⟨.rat (-magnitude), exponent, -b', decide (0 < q), e⟩
    else none
  | _ => none

/-- The order in which factors are looked through for pairs. -/
def ConjugateFactor.before (a b : ConjugateFactor) : Bool :=
  let size := fun (c : ConjugateFactor) =>
    c.scale.size + c.exponent.size + c.func.size + c.whole.size
  let keys := fun (c : ConjugateFactor) => [c.scale.sortKey, c.exponent.sortKey, c.func.sortKey]
  let sign := fun (c : ConjugateFactor) => if c.minus then 0 else 1
  (thenBy (compare (size a) (size b)) (thenBy (SortKey.orderAll (keys a) (keys b))
    (compare (sign a) (sign b)))).isLE

/-- The square that two factors have as their product, if they differ in the sign before one. -/
def ConjugateFactor.join? (a b : ConjugateFactor) : Option Expr :=
  if a.func == b.func && a.minus != b.minus then
    match a.func with
    | .app (.fn f) [x] => some (-a.scale * b.scale * power (apply (cofunction f) [x]) (int 2))
    | _ => none
  else none

/-- Joins neighbours; the first argument bounds the number of steps. -/
def joinConjugateList : Nat → List ConjugateFactor → List Expr
  | 0, cs => cs.map fun c => power c.whole c.exponent
  | _ + 1, [] => []
  | fuel + 1, a :: cs =>
    let alone := fun (_ : Unit) => power a.whole a.exponent :: joinConjugateList fuel cs
    match cs with
    | [] => alone ()
    | b :: rest =>
      match a.join? b with
      | none => alone ()
      | some s =>
        match a.exponent, b.exponent with
        | .rat p, .rat q =>
          let least := if p ≤ q then p else q
          let left := if q ≠ least then [{ b with exponent := .rat (q - least) }]
            else if p ≠ least then [{ a with exponent := .rat (p - least) }]
            else []
          power s (.rat least) :: joinConjugateList fuel (left ++ rest)
        | e, f => if e == f then power s e :: joinConjugateList fuel rest else alone ()

/-- The products `(f - 1) * (f + 1)` among some factors as squares. -/
def joinConjugateFactors (e : Expr) : Expr :=
  match e with
  | .app .mul fs =>
    let parts := fs.map fun f =>
      match f with
      | .app .pow [b, n] =>
        if n.isWhole || b.isPositive then (conjugateFactor? b n, f) else (none, f)
      | f => (conjugateFactor? f one, f)
    let found := (parts.filterMap (·.1)).mergeSort ConjugateFactor.before
    let other := parts.filterMap fun p => if p.1.isSome then none else some p.2
    let joined := joinConjugateList (2 * found.length + 2) found
    if joined.length = found.length then e else product (other ++ joined)
  | e => e

/-- Products of a sine or cosine plus one and the same minus one as squares, above and below the
line. -/
def joinConjugates (e : Expr) : Expr :=
  e.bottomUp fun
    | .app .mul fs =>
      let e := Expr.app .mul fs
      let (n, d) := e.numerDenom
      if d == one then joinConjugateFactors e
      else
        let n' := n.bottomUp joinConjugateFactors
        let d' := d.bottomUp joinConjugateFactors
        if n' == n && d' == d then e else n' / d'
    | e => e

/-- Numbers of a list that double from a given one on, each with its exponent. -/
def doublings (cs : List (Rat × Int)) : Nat → Rat → List (Rat × Int)
  | 0, _ => []
  | fuel + 1, c =>
    match cs.find? fun a => a.1 = c with
    | some a => a :: doublings cs fuel (2 * c)
    | none => []

/-- Joins the cosines of multiples of one angle, given by ascending multiples with their exponents:
what runs of doublings come to, and the cosines that are left. -/
def joinMultiples (angle : Expr) : Nat → List (Rat × Int) → List Expr × List Expr
  | 0, cs => ([], cs.map fun c => power (apply .cos [.rat c.1 * angle]) (int c.2))
  | _ + 1, [] => ([], [])
  | fuel + 1, c :: cs =>
    let run := doublings (c :: cs) (cs.length + 1) c.1
    if run.length < 2 then
      let (joined, other) := joinMultiples angle fuel cs
      (joined, power (apply .cos [.rat c.1 * angle]) (int c.2) :: other)
    else
      let times := run.foldl (fun (k : Int) a => min k a.2) c.2
      let size : Rat := 2 ^ run.length
      let value := apply .sin [.rat (size * c.1) * angle] / .rat size /
        apply .sin [.rat c.1 * angle]
      let left := (c :: cs).filterMap fun a =>
        if run.any fun b => b.1 = a.1 then
          (if a.2 = times then none else some (a.1, a.2 - times))
        else some a
      let (joined, other) := joinMultiples angle fuel left
      (power value (int times) :: joined, other)

/-- A product of cosines of an angle, its double and so on as a quotient of sines. -/
def joinDoubledFactors (e : Expr) : Expr :=
  match e with
  | .app .mul fs =>
    let cosine? := fun (f : Expr) =>
      let (b, n) := f.baseExp
      match b, n.int? with
      | .app (.fn .cos) [x], some k =>
        match x.coeffMul with
        | (.rat c, m) => some (m, c, k)
        | _ => some (x, 1, k)
      | _, _ => none
    let other := fs.filter fun f => (cosine? f).isNone
    let groups := (fs.filterMap cosine?).foldl (fun (gs : List (Expr × List (Rat × Int))) c =>
      if gs.any fun g => g.1 == c.1 then
        gs.map fun g => if g.1 == c.1 then (g.1, g.2 ++ [c.2]) else g
      else gs ++ [(c.1, [c.2])]) []
    let joined := groups.map fun g =>
      let cs := g.2.mergeSort fun a b => a.1 ≤ b.1
      joinMultiples g.1 (2 * cs.length + cs.foldl (fun n c => n + c.2.natAbs) 0) cs
    if joined.all fun j => j.1.isEmpty then e
    else product (joined.flatMap (·.1) ++ other ++ joined.flatMap (·.2))
  | e => e

/-- Products of cosines of an angle, its double and so on as quotients of sines, above and below the
line. -/
def joinDoubledCosines (e : Expr) : Expr :=
  e.bottomUp fun
    | .app .mul fs =>
      let (n, d) := (Expr.app .mul fs).numerDenom
      joinDoubledFactors n / joinDoubledFactors d
    | e => e

/-- The angles of the sines and of the cosines among some factors, with multiplicity, and the other
factors. -/
def sortFactors (fs : List Expr) : List Expr × List Expr × List Expr :=
  fs.foldl (fun acc f =>
    let (ss, cs, others) := acc
    match f with
    | .app (.fn .sin) [x] => (ss ++ [x], cs, others)
    | .app (.fn .cos) [x] => (ss, cs ++ [x], others)
    | .app .pow [.app (.fn g) [x], .rat q] =>
      if q.den = 1 && 0 < q && q.num < 50 then
        let xs := List.replicate q.num.toNat x
        match g with
        | .sin => (ss ++ xs, cs, others)
        | .cos => (ss, cs ++ xs, others)
        | _ => (ss, cs, others ++ [f])
      else (ss, cs, others ++ [f])
    | f => (ss, cs, others ++ [f])) ([], [], [])

/-- Products of a sine and a cosine, taken from the ends, as sums. -/
def mixedPairs : List Expr → List Expr → List Expr
  | a :: ss, b :: cs => (apply .sin [a + b] + apply .sin [a - b]) / int 2 :: mixedPairs ss cs
  | _, _ => []

/-- Products of two cosines, or of two sines, as sums. -/
def equalPairs (cosines : Bool) : List Expr → List Expr
  | a :: b :: rest =>
    let plus := apply .cos [a + b]
    let minus := apply .cos [a - b]
    (if cosines then plus + minus else minus - plus) / int 2 :: equalPairs cosines rest
  | [a] => [apply (if cosines then .cos else .sin) [a]]
  | [] => []

/-- A product without quotients with the products of sines and cosines as sums; the first argument
bounds how often this is repeated on what comes out. -/
def openProduct : Nat → Expr → Expr
  | 0, e => e
  | fuel + 1, e =>
    sum (e.terms.map fun t =>
      let (ss, cs, others) := sortFactors t.factors
      if ss.length + cs.length < 2 then t
      else
        let n := min ss.length cs.length
        let ss := ss.reverse
        let cs := cs.reverse
        let opened := others ++ mixedPairs ss cs ++ equalPairs true (cs.drop n) ++
          equalPairs false (ss.drop n)
        openProduct fuel (expand Expansion.productsOnly (product opened)))

/-- Products of sines and cosines as sums, above and below the line. -/
def productsToSums (e : Expr) : Expr :=
  let go := fun (e : Expr) =>
    let (n, d) := numerDenom e
    let n := expand Expansion.productsOnly n
    let d := expand Expansion.productsOnly d
    let n' := openProduct 12 n
    let d' := openProduct 12 d
    if n' == n && d' == d then e
    else
      match outerTogether (n' / d') with
      | .app .mul [.rat q, .app .add ts] => .rat q * .app .add ts
      | r => r
  e.bottomUp fun
    | .app .mul fs => go (.app .mul fs)
    | .app .pow [b, x] =>
      let e := Expr.app .pow [b, x]
      if (b.isFnOf .sin || b.isFnOf .cos) && x.isInteger then go e else e
    | e => e

/-! ## Sums -/

/-- A factor of a sum of two: a number or root, and the one or two functions. -/
structure AngleTerm where
  /-- the number or root in front -/
  scale : Expr
  /-- the functions, a cosine first where there is one -/
  functions : List (Func × Expr)

/-- A term as a number or root times one or two sines and cosines. -/
def angleTerm? (e : Expr) : Option AngleTerm :=
  e.factors.foldl (fun (acc : Option AngleTerm) f => do
    let t ← acc
    match f with
    | .rat q => if t.scale == one then some { t with scale := .rat q } else none
    | .app (.fn .sin) [x] =>
      if t.functions.length < 2 then
          some { t with functions := t.functions ++ [(.sin, x)] }
        else none
    | .app (.fn .cos) [x] =>
      if t.functions.length < 2 then some { t with functions := (.cos, x) :: t.functions } else none
    | .app .pow [.rat b, .rat q] =>
      if q == 1 / 2 then some { t with scale := t.scale * .app .pow [.rat b, .rat q] } else none
    | _ => none) (some ⟨one, []⟩)

/-- The common factor of two terms, what is left of them, and their signs. -/
def splitTerms (a b : Expr) : Expr × (Bool × Expr) × (Bool × Expr) :=
  let s := TermParts.ofExpr a
  let t := TermParts.ofExpr b
  let common : TermParts := ⟨one, s.above.gcd t.above, s.below.gcd t.below⟩
  let size := s.coeff.absNumber
  let common := if size == t.coeff.absNumber then { common with coeff := size } else common
  let part := fun (u : TermParts) =>
    let v := u.quo common
    (v.coeff.isNegativeNumber, ({ v with coeff := v.coeff.absNumber } : TermParts).toExpr)
  (common.toExpr, part s, part t)

/-- Two terms as one by the sine or the cosine of a sum of angles, or by that of an angle moved by a
quarter, a third or a sixth of a half turn. -/
def joinTwo? (a b : Expr) : Option Expr := do
  let (common, (m, a), (n, b)) := splitTerms a b
  let s ← angleTerm? a
  let t ← angleTerm? b
  let lead := if m then -common else common
  match s.functions, t.functions with
  | [(f, x), (g, y)], [(h, u), (k, v)] =>
    if !(s.scale == one && t.scale == one) then none
    else if (f == g) != (h == k) || (f == g && f == h) then none
    else
      let same := (x == u && y == v) || (x == v && y == u)
      if !same then none
      else if f = g then
        -- products of equal functions, the cosines first
        let lead := if f = .cos then lead else if n then -common else common
        some (lead * apply .cos [if m = n then x - y else x + y])
      else if x == v && y == u then
        some (if m = n then lead * apply .sin [x + y] else lead * apply .sin [y - x])
      else none
  | [(f, x)], [(g, y)] =>
    if f = g ∨ !(x == y) then none
    else
      let (c, k, m, n) := if f = .cos then (s.scale, t.scale, m, n) else (t.scale, s.scale, n, m)
      let lead := if m then -common else common
      let turned := fun (factor angle : Expr) =>
        let y := angle * pi
        some (lead * factor * apply .sin [if m = n then x + y else y - x])
      if c == k then turned (c * sqrt (int 2)) (.rat (1 / 4))
      else if c == k * sqrt (int 3) then turned (int 2 * k) (.rat (1 / 3))
      else if k == c * sqrt (int 3) then turned (int 2 * c) (.rat (1 / 6))
      else none
  | _, _ => none

/-- Joins a term with the first of several terms with which it can be joined. -/
def joinWith (a : Expr) : List Expr → Option (Expr × List Expr)
  | [] => none
  | b :: rest =>
    match joinTwo? a b with
    | some c => some (c, rest)
    | none => (joinWith a rest).map fun r => (r.1, b :: r.2)

/-- Joins each term with the first of those after it with which it can be joined. -/
def joinPass : Nat → List Expr → List Expr
  | 0, ts => ts
  | _ + 1, [] => []
  | fuel + 1, a :: rest =>
    match joinWith a rest with
    | some (c, rest) => c :: joinPass fuel rest
    | none => a :: joinPass fuel rest

/-- Joins terms of a sum as long as there are two that can be joined. -/
def joinTerms? : Nat → List Expr → Option Expr
  | 0, _ => none
  | fuel + 1, ts =>
    let joined := joinPass ts.length (sortBySize ts)
    if joined.length = ts.length then none
    else
      let s := sum joined
      match s with
      | .app .add us => some ((joinTerms? fuel us).getD s)
      | s => some s

/-- Terms with the same size of the number in front and the same symbols, the number apart. -/
def groupTerms (ts : List Expr) : List ((Expr × List String) × List Expr) :=
  ts.foldl (fun gs t =>
    let (c, m) := t.coeffMul
    let (c, m) := if c.isNegativeNumber then (negNumber c, -m) else (c, m)
    let key := (c, m.freeSymbols.mergeSort)
    if gs.any fun g => g.1 == key then
      gs.map fun g => if g.1 == key then (g.1, g.2 ++ [m]) else g
    else gs ++ [(key, [m])]) []

/-- Sums of products of sines and cosines as sines and cosines of sums; first within the terms that
have the same symbols and the same number in front. -/
def joinAngles (e : Expr) : Expr :=
  e.bottomUp fun
    | .app .add ts =>
      let groups := (groupTerms ts).map fun g => (g, joinTerms? g.2.length g.2)
      let e := if groups.all fun g => g.2.isNone then .app .add ts
        else sum (groups.map fun g => g.1.1.1 * g.2.getD (sum g.1.2))
      match e with
      | .app .add us => (joinTerms? us.length us).getD e
      | e => e
    | e => e

end ErrorBars.Expr
