import ErrorBars.Expr.Simplify.Factor

/-!
# Shorter forms with factorials and gamma functions

Factorials and binomial coefficients are written by the gamma function, whose arguments are moved by
whole numbers until no whole number is left in them but one.  `joinGammas` then uses the laws of the
gamma function on products: reflection, duplication, multiplication, and that a factor `x` of
`gamma(x)` makes it `gamma(x + 1)`.

All other functions are hidden behind placeholders meanwhile (`simplifyGammas`), so that only the
arguments of gamma functions are looked at.
-/

set_option autoImplicit false

namespace ErrorBars.Expr

/-- The gamma function. -/
def gammaOf (x : Expr) : Expr := apply .gamma [x]

/-- Factorials and binomial coefficients by the gamma function. -/
def factorialsToGammas (e : Expr) : Expr :=
  e.bottomUp fun
    | .app (.fn .factorial) [x] => gammaOf (x + one)
    | .app (.fn .binomial) [n, k] =>
      gammaOf (n + one) / (gammaOf (k + one) * gammaOf (n - k + one))
    | e => e

/-- The product of the numbers `x + lo`, `x + lo + 1`, … of which there are `count`. -/
def risingProduct (x : Expr) (lo : Int) (count : Nat) : Expr :=
  product ((List.range count).map fun (i : Nat) => x + int (lo + i))

/-- The gamma function by that of an argument in which no whole number is left but one. -/
def shiftGamma (x : Expr) : Expr :=
  let y := expand Expansion.all (x - one)
  match y.coeffAdd with
  | (c, m) =>
    match c.int? with
    | some k =>
      if m.isZero || k = 0 then gammaOf (one + y)
      else if 0 < k then gammaOf (one + m) * risingProduct (one + m) 0 k.toNat
      else gammaOf (one + m) / risingProduct (one + m) k k.natAbs
    | none => gammaOf (one + y)

/-- All gamma functions by those of moved arguments. -/
def shiftGammas (e : Expr) : Expr :=
  e.bottomUp fun
    | .app (.fn .gamma) [x] => shiftGamma x
    | e => e

mutual

/-- The number of gamma functions. -/
def gammaCount : Expr → Nat
  | .app h as => (if h = .fn .gamma then 1 else 0) + gammaCounts as
  | _ => 0

/-- The number of gamma functions in several expressions. -/
def gammaCounts : List Expr → Nat
  | [] => 0
  | a :: as => gammaCount a + gammaCounts as

end

mutual

/-- Whether a gamma function occurs as a term, a factor or the base of a whole power. -/
def hasGammaFactor : Expr → Bool
  | .app (.fn .gamma) _ => true
  | .app .add ts => anyGammaFactor ts
  | .app .mul fs => anyGammaFactor fs
  | .app .pow [b, e] => (e.isWhole || b.isPositive) && hasGammaFactor b
  | _ => false

/-- Whether a gamma function occurs so in one of several expressions. -/
def anyGammaFactor : List Expr → Bool
  | [] => false
  | a :: as => hasGammaFactor a || anyGammaFactor as

end

/-! ## Quotients of gamma functions -/

/-- One side of a quotient: the arguments of gamma functions and the other factors. -/
structure GammaSide where
  /-- the arguments of the gamma functions, each as often as it occurs -/
  gammas : List Expr
  /-- the other factors, each as often as it occurs -/
  others : List Expr

/-- A quotient of products. -/
structure GammaQuotient where
  /-- what is above the line -/
  above : GammaSide
  /-- what is below the line -/
  below : GammaSide

/-- Both sides exchanged. -/
def GammaQuotient.swap (q : GammaQuotient) : GammaQuotient := ⟨q.below, q.above⟩

/-- Takes a factor into one side. -/
def GammaSide.take (s : GammaSide) (f : Expr) : GammaSide :=
  if f == one then s
  else
    let (b, n) := f.baseExp
    match n.int? with
    | some k =>
      match b with
      | .app (.fn .gamma) [x] => { s with gammas := s.gammas ++ List.replicate k.toNat x }
      | b => { s with others := s.others ++ List.replicate k.toNat b }
    | none => { s with others := s.others ++ [f] }

/-- A product taken apart, the largest factors first. -/
def GammaQuotient.ofFactors (fs : List Expr) : GammaQuotient :=
  (sortBySize fs).reverse.foldl (fun q f =>
    let (n, d) := f.numerDenom
    ⟨q.above.take n, q.below.take d⟩) ⟨⟨[], []⟩, ⟨[], []⟩⟩

/-- The quotient as an expression. -/
def GammaQuotient.toExpr (q : GammaQuotient) : Expr :=
  product (q.above.gammas.map gammaOf) / product (q.below.gammas.map gammaOf) *
    product q.above.others / product q.below.others

/-! ### Laws -/

/-- The first member of a list that satisfies a test, with what it yields, and the list without
it. -/
def pick? {α : Type} (f : Expr → Option α) : List Expr → Option (α × List Expr)
  | [] => none
  | x :: xs =>
    match f x with
    | some a => some (a, xs)
    | none => (pick? f xs).map fun r => (r.1, x :: r.2)

/-- The reflection law above the line: the product of gamma functions whose arguments have a whole
number as their sum is a quotient by a sine.  The list is gone through from its end. -/
def reflectGammas : Nat → List Expr → GammaQuotient → GammaQuotient
  | 0, _, q => q
  | _ + 1, [], q => q
  | fuel + 1, x :: rest, q =>
    let keep := fun (_ : Unit) => reflectGammas fuel rest
      { q with above := { q.above with gammas := q.above.gammas ++ [x] } }
    if x.isWhole then keep ()
    else
      match pick? (fun y => (x + y - one).int?) rest.reverse with
      | none => keep ()
      | some (n, others) =>
        let count := n.natAbs
        let above := if 0 < n then (List.range count).map fun (k : Nat) => one - x + int k else []
        let below := if n < 0 then (List.range count).map fun (k : Nat) => -x - int k else []
        reflectGammas fuel others.reverse
          ⟨{ q.above with others := q.above.others ++ pi :: above },
            { q.below with others := q.below.others ++ apply .sin [pi * x] :: below }⟩

/-- The reflection law above the line. -/
def GammaQuotient.reflect (q : GammaQuotient) : GammaQuotient :=
  reflectGammas (q.above.gammas.length + 1) q.above.gammas.reverse
    { q with above := { q.above with gammas := [] } }

/-- The duplication law: a gamma function above the line of about twice the argument of one
below. -/
def duplicateGammas : Nat → GammaQuotient → GammaQuotient
  | 0, q => q
  | fuel + 1, q =>
    let pair := pick? (fun x =>
      (pick? (fun y => (x - int 2 * y).int?.map fun n => (n, y)) q.below.gammas)) q.above.gammas
    match pair with
    | none => q
    | some (((n, y), below), above) =>
      let count := n.natAbs
      let more := if 0 < n then (List.range count).map fun (k : Nat) => int 2 * y + int k else []
      let less := if n < 0 then
        (List.range count).map fun (k : Nat) => int 2 * y - one - int k else []
      duplicateGammas fuel
        ⟨⟨above ++ [y + half], q.above.others ++ more ++ [power (int 2) (int 2 * y - one)]⟩,
          ⟨below, q.below.others ++ less ++ [sqrt pi]⟩⟩

/-- The duplication law where the larger argument is above the line. -/
def GammaQuotient.duplicate (q : GammaQuotient) : GammaQuotient :=
  duplicateGammas (q.above.gammas.length + 1) q

/-- Numbers among the given ones that lie one `n`-th apart from the first, up to whole numbers: `n`,
and those numbers. -/
def evenRun? (first : Rat) (rest : List Rat) : Option (Nat × List Rat) :=
  let part := fun (q : Rat) => q - (q.floor : Rat)
  let gaps := rest.map fun c => (part (c - first), c)
  gaps.findSome? fun g =>
    if g.1.num ≠ 1 ∨ g.1.den = 1 then none
    else
      let n := g.1.den
      let members := (List.range (n - 1)).map fun i =>
        gaps.find? fun h => h.1 = mkRat ((i + 1 : Nat) : Int) n
      if members.all Option.isSome then
        let found := members.filterMap fun m => m.map (·.2)
        some (n, gaps.filterMap fun h => if found.contains h.2 then some h.2 else none)
      else none

/-- The multiplication law on the numbers at the head of arguments that are otherwise equal: the
factors that come in, the numbers that are left, and the arguments of the new gamma functions. -/
def multiplyRuns (tail : Expr) : Nat → List Rat → List Expr × List Rat × List Expr
  | 0, cs => ([], cs, [])
  | fuel + 1, cs =>
    let runs := (List.range cs.length).filterMap fun i =>
      match cs.drop i with
      | [] => none
      | c :: rest => (evenRun? c (rest.eraseDups.filter fun d => d ≠ c)).map fun r => (c, r)
    match runs with
    | [] => ([], cs, [])
    | (c, n, others) :: _ =>
      let moved := others.flatMap fun u =>
        (List.range (u - c).floor.toNat).map fun (k : Nat) => tail + .rat (u - 1 - k)
      let arg := int n * (tail + .rat c)
      let scale := power (int 2 * pi) (.rat (mkRat (n - 1) 2)) * power (int n) (half - arg)
      let left := others.foldl (fun ds u => ds.erase u) (cs.erase c)
      let (factors, left, args) := multiplyRuns tail fuel left
      (moved ++ scale :: factors, left, arg :: args)

/-- The multiplication law above the line. -/
def GammaQuotient.multiply (q : GammaQuotient) : GammaQuotient :=
  let split := q.above.gammas.map fun g =>
    match g.coeffAdd with
    | (.rat c, m) => (m, some c)
    | _ => (g, none)
  let tails := sortByKey sortKey ((split.filterMap fun s => s.2.map fun _ => s.1).eraseDups)
  let fixed := split.filterMap fun s => if s.2.isNone then some s.1 else none
  let parts := tails.map fun t =>
    let cs := (split.filterMap fun s => if s.1 == t then s.2 else none).mergeSort (· ≤ ·)
    (t, multiplyRuns t cs.length cs)
  if parts.all fun p => p.2.1.isEmpty then q
  else
    let gammas := parts.flatMap fun p => p.2.2.1.map (fun c => p.1 + .rat c) ++ p.2.2.2
    { q with above := ⟨fixed ++ gammas, q.above.others ++ parts.flatMap fun p => p.2.1⟩ }

/-! ### Absorption -/

/-- The placeholders and symbols that occur. -/
def unknowns (e : Expr) : List Expr :=
  e.partsWith fun
    | .symbol _ => true
    | .dummy _ => true
    | _ => false

/-- The functions and exponents that occur. -/
def components (e : Expr) : List Expr :=
  (e.partsWith fun e => e.isFn).eraseDups ++
    ((e.partsWith isPow).map fun p => p.baseExp.2).eraseDups

/-- Whether two lists have the same members. -/
def sameMembers (xs ys : List Expr) : Bool :=
  xs.all (fun x => ys.any (· == x)) && ys.all fun y => xs.any (· == y)

/-- Whether the quotient of two expressions is a number, but not both are. -/
def isMultiple (x y : Expr) : Bool :=
  let s := x.unknowns
  let t := y.unknowns
  s.any (fun u => t.any (· == u)) && sameMembers x.components y.components &&
    (cancel (x / y)).isConstant

/-- Moves a gamma function above the line by whole numbers as long as that takes in a factor. -/
def absorbInto : Nat → Expr → GammaQuotient → Expr × GammaQuotient
  | 0, g, q => (g, q)
  | fuel + 1, g, q =>
    let test := fun (x y : Expr) => if isMultiple x y then some y else none
    let up := match pick? (test g) q.above.others with
      | none => none
      | some (y, others) =>
        let others := if y == g then others else others ++ [y / g]
        some (g + one, { q with above := { q.above with others := others } })
    let raised := up.getD (g, q)
    let g' := raised.1 - one
    let down := match pick? (test g') raised.2.below.others with
      | none => none
      | some (y, others) =>
        let above := raised.2.above
        let above := if y == g' then above else { above with others := above.others ++ [g' / y] }
        some (g', (⟨above, { raised.2.below with others := others }⟩ : GammaQuotient))
    match up, down with
    | none, none => (g, q)
    | _, some (g, q) => absorbInto fuel g q
    | some (g, q), none => absorbInto fuel g q

/-- Takes factors into the gamma functions above the line. -/
def GammaQuotient.absorb (q : GammaQuotient) : GammaQuotient :=
  let fuel := q.above.others.length + q.below.others.length + 1
  q.above.gammas.reverse.foldl (fun (q : GammaQuotient) g =>
    let (g, q) := absorbInto fuel g q
    { q with above := { q.above with gammas := q.above.gammas ++ [g] } })
    { q with above := { q.above with gammas := [] } }

/-- A law on both sides. -/
def GammaQuotient.onBoth (law : GammaQuotient → GammaQuotient) (q : GammaQuotient) :
    GammaQuotient := (law (law q).swap).swap

/-! ## Joining gamma functions -/

/-- All laws on a product. -/
def applyGammaLaws (e : Expr) : Expr :=
  match e with
  | .app .mul fs =>
    let q := GammaQuotient.ofFactors fs
    let q := (q.onBoth GammaQuotient.reflect).onBoth GammaQuotient.duplicate
    ((q.onBoth GammaQuotient.multiply).onBoth GammaQuotient.absorb).toExpr
  | e => e

/-- All laws on a product, until nothing changes; the first argument bounds how often. -/
def settleGammas : Nat → Expr → Expr
  | 0, e => e
  | fuel + 1, e =>
    let e' := applyGammaLaws e
    if e' == e then e else settleGammas fuel e'

/-- How often the laws are used on one product. -/
def gammaRounds : Nat := 12

/-- A ratio with its gamma functions moved, if some of them cancel. -/
def cancelGammas (e : Expr) : Expr :=
  let e' := shiftGammas e
  if e'.gammaCount < e.gammaCount then e' else e

/-- The first sum among the factors of one side of a quotient with its terms, divided by the other
side, joined; the first argument bounds the number of factors. -/
def joinInSums : List Expr → List Expr → Expr → Expr × Expr
  | before, [], d => (product before, d)
  | before, f :: fs, d =>
    match f with
    | .app .add ts =>
      let s := sum (ts.map fun t => settleGammas gammaRounds (cancelGammas (t / d)))
      let (n, d) := s.numerDenom
      if d.hasFn [.gamma] then joinInSums (before ++ [n]) fs d else (product (before ++ n :: fs), d)
    | f => joinInSums (before ++ [f]) fs d

/-- The gamma functions of a product joined. -/
def joinProductGammas (e : Expr) : Expr :=
  match e with
  | .app .mul fs =>
    let other := product (fs.filter fun f => !f.hasGammaFactor)
    let (n, d) := (product (fs.filter hasGammaFactor)).numerDenom
    let (n, d) := joinInSums [] (sortBySize n.factors) d
    let (n, d) :=
      if n.hasGammaFactor then
        let (d, n) := joinInSums [] (sortBySize d.factors) n
        (n, d)
      else (n, d)
    let e := other * n / d
    if e.isMul && (n.hasGammaFactor || d.hasGammaFactor) then settleGammas gammaRounds e else e
  | e => e

/-- The gamma functions of an expression joined, in its arguments first. -/
def joinGammas (e : Expr) : Expr :=
  match e with
  | .app h as => joinProductGammas (rebuild h (as.map joinProductGammas))
  | e => e

/-- The gamma function of a rational number by that of a number between zero and one. -/
def reduceGamma (q : Rat) : Expr :=
  if q.num.natAbs ≤ q.den then gammaOf (.rat q)
  else
    let k := q.floor
    let part := q - (k : Rat)
    if 0 ≤ k then gammaOf (.rat part) * risingProduct (.rat part) 0 k.toNat
    else gammaOf (.rat part) / risingProduct (.rat part) k k.natAbs

/-- An expression without other functions, with its gamma functions joined. -/
def settlePlainGammas (e : Expr) : Expr :=
  let first := factor (shiftGammas e)
  let joined := joinGammas first
  let e := if joined == first then first else factor joined
  e.bottomUp fun
    | .app (.fn .gamma) [.rat q] => reduceGamma q
    | e => e

/-! ## The whole -/

/-- Functions other than the gamma function. -/
def isOtherFunction : Expr → Bool
  | .app (.fn .gamma) _ | .app (.fn .max) _ | .app (.fn .min) _ | .app (.fn .bounds) _ => false
  | .app (.fn _) _ => true
  | _ => false

/-- Puts placeholders for the given parts, the outermost ones first. -/
def mask (parts : List (Expr × String)) : Nat → Expr → Expr
  | 0, e => e
  | fuel + 1, e =>
    match parts.find? fun p => p.1 == e with
    | some p => .dummy p.2
    | none =>
      match e with
      | .app h as =>
        let bs := as.map (mask parts fuel)
        if bs == as then e else rebuild h bs
      | e => e

/-- Puts expressions for placeholders. -/
def unmask (parts : List (String × Expr)) (e : Expr) : Expr :=
  e.foldUp (fun l => match l with
    | .dummy name => (parts.lookup name).getD l
    | l => l) rebuild

/-- A shorter form of an expression with factorials and gamma functions; one whose gamma functions
all have whole arguments stays as it is. -/
def simplifyGammas (e : Expr) : Expr :=
  let g := factorialsToGammas e
  let gammas := g.partsWith (isFnOf .gamma)
  if gammas.isEmpty then settlePlainGammas g
  else if gammas.all fun x => x.args.all Expr.isWhole then e
  else
    let parts := (sortBySize (g.partsWith isOtherFunction).eraseDups).zipIdx.map fun p =>
      (p.1, "Dummy_" ++ toString p.2)
    let values := parts.map fun p =>
      match p.1 with
      | .app (.fn f) as => (p.2, apply f (as.map settlePlainGammas))
      | x => (p.2, x)
    unmask values (settlePlainGammas (mask parts g.size g))

end ErrorBars.Expr
