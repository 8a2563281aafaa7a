import Arson.Number.Binary
/-! # The shortest decimal that reads back

A finite float stands for an interval of reals: those that round to it. Its shortest decimal is
the decimal with the fewest significant digits inside that interval; of two such decimals on the
same grid the nearer is taken, and an exact tie is broken by a rule the caller names. All
comparisons are exact, by cross-multiplying naturals.
-/
namespace Arson.Number

/-- A decimal `digits * 10^exp`. -/
structure Decimal where
  digits : Nat
  exp : Int
deriving Repr, DecidableEq

/-- Compares `a * 10^i` with `n * 2^j`, exactly. -/
def cmpScaled (a : Nat) (i : Int) (n : Nat) (j : Int) : Ordering :=
  compare (a * Nat.pow 10 i.toNat * Nat.pow 2 (-j).toNat)
    (n * Nat.pow 2 j.toNat * Nat.pow 10 (-i).toNat)

/-- A decimal lies among the reals that round to `x` (to nearest, ties to even): strictly between
the halfway points to the two neighbours, and on them too when the mantissa is even. -/
def Binary.readsBack (x : Binary) (d : Decimal) : Bool :=
  let lo := if x.narrowBelow then 4 * x.m - 1 else 4 * x.m - 2
  let hi := 4 * x.m + 2
  let incl := x.m % 2 == 0
  let cl := cmpScaled d.digits d.exp lo (x.q - 2)
  let ch := cmpScaled d.digits d.exp hi (x.q - 2)
  (cl == .gt || (incl && cl == .eq)) && (ch == .lt || (incl && ch == .eq))

/-- The least `k` with `m * 2^q < 10^k`, searched near the estimate from the binary logarithm. -/
def Binary.scale (x : Binary) : Int :=
  let k0 : Int := (((Nat.log2 x.m : Int) + x.q) * 30103) / 100000
  let ks := (List.range 6).map (fun (i : Nat) => k0 - 2 + (i : Int))
  match ks.find? (fun k => cmpScaled 1 k x.m x.q == .gt) with
  | some k => k
  | none => k0 + 4

/-- The value's lower neighbour on the grid `10^e`, and how the value compares with the midpoint
between that neighbour and the next point of the grid. -/
def Binary.onGrid (x : Binary) (e : Int) : Nat × Ordering :=
  let num := x.m * Nat.pow 2 x.q.toNat * Nat.pow 10 (-e).toNat
  let den := Nat.pow 2 (-x.q).toNat * Nat.pow 10 e.toNat
  let lo := num / den
  (lo, compare (2 * num) ((2 * lo + 1) * den))

/-- How an exact tie between the two neighbours on a grid is broken. -/
inductive Tie where
  /-- The upper neighbour is taken. -/
  | up
  /-- The neighbour whose last digit is even is taken. -/
  | even
deriving Repr, DecidableEq

/-- The pick on the grid `10^e`: of the two neighbours that read back, the nearer; an exact tie
goes as `tie` says. -/
def Binary.pickOnGrid (x : Binary) (tie : Tie) (e : Int) : Option Decimal :=
  let (lo, mid) := x.onGrid e
  let down : Decimal := ⟨lo, e⟩
  let up : Decimal := ⟨lo + 1, e⟩
  let lower := mid == .lt || (mid == .eq && tie == .even && lo % 2 == 0)
  match x.readsBack down, x.readsBack up with
  | true, true => if lower then some down else some up
  | true, false => some down
  | false, true => some up
  | false, false => none

/-- Moves trailing zeros of the digits into the exponent. -/
def Decimal.strip (d : Decimal) : Decimal :=
  if h : d.digits ≠ 0 ∧ d.digits % 10 = 0 then
    Decimal.strip ⟨d.digits / 10, d.exp + 1⟩
  else d
termination_by d.digits
decreasing_by exact Nat.div_lt_self (Nat.pos_of_ne_zero h.1) (by decide)

def Binary.exact (x : Binary) : Decimal :=
  if 0 ≤ x.q then ⟨x.m * Nat.pow 2 x.q.toNat, 0⟩ else ⟨x.m * Nat.pow 5 (-x.q).toNat, x.q⟩

/-- The shortest decimal of a non-zero magnitude: grids of 1 to 17 significant digits are tried in
order and the first pick wins; the exact value stands behind them. -/
def Binary.shortest (x : Binary) (tie : Tie) : Decimal :=
  let k := x.scale
  let found := (List.range 17).findSome? (fun (n : Nat) => x.pickOnGrid tie (k - 1 - (n : Int)))
  (found.getD x.exact).strip

end Arson.Number
