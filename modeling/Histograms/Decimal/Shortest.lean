import Histograms.Binary64
/-!
# The shortest decimal that reads back as a binary value

A positive binary64 value `mant * 2 ^ exp` stands for every real that rounds to
it: the reals strictly between the midpoints to its two neighbours, the ends
included when `mant` is even (a tie then rounds to it). The shortest decimal of
the value is the decimal with the fewest significant digits in that interval;
of two such decimals, the nearer to the value.

All comparisons are exact: a decimal `g * 10 ^ k` is compared with a binary
`x * 2 ^ a` by cross-multiplying natural numbers.

Main statements:

* `Decimal.shortest` picks the digits; the search tries 1, 2, ... 17 significant
  digits, and on each decimal grid only the two grid points around the value
  (a grid point in the interval implies one of those two is in it too).
-/

namespace Histograms

/-- A positive decimal `digits * 10 ^ exponent`. -/
structure Decimal where
  digits : Nat
  exponent : Int
  deriving DecidableEq, Repr

namespace Decimal

/-- The binary `x * 2 ^ a` over the decimal unit `10 ^ k`, as a numerator and a
denominator of natural numbers. -/
def ratio (x : Nat) (a k : Int) : Nat × Nat :=
  (x * 2 ^ a.toNat * 10 ^ (-k).toNat, 2 ^ (-a).toNat * 10 ^ k.toNat)

/-- `10 ^ k ≤ x * 2 ^ a`. -/
def tenPowLe (k : Int) (x : Nat) (a : Int) : Bool :=
  let r := ratio x a k
  decide (r.2 ≤ r.1)

/-- The decimal exponent of `x * 2 ^ a` for `0 < x`: the greatest `k` with
`10 ^ k ≤ x * 2 ^ a`. An estimate from the binary exponent (`log10 2` to ten
digits) is corrected by one step either way. -/
def exponentOf (x : Nat) (a : Int) : Int :=
  let estimate : Int := ((Nat.log2 x : Int) + a) * 1292913986 / 4294967296
  let up := if tenPowLe (estimate + 1) x a then estimate + 1 else estimate
  if tenPowLe up x a then up else up - 1

/-- The rounding interval of a positive binary value, in units of `2 ^ unit`:
`low < mid < high`, ends included when `closed`. -/
structure Interval where
  low : Nat
  mid : Nat
  high : Nat
  unit : Int
  closed : Bool

/-- The interval of `mant * 2 ^ exp`, in quarter units of `2 ^ exp`. The gap below
is half as wide when `mant` is the least mantissa of its binade above the
subnormals. -/
def Interval.ofBinary (mant : Nat) (exp : Int) : Interval :=
  let tight := mant = 2 ^ 52 ∧ Binary64.minExp < exp
  { low := 4 * mant - (if tight then 1 else 2)
    mid := 4 * mant
    high := 4 * mant + 2
    unit := exp - 2
    closed := mant % 2 = 0 }

/-- The grid point `g * 10 ^ k` lies in the interval. -/
def Interval.contains (iv : Interval) (k : Int) (g : Nat) : Bool :=
  let lo := ratio iv.low iv.unit k
  let hi := ratio iv.high iv.unit k
  let point := g * lo.2
  (lo.1 < point || (iv.closed && lo.1 == point)) &&
    (point < hi.1 || (iv.closed && point == hi.1))

/-- The digits of a point of the grid `10 ^ k` in the interval, if there is one:
of the two grid points around the value, the one inside, or the nearer if both
are (a tie goes up). -/
def Interval.pick (iv : Interval) (k : Int) : Option Nat :=
  let v := ratio iv.mid iv.unit k
  let below := v.1 / v.2
  let above := below + 1
  match iv.contains k below, iv.contains k above with
  | true, true => some (if v.1 - below * v.2 < above * v.2 - v.1 then below else above)
  | true, false => some below
  | false, true => some above
  | false, false => none

/-- Drops trailing zero digits, moving them into the exponent. -/
def trim (digits : Nat) (exponent : Int) : Nat → Decimal
  | 0 => ⟨digits, exponent⟩
  | fuel + 1 =>
    if digits ≠ 0 ∧ digits % 10 = 0 then trim (digits / 10) (exponent + 1) fuel
    else ⟨digits, exponent⟩

/-- The shortest decimal in the rounding interval of `mant * 2 ^ exp` (for
`0 < mant`), nearest to the value among the shortest. -/
def shortest (mant : Nat) (exp : Int) : Decimal :=
  let iv := Interval.ofBinary mant exp
  let top := exponentOf mant exp
  let grids := (List.range 17).map fun (n : Nat) => top - n
  match grids.findSome? fun k => (iv.pick k).map fun g => (g, k) with
  | some (g, k) => trim g k 20
  | none =>
    let k := top - 16
    let v := ratio iv.mid iv.unit k
    trim (v.1 / v.2) k 20

end Decimal

end Histograms
