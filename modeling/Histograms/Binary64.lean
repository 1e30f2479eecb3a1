/-!
# Binary64 values as exact numbers

A `Float` is read off its three bit fields (sign, exponent field, fraction
field). A finite value is then `± mant * 2 ^ exp` with a natural `mant`, and
every operation below that is not plain float arithmetic (floor, truncation
to an integer, integrality, rounding to binary32) is computed on these exact
numbers. The runtime's own `floor` and conversions are opaque to proofs; these
are ordinary definitions.

Main statements:

* `Binary64.ofFloat` splits a float; `Binary64.ofFloat_zero` reads `0.0`.
* `Float.toNat?` is the exact natural value of a whole, non-negative float.
* `Float.truncClamp` is truncation toward zero clamped to a range, with NaN at `0`.
* `Float.floorExact` is the greatest whole float not above a float.
* `Float.roundSingle` rounds to the nearest binary32 value, ties to even.
-/

namespace Histograms

/-- Powers by a natural exponent are the core ones (`Nat.pow`, `Int.pow`) wherever the library
is read, also next to Mathlib, whose monoid power would otherwise be chosen for `x ^ n`. -/
@[default_instance 10001]
instance (priority := 10001) instPowNatCore {α : Type} [NatPow α] : Pow α Nat := instPowNat

/-- The exact reading of a binary64 value. -/
inductive Binary64 where
  /-- Not a number. -/
  | nan
  /-- An infinity of the given sign. -/
  | infinite (negative : Bool)
  /-- The value `(-1) ^ negative * mant * 2 ^ exp`; `mant = 0` is a signed zero. -/
  | finite (negative : Bool) (mant : Nat) (exp : Int)
  deriving DecidableEq, Repr

namespace Binary64

/-- The smallest binary exponent of a finite binary64 value: subnormals have it. -/
def minExp : Int := -1074

/-- Splits the bits of `x`. Normal values get the hidden leading bit, so their
mantissa lies in `[2 ^ 52, 2 ^ 53)`; subnormals and zeros have exponent `minExp`. -/
def ofFloat (x : Float) : Binary64 :=
  let bits : Nat := x.toBits.toNat
  let negative := decide (2 ^ 63 ≤ bits)
  let field : Nat := bits / 2 ^ 52 % 2048
  let fraction : Nat := bits % 2 ^ 52
  if field = 2047 then
    if fraction = 0 then .infinite negative else .nan
  else if field = 0 then
    .finite negative fraction minExp
  else
    .finite negative (fraction + 2 ^ 52) ((field : Int) - 1075)

theorem ofFloat_zero : ofFloat 0.0 = .finite false 0 minExp := by
  decide +kernel

/-- The whole part of `mant * 2 ^ exp`, rounded toward zero. -/
def wholePart (mant : Nat) (exp : Int) : Nat :=
  if 0 ≤ exp then mant * 2 ^ exp.toNat else mant / 2 ^ (-exp).toNat

/-- `mant * 2 ^ exp` is a whole number. -/
def IsWhole (mant : Nat) (exp : Int) : Prop :=
  0 ≤ exp ∨ (mant % 2 ^ (-exp).toNat : Nat) = 0

instance (mant : Nat) (exp : Int) : Decidable (IsWhole mant exp) :=
  inferInstanceAs (Decidable (_ ∨ _))

theorem wholePart_of_nonneg {mant : Nat} {exp : Int} (h : 0 ≤ exp) :
    wholePart mant exp = mant * 2 ^ exp.toNat := by
  simp [wholePart, h]

end Binary64

end Histograms

open Histograms Histograms.Binary64

/-- `x` is finite and has no fractional part (so `-0.0` counts, infinities do not). -/
def Float.isWhole (x : Float) : Bool :=
  match Binary64.ofFloat x with
  | .finite _ mant exp => decide (IsWhole mant exp)
  | _ => false

/-- The exact value of `x` when `x` is whole and not below zero; `-0.0` reads as `0`. -/
def Float.toNat? (x : Float) : Option Nat :=
  match Binary64.ofFloat x with
  | .finite negative mant exp =>
    if IsWhole mant exp ∧ (negative = false ∨ mant = 0) then some (wholePart mant exp)
    else none
  | _ => none

/-- Truncation toward zero, clamped to `[lo, hi]`; infinities go to the nearer end
and NaN goes to `0`. This is how a float is converted to a fixed-width integer. -/
def Float.truncClamp (lo hi : Int) (x : Float) : Int :=
  match Binary64.ofFloat x with
  | .nan => 0
  | .infinite negative => if negative then lo else hi
  | .finite negative mant exp =>
    let whole : Int := wholePart mant exp
    max lo (min hi (if negative then -whole else whole))

/-- The greatest whole float not above `x`. Zeros, whole values, infinities and NaN
are returned unchanged; a positive fraction gives `+0.0`. -/
def Float.floorExact (x : Float) : Float :=
  match Binary64.ofFloat x with
  | .finite negative mant exp =>
    if IsWhole mant exp then x
    else if negative then -Float.ofNat (wholePart mant exp + 1)
    else Float.ofNat (wholePart mant exp)
  | _ => x

/-- The float `2 ^ e` for an exponent in the normal range `[-1022, 1023]`. -/
def Float.twoPow (e : Int) : Float :=
  Float.ofBits (UInt64.ofNat ((e + 1023).toNat * 2 ^ 52))

/-- Rounds `x` to the nearest binary32 value (24 significant bits, quantum at least
`2 ^ -149`), ties to even, and overflows to infinity from `2 ^ 128` up. The sign of
a zero result is the sign of `x`. -/
def Float.roundSingle (x : Float) : Float :=
  match Binary64.ofFloat x with
  | .finite negative mant exp =>
    if mant = 0 then x
    else
      let top : Int := (Nat.log2 mant : Int) + exp
      let quantum : Int := max (top - 23) (-149)
      let rounded : Nat × Int :=
        if quantum ≤ exp then (mant, exp)
        else
          let shift := (quantum - exp).toNat
          let kept := mant / 2 ^ shift
          let rest := mant % 2 ^ shift
          let half := 2 ^ (shift - 1)
          (if half < rest ∨ (rest = half ∧ kept % 2 = 1) then kept + 1 else kept, quantum)
      let magnitude : Float :=
        if rounded.1 = 0 then 0.0
        else if 128 ≤ (Nat.log2 rounded.1 : Int) + rounded.2 then 1.0 / 0.0
        else Float.ofNat rounded.1 * Float.twoPow rounded.2
      if negative then -magnitude else magnitude
  | _ => x
