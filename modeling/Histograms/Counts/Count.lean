import Histograms.Counts.Width
import Histograms.Binary64
/-!
# Counts

A `Count` is the value of one cell of a counting store, tagged by where it came
from: a fixed-width cell (`int`, below `2 ^ 64`), an unbounded cell (`big`), or a
float cell (`real`).

Counts compare by value: `int` and `big` denote their number, a `real` denotes
its float, and a float that is a whole number not below zero (`-0.0` included)
equals the integer it denotes. NaN equals nothing.
-/

namespace Histograms

/-- The value of one cell of a counting store. -/
inductive Count where
  | int (n : Nat)
  | big (n : Nat)
  | real (x : Float)

namespace Count

/-- The natural number a count denotes exactly, if it denotes one. -/
def toNat? : Count → Option Nat
  | .int n => some n
  | .big n => some n
  | .real x => x.toNat?

/-- Equality by value. Two floats compare as floats; otherwise both sides must
denote the same natural number. -/
protected def beq : Count → Count → Bool
  | .int a, .int b => a == b
  | .real x, .real y => x == y
  | a, b =>
    match a.toNat?, b.toNat? with
    | some m, some n => m == n
    | _, _ => false

instance : BEq Count := ⟨Count.beq⟩

/-- The count is zero (`-0.0` included). -/
def isZero : Count → Bool
  | .int n => n == 0
  | .big n => n == 0
  | .real x => x == 0.0

/-- The nearest float to a count (infinity past the largest float). -/
def toFloat : Count → Float
  | .int n => Float.ofNat n
  | .big n => Float.ofNat n
  | .real x => x

/-- The text of a count: integers in decimal, floats in positional notation. -/
def text : Count → String
  | .int n => toString n
  | .big n => toString n
  | .real x => x.toPositional

end Count

end Histograms
