import Histograms.Error
/-!
# Cells that accumulate

A `Cell` is the content of one bin of a histogram with a store of cells. A fill
updates it in one of four roles: a plain count, a weight, a sample, or a weighted
sample. A kind of cell that has no update for a role refuses it with
`HistError.unsupportedRole`, naming itself, and stays as it was. Every cell can
be merged with another of its kind and scaled by a factor.

The plain float cell adds `1` per count and the weight per weight.
-/

namespace Histograms

/-- A kind of accumulating cell. -/
class Cell (α : Type) where
  /-- The name of the kind, as errors report it. -/
  name : String
  /-- The cell before any fill. -/
  empty : α
  /-- Counts one plain fill. -/
  increment : α → Except HistError α := fun _ => .error (.unsupportedRole name .plain)
  /-- Adds a weight. -/
  addWeight : α → Float → Except HistError α := fun _ _ => .error (.unsupportedRole name .weight)
  /-- Adds a sample. -/
  addSample : α → List Float → Except HistError α :=
    fun _ _ => .error (.unsupportedRole name .sample)
  /-- Adds a sample with a weight. -/
  addWeightedSample : α → Float → List Float → Except HistError α :=
    fun _ _ _ => .error (.unsupportedRole name .weightedSample)
  /-- Adds the content of another cell of the same kind. -/
  merge : α → α → α
  /-- Multiplies the content by a factor. -/
  scale : α → Float → α
  /-- Equality, fields compared as floats. -/
  beq : α → α → Bool

namespace Cell

/-- The one value of a sample that must have exactly one. -/
def scalar : List Float → Except HistError Float
  | [x] => .ok x
  | xs => .error (.sampleArity 1 xs.length)

end Cell

/-- A plain float: the sum of counts and weights. -/
instance : Cell Float where
  name := "f64"
  empty := 0.0
  increment x := .ok (x + 1.0)
  addWeight x w := .ok (x + w)
  merge x y := x + y
  scale x f := x * f
  beq x y := x == y

end Histograms
