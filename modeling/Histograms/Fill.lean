import Histograms.Axis.Options
import Histograms.Store.Basic
/-!
# Fills

A `Fill` is one entry for a histogram: the coordinates of its point, and
optionally a weight and a sample. The roles it carries pick the update of the
cell: none is a plain count, a weight alone adds the weight, a sample alone adds
the sample, and both add a weighted sample.

`Fill.classify` sorts a list of arguments by role: coordinates keep their order,
and a second weight or a second sample is refused, the role whose second
occurrence comes first being named.
-/

namespace Histograms

/-- The point, weight and sample of one fill. -/
structure Fill where
  coords : List Coord
  weight : Option Float
  sample : Option (List Float)

/-- One argument of a fill: a coordinate, a weight or a sample. -/
inductive Arg where
  | coord (c : Coord)
  | weight (w : Float)
  | sample (xs : List Float)

namespace Fill

/-- A fill of a point without weight or sample. -/
def ofCoords (coords : List Coord) : Fill := ⟨coords, none, none⟩

/-- Adds one argument; a second weight or sample is refused. -/
def push (f : Fill) : Arg → Except HistError Fill
  | .coord c => .ok { f with coords := f.coords ++ [c] }
  | .weight w => if f.weight.isSome then .error (.duplicateRole .weight) else .ok { f with weight := some w }
  | .sample xs => if f.sample.isSome then .error (.duplicateRole .sample) else .ok { f with sample := some xs }

/-- Sorts arguments by role. -/
def classify (args : List Arg) : Except HistError Fill :=
  args.foldlM push (ofCoords [])

/-- Applies the fill's update to cell `i` of a store. -/
def apply {σ ν : Type} [Store σ ν] (f : Fill) (s : σ) (i : Nat) : Updated σ :=
  match f.weight, f.sample with
  | none, none => Store.increment s i
  | some w, none => Store.addWeight s i w
  | none, some xs => Store.addSample s i xs
  | some w, some xs => Store.addWeightedSample s i w xs

/-- Equality of fills; numbers compare as floats. -/
protected def beq (f g : Fill) : Bool :=
  f.coords == g.coords && f.weight == g.weight && f.sample == g.sample

instance : BEq Fill := ⟨Fill.beq⟩

end Fill

end Histograms
