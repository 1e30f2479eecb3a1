import Histograms.Axis.Options
/-!
# Label bins

A category axis has one bin per label, in the order given. A label goes to the
bin of its first equal label, and an unknown label to `size` (the overflow id).
An integer in `[0, size)` names a bin directly; any other integer goes to `size`.
A category axis may have an overflow slot, never an underflow slot or wrapping.
-/

namespace Histograms

/-- An axis with one bin per label. -/
structure Axis.Category where
  labels : List String
  options : AxisOptions
  size_pos : 0 < labels.length
  size_lt : labels.length < Axis.maxBins

namespace Axis.Category

/-- A category axis of `labels` with the given options. -/
def make (labels : List String) (options : AxisOptions) : Except HistError Category :=
  if options.underflow || options.circular then
    .error (.invalidAxis .categoryFlow)
  else if hs : 0 < labels.length ∧ labels.length < Axis.maxBins then
    .ok ⟨labels, options, hs.1, hs.2⟩
  else
    .error (.invalidAxis (Axis.sizeFault labels.length))

/-- A category axis without flow slots. -/
def new (labels : List String) : Except HistError Category :=
  make labels AxisOptions.empty

/-- The number of bins. -/
def size (a : Category) : Nat := a.labels.length

/-- The label of bin `i`, if there is such a bin. -/
def label (a : Category) (i : Nat) : Option String := a.labels[i]?

/-- The bin id of a coordinate: labels and integers; reals refused. -/
def index (a : Category) (coord : List Coord) : Except HistError Int := do
  match ← Coord.single "category" coord with
  | .label s => pure ((a.labels.idxOf? s).getD a.size)
  | .int i => pure (if 0 ≤ i ∧ i < a.size then i else a.size)
  | c => throw (.argumentType "category" "str" c.typeName)

/-- Equality of axes. -/
protected def beq (a b : Category) : Bool :=
  a.labels == b.labels && a.options == b.options

instance : BEq Category := ⟨Category.beq⟩

end Axis.Category

end Histograms
