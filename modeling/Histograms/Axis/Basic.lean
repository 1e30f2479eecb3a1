import Histograms.Axis.Regular
import Histograms.Axis.Integer
import Histograms.Axis.Category
/-!
# Axes

An `Axis` is one of the three kinds of binning. Every axis has a name, a number
of ordinary bins (`size`), options, and an `extent`: the number of storage slots
it needs, its bins plus one per flow slot. `Axis.index` maps a coordinate to a
bin id in `[-1, size]`; `-1` and `size` are the underflow and overflow ids.

`Axis.slot` places a bin id among the slots: ordinary bins keep their id, the
overflow id goes to slot `size`, and the underflow id to the slot after that
(`size + 1` with an overflow slot, `size` without). An id whose flow slot the
axis lacks has no slot.
-/

namespace Histograms

/-- An axis of any kind. -/
inductive Axis where
  | regular (a : Axis.Regular)
  | integer (a : Axis.Integer)
  | category (a : Axis.Category)

namespace Axis

/-- The name of the kind of an axis. -/
def name : Axis → String
  | .regular _ => "regular"
  | .integer _ => "integer"
  | .category _ => "category"

/-- The number of ordinary bins. -/
def size : Axis → Nat
  | .regular a => a.bins
  | .integer a => a.size
  | .category a => a.size

/-- The flow slots and wrapping of an axis. -/
def options : Axis → AxisOptions
  | .regular a => a.options
  | .integer a => a.options
  | .category a => a.options

/-- The number of storage slots: the bins and the flow slots. -/
def extent (a : Axis) : Nat := a.size + a.options.flowSlots

/-- The bin id of a coordinate. -/
def index : Axis → List Coord → Except HistError Int
  | .regular a => a.index
  | .integer a => a.index
  | .category a => a.index

/-- The storage slot of a bin id, if the axis has one for it. -/
def slot (a : Axis) (j : Int) : Option Nat :=
  if j < 0 then
    if j = -1 ∧ a.options.underflow then some (a.size + a.options.overflow.toNat) else none
  else if j < a.size then some j.toNat
  else if j = a.size ∧ a.options.overflow then some a.size
  else none

/-- Equality of axes: the same kind with equal parameters. -/
protected def beq : Axis → Axis → Bool
  | .regular a, .regular b => a == b
  | .integer a, .integer b => a == b
  | .category a, .category b => a == b
  | _, _ => false

instance : BEq Axis := ⟨Axis.beq⟩

theorem extent_pos (a : Axis) : 0 < a.extent := by
  cases a with
  | regular r => have := r.bins_pos; simp [extent, size]; omega
  | integer i => have := i.min_lt; simp [extent, size, Integer.size]; omega
  | category c => have := c.size_pos; simp [extent, size, Category.size]; omega

end Axis

end Histograms
