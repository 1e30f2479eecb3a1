import Histograms.Axis.Options
/-!
# Integer bins

An integer axis has one bin per integer of `[min, max)`. An integer `i` goes to
bin `i - min`, below `min` to `-1` and from `max` up to `size`. A real goes to
the bin of its floor; the floor is first brought into the signed 64-bit range
(so infinities stay on their side), and NaN goes to `size`.

Main statements:

* `Axis.Integer.make` checks, in this order, that the bounds increase, that the
  axis does not wrap, and that the number of bins is admissible.
* `Axis.Integer.bin` is the binning rule of integers; `Axis.Integer.index` adds reals.
-/

namespace Histograms

/-- An axis of the integers `min, min + 1, …, max - 1`. -/
structure Axis.Integer where
  min : Int
  max : Int
  options : AxisOptions
  min_lt : min < max
  span_lt : max - min < Axis.maxBins

namespace Axis.Integer

/-- The largest signed 64-bit word. -/
def wordMax : Int := 9223372036854775807

/-- The least signed 64-bit word. -/
def wordMin : Int := -9223372036854775808

/-- An integer axis over `[min, max)` with the given options. -/
def make (min max : Int) (options : AxisOptions) : Except HistError Integer :=
  if hlt : min < max then
    if options.circular then .error (.invalidAxis .integerCircular)
    else if wordMax < max - min then .error (.invalidAxis .integerSpan)
    else if hs : max - min < Axis.maxBins then .ok ⟨min, max, options, hlt, hs⟩
    else .error (.invalidAxis (Axis.sizeFault (max - min).toNat))
  else
    .error (.invalidAxis (.integerRange min max))

/-- An integer axis with both flow slots. -/
def new (min max : Int) : Except HistError Integer :=
  make min max AxisOptions.flows

/-- The number of bins. -/
def size (a : Integer) : Nat := (a.max - a.min).toNat

/-- The bin id of an integer. -/
def bin (a : Integer) (i : Int) : Int :=
  if i < a.min then -1
  else if a.max ≤ i then a.size
  else i - a.min

/-- The bin id of a coordinate: integers, and reals by their floor; labels refused. -/
def index (a : Integer) (coord : List Coord) : Except HistError Int := do
  match ← Coord.single "integer" coord with
  | .int i => pure (a.bin i)
  | .real x =>
    if x.isNaN then pure a.size
    else pure (a.bin (Float.truncClamp wordMin wordMax x.floorExact))
  | c => throw (.argumentType "integer" "i64" c.typeName)

/-- Equality of axes. -/
protected def beq (a b : Integer) : Bool :=
  a.min == b.min && a.max == b.max && a.options == b.options

instance : BEq Integer := ⟨Integer.beq⟩

end Axis.Integer

end Histograms
