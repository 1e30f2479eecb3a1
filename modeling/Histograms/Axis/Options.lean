import Histograms.Error
/-!
# Axis options and coordinates

`AxisOptions` says which flow slots an axis has (underflow, overflow) and whether
it wraps around. As a bit set it is `underflow = 1`, `overflow = 2`, `circular = 4`.

A `Coord` is one component of a point to bin: a real, an integer or a label.
Axes bin the kinds they understand and refuse the others with
`HistError.argumentType`, naming the kind by `Coord.typeName`.
-/

namespace Histograms

/-- The flow slots of an axis and whether it wraps around. -/
structure AxisOptions where
  underflow : Bool
  overflow : Bool
  circular : Bool
  deriving DecidableEq, Repr

namespace AxisOptions

/-- No flow slot, no wrapping. -/
def empty : AxisOptions := ⟨false, false, false⟩

/-- An underflow and an overflow slot: the default of real and integer axes. -/
def flows : AxisOptions := ⟨true, true, false⟩

/-- The options of the bit set `bits` (bits above the third are ignored). -/
def ofBits (bits : Nat) : AxisOptions :=
  ⟨bits.testBit 0, bits.testBit 1, bits.testBit 2⟩

/-- The bit set of the options. -/
def toBits (o : AxisOptions) : Nat :=
  o.underflow.toNat + 2 * o.overflow.toNat + 4 * o.circular.toNat

/-- The number of flow slots, `0`, `1` or `2`. -/
def flowSlots (o : AxisOptions) : Nat :=
  o.underflow.toNat + o.overflow.toNat

end AxisOptions

/-- One component of a point: a real, an integer or a label. -/
inductive Coord where
  | real (x : Float)
  | int (i : Int)
  | label (s : String)

namespace Coord

/-- The name of the kind of a coordinate, as errors report it. -/
def typeName : Coord → String
  | .real _ => "f64"
  | .int _ => "i64"
  | .label _ => "str"

/-- Equality of coordinates; reals compare as floats, so NaN equals nothing. -/
protected def beq : Coord → Coord → Bool
  | .real x, .real y => x == y
  | .int i, .int j => i == j
  | .label s, .label t => s == t
  | _, _ => false

instance : BEq Coord := ⟨Coord.beq⟩

/-- The one component of a coordinate given to a one-dimensional axis; a tuple of
any other length is refused in the name of `axis`. -/
def single (axis : String) : List Coord → Except HistError Coord
  | [c] => .ok c
  | _ => .error (.argumentType axis "a single value" "a tuple")

end Coord

namespace Axis

/-- The bound on the number of bins of one axis: bin ids are 32-bit signed words, so
fewer than `2 ^ 31 - 1` bins leave room for the overflow id. -/
def maxBins : Nat := 2147483647

/-- The fault of a number of bins that is `0` or at least `maxBins`. -/
def sizeFault (bins : Nat) : AxisFault :=
  if bins = 0 then .noBins else .tooManyBins bins

end Axis

end Histograms
