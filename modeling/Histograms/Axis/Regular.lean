import Histograms.Axis.Options
/-!
# Evenly spaced real bins

A regular axis cuts `[min, max)` into `bins` bins of equal width. A real `x`
goes to bin `⌊(x - min) / (max - min) * bins⌋`, computed in binary64 as
`z = (x - min) / delta` followed by `z * bins` truncated, and capped at the last
bin. Below `min` is bin `-1`, from `max` up (and NaN) is bin `bins`. A circular
axis first wraps `z` into `[0, 1)`, so it never underflows.

Main statements:

* `Axis.Regular.make` checks the number of bins, then that the bounds are finite
  and increasing, then that a circular axis has no underflow slot.
* `Axis.Regular.bin` is the binning rule; `Axis.Regular.edge` the lower edge of a bin.
-/

namespace Histograms

/-- An axis of `bins` equal bins starting at `min`, `delta` wide in all. -/
structure Axis.Regular where
  bins : Nat
  min : Float
  delta : Float
  options : AxisOptions
  bins_pos : 0 < bins
  bins_lt : bins < Axis.maxBins

namespace Axis.Regular

/-- A regular axis over `[min, max)` with the given options. -/
def make (bins : Nat) (min max : Float) (options : AxisOptions) : Except HistError Regular :=
  if hb : 0 < bins ∧ bins < Axis.maxBins then
    if !(min.isFinite && max.isFinite && min < max) then
      .error (.invalidAxis (.regularRange min max))
    else if options.circular && options.underflow then
      .error (.invalidAxis .circularUnderflow)
    else
      .ok ⟨bins, min, max - min, options, hb.1, hb.2⟩
  else
    .error (.invalidAxis (Axis.sizeFault bins))

/-- A regular axis with both flow slots. -/
def new (bins : Nat) (min max : Float) : Except HistError Regular :=
  make bins min max AxisOptions.flows

/-- A wrapping axis of one turn `[phase, phase + perimeter)`, with an overflow slot
(where NaN goes). -/
def circular (bins : Nat) (phase perimeter : Float) : Except HistError Regular :=
  make bins phase (phase + perimeter) ⟨false, true, true⟩

/-- The position of `x` in units of the axis range, wrapped into `[0, 1)` on a
circular axis. -/
def position (a : Regular) (x : Float) : Float :=
  let z := (x - a.min) / a.delta
  if a.options.circular then
    let w := z - z.floorExact
    if 1.0 ≤ w then 0.0 else w
  else z

/-- The bin id of `x`: `-1` below the range, `bins` above it or for NaN. -/
def bin (a : Regular) (x : Float) : Int :=
  let z := a.position x
  if z.isNaN || 1.0 ≤ z then a.bins
  else if z < 0.0 then -1
  else Min.min (Float.truncClamp (-2147483648) 2147483647 (z * Float.ofNat a.bins)) (a.bins - 1)

/-- The lower edge of bin `i` (bin `bins` is the upper end of the range). -/
def edge (a : Regular) (i : Int) : Float :=
  a.min + a.delta * Float.ofInt i / Float.ofNat a.bins

/-- The bin id of a coordinate: reals and integers are binned, labels refused. -/
def index (a : Regular) (coord : List Coord) : Except HistError Int := do
  match ← Coord.single "regular" coord with
  | .real x => pure (a.bin x)
  | .int i => pure (a.bin (Float.ofInt i))
  | c => throw (.argumentType "regular" "f64" c.typeName)

/-- Equality of axes; the bounds compare as floats. -/
protected def beq (a b : Regular) : Bool :=
  a.bins == b.bins && a.min == b.min && a.delta == b.delta && a.options == b.options

instance : BEq Regular := ⟨Regular.beq⟩

end Axis.Regular

end Histograms
