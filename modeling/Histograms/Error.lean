import Histograms.Decimal.Notation
/-!
# Errors

Every way an operation of this library can refuse its input, as a cause with
its data. The wording lives in `HistError.message` and the name of each kind of
error in `HistError.kind`; nothing else builds error text.
-/

namespace Histograms

/-- What a fill asks of a cell: a plain count, a weight, a sample, or both. -/
inductive Role where
  | plain
  | weight
  | sample
  | weightedSample
  deriving DecidableEq, Repr

/-- The word for a role in messages. -/
def Role.name : Role → String
  | .plain => "plain"
  | .weight => "weight"
  | .sample => "sample"
  | .weightedSample => "weighted sample"

/-- Why an axis or a set of axes cannot be built. -/
inductive AxisFault where
  /-- An axis without bins. -/
  | noBins
  /-- More bins than a bin id can count (`2 ^ 31 - 1` or more). -/
  | tooManyBins (bins : Nat)
  /-- Real bounds that are not finite, or not increasing. -/
  | regularRange (min max : Float)
  /-- A wrapping axis with an underflow slot. -/
  | circularUnderflow
  /-- Integer bounds that are not increasing. -/
  | integerRange (min max : Int)
  /-- A wrapping integer axis. -/
  | integerCircular
  /-- Integer bounds whose distance does not fit a signed 64-bit word. -/
  | integerSpan
  /-- A label axis with an underflow slot or wrapping. -/
  | categoryFlow
  /-- The product of the axes' extents does not fit a 64-bit word. -/
  | tooManyCells

/-- The description of an axis fault. -/
def AxisFault.message : AxisFault → String
  | .noBins => "an axis needs at least one bin"
  | .tooManyBins n => s!"{n} bins is too many"
  | .regularRange lo hi =>
    "regular axis needs finite min < max, got [" ++ lo.toPositional ++ ", " ++
      hi.toPositional ++ ")"
  | .circularUnderflow => "a circular axis cannot underflow"
  | .integerRange lo hi => s!"integer axis needs min < max, got [{lo}, {hi})"
  | .integerCircular => "an integer axis cannot be circular"
  | .integerSpan => "integer axis range overflows"
  | .categoryFlow => "a category axis can only have an overflow slot"
  | .tooManyCells => "too many cells"

/-- The errors of the library. -/
inductive HistError where
  /-- A coordinate list whose length is not the number of axes. -/
  | argumentCount (got rank : Nat)
  /-- An axis got a coordinate of a kind it does not bin. -/
  | argumentType (axis expected found : String)
  /-- A cell has no update for a role. -/
  | unsupportedRole (cell : String) (role : Role)
  /-- A sample of the wrong length. -/
  | sampleArity (expected got : Nat)
  /-- A weight or a sample given twice in one fill. -/
  | duplicateRole (role : Role)
  /-- A bin id that has no slot on its axis. -/
  | indexOutOfRange (axis : Nat) (index : Int) (size : Nat)
  /-- A fixed-capacity store asked for more cells than it has. -/
  | capacity (requested capacity : Nat)
  /-- A histogram without axes. -/
  | noAxes
  /-- Merging histograms over different axes. -/
  | axesMismatch
  /-- A store whose length is not the number of cells the axes need. -/
  | storageSize (cells expected : Nat)
  /-- An axis that cannot be built. -/
  | invalidAxis (fault : AxisFault)

namespace HistError

/-- The name of the kind of an error. -/
def kind : HistError → String
  | .argumentCount .. => "ArgumentCount"
  | .argumentType .. => "ArgumentType"
  | .unsupportedRole .. => "UnsupportedRole"
  | .sampleArity .. => "SampleArity"
  | .duplicateRole .. => "DuplicateRole"
  | .indexOutOfRange .. => "IndexOutOfRange"
  | .capacity .. => "Capacity"
  | .noAxes => "NoAxes"
  | .axesMismatch => "AxesMismatch"
  | .storageSize .. => "StorageSize"
  | .invalidAxis .. => "InvalidAxis"

/-- The description of an error. -/
def message : HistError → String
  | .argumentCount got rank => s!"number of arguments {got} != histogram rank {rank}"
  | .argumentType axis expected found =>
    s!"{axis}: cannot convert argument of type {found} to {expected}"
  | .unsupportedRole cell role => cell ++ " does not accept a " ++ role.name ++ " argument"
  | .sampleArity expected got => s!"sample expects {expected} values, got {got}"
  | .duplicateRole role => "more than one " ++ role.name ++ " argument in a single fill"
  | .indexOutOfRange axis index size =>
    s!"bin index {index} out of range for axis {axis} with {size} bins"
  | .capacity requested held => s!"cannot hold {requested} cells, capacity is {held}"
  | .noAxes => "a histogram needs at least one axis"
  | .axesMismatch => "axes of both histograms must be equal"
  | .storageSize cells expected => s!"storage holds {cells} cells but the axes require {expected}"
  | .invalidAxis fault => "invalid axis: " ++ fault.message

end HistError

end Histograms
