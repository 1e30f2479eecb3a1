import Histograms.Histogram
import Histograms.Store.Counts
import Histograms.Store.CellVec
import Histograms.Store.CellArray
import Histograms.Cell.Sum
import Histograms.Cell.Mean
import Histograms.Text.Quote
/-!
# Structural texts

`Inspect` writes a value as a structure: a record is `Name { field: value, … }`, a
variant `Tag(content)`, a list `[a, b]`, a float in the general notation, a label
quoted. A counting store is written `AdaptiveStorage<LAYOUT>[c0 c1 …]` with its
cells in plain decimal (floats positional), and a histogram
`Histogram[axes: […], storage: …]`.
-/

namespace Histograms

/-- A structural text of a value. -/
class Inspect (α : Type) where
  inspect : α → String

export Inspect (inspect)

namespace Text

/-- A record text `name { field: value, … }`. -/
def record (name : String) (fields : List (String × String)) : String :=
  name ++ " \x7b " ++ ", ".intercalate (fields.map fun f => f.1 ++ ": " ++ f.2) ++ " \x7d"

/-- A list text `[a, b]`. -/
def list (items : List String) : String :=
  "[" ++ ", ".intercalate items ++ "]"

end Text

instance : Inspect Float := ⟨Float.toGeneral⟩

instance : Inspect CompensatedSum where
  inspect s := Text.record "Sum" [("large", s.large.toGeneral), ("small", s.small.toGeneral)]

instance : Inspect WeightedSum where
  inspect s := Text.record "WeightedSum" [("sum", s.sum.toGeneral), ("sum2", s.sum2.toGeneral)]

instance : Inspect (Mean Float) where
  inspect m := Text.record "Mean"
    [("count", m.count.toGeneral), ("mean", m.mean.toGeneral), ("dsum2", m.dsum2.toGeneral)]

instance : Inspect (WeightedMean Float) where
  inspect m := Text.record "WeightedMean"
    [("sum", m.sum.toGeneral), ("sum2", m.sum2.toGeneral), ("mean", m.mean.toGeneral),
      ("dsum2", m.dsum2.toGeneral)]

/-- The set flags joined by ` | `, or `0x0` for none. -/
instance : Inspect AxisOptions where
  inspect o :=
    let names := (if o.underflow then ["UNDERFLOW"] else []) ++
      (if o.overflow then ["OVERFLOW"] else []) ++ (if o.circular then ["CIRCULAR"] else [])
    "Options(" ++ (if names.isEmpty then "0x0" else " | ".intercalate names) ++ ")"

instance : Inspect Axis where
  inspect
    | .regular a => "Regular(" ++ Text.record "Regular"
        [("bins", toString a.bins), ("min", a.min.toGeneral), ("delta", a.delta.toGeneral),
          ("options", inspect a.options)] ++ ")"
    | .integer a => "Integer(" ++ Text.record "Integer"
        [("min", toString a.min), ("max", toString a.max), ("options", inspect a.options)] ++ ")"
    | .category a => "Category(" ++ Text.record "Category"
        [("labels", Text.list (a.labels.map Text.quote)), ("options", inspect a.options)] ++ ")"

instance : Inspect Counts where
  inspect s := "AdaptiveStorage<" ++ s.layout.name ++ ">[" ++
    " ".intercalate (s.toList.map Count.text) ++ "]"

instance {α : Type} [Inspect α] : Inspect (CellVec α) where
  inspect s := Text.record "VecStorage" [("cells", Text.list (s.cells.toList.map inspect))]

instance {α : Type} [Inspect α] {capacity : Nat} : Inspect (CellArray α capacity) where
  inspect s := Text.record "ArrayStorage"
    [("cells", Text.list (s.cells.toList.map inspect)), ("len", toString s.len)]

instance {σ : Type} [Inspect σ] : Inspect (Histogram σ) where
  inspect h := "Histogram[axes: " ++ Text.list (h.axes.map inspect) ++ ", storage: " ++
    inspect h.store ++ "]"

end Histograms
