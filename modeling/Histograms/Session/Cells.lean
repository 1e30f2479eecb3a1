import Histograms.Session.Decode
import Histograms.Text.Inspect
/-!
# Showing cells and stores

`CellView` says how a session shows a cell and when a cell is blank: a count is
blank when it is zero, a float when it equals `0.0`, an accumulator when it equals
the empty one. A listing of cells names only the cells that are not blank, with
their index, in increasing order; a NaN cell is never blank.

`SessionStore` says which fields describe a store after a step; the counting
store also reports its layout and answers the queries `sum`, `repr` and `debug`.

`Seed` builds a cell from the numbers of its constructor: a float, a sum, a value
and variance, a count with mean and variance, or weight sums with mean and variance.
-/

namespace Histograms.Session

/-- How a session shows a cell. -/
class CellView (ν : Type) where
  report : ν → Report
  blank : ν → Bool

/-- The cells below index `k` that `blank` does not hold, each shown by `report` beside
its index, in increasing order and in front of `acc`. -/
def listingBelow {ν : Type} (blank : ν → Bool) (report : ν → Report) (cells : Array ν) :
    Nat → List Report → List Report
  | 0, acc => acc
  | k + 1, acc =>
    if h : k < cells.size then
      let c := cells[k]
      listingBelow blank report cells k
        (if blank c then acc else .list [.nat k, report c] :: acc)
    else listingBelow blank report cells k acc

/-- The cells that `blank` does not hold, each shown by `report` beside its index. -/
def listingWith {ν : Type} (blank : ν → Bool) (report : ν → Report) (cells : Array ν) : Report :=
  .list (listingBelow blank report cells cells.size [])

/-- The non-blank cells with their indexes. -/
def listing {ν : Type} [CellView ν] (cells : Array ν) : Report :=
  listingWith CellView.blank CellView.report cells

instance : CellView Count where
  report
    | .int n => .obj [("int", .nat n)]
    | .big n => .obj [("big", .str (toString n))]
    | .real x => .obj [("real", .float x)]
  blank := Count.isZero

instance : CellView Float where
  report x := .float x
  blank x := x == 0.0

instance : CellView CompensatedSum where
  report s := .obj [("large", .float s.large), ("small", .float s.small), ("value", .float s.value)]
  blank s := Cell.beq s Cell.empty

instance : CellView WeightedSum where
  report s := .obj [("value", .float s.value), ("variance", .float s.variance)]
  blank s := Cell.beq s Cell.empty

instance : CellView (Mean Float) where
  report m := .obj [("count", .float m.count), ("value", .float m.value),
    ("variance", .float m.variance), ("population_variance", .float m.populationVariance)]
  blank m := Cell.beq m Cell.empty

instance : CellView (WeightedMean Float) where
  report m := .obj [("sum", .float m.sum), ("sum2", .float m.sum2), ("value", .float m.value),
    ("variance", .float m.variance)]
  blank m := Cell.beq m Cell.empty

/-- How a session shows a store of a histogram. -/
class SessionStore (σ : Type) where
  /-- The fields that describe the store after a step. -/
  state : σ → Fields
  /-- Answers a query only this kind of store has. -/
  query : σ → String → Option Report

/-- The non-zero cells of a counting store with their indexes, read off its array. -/
def countsListing : Counts → Report
  | .exact w cells _ =>
    listingWith (· == 0) (fun n => CellView.report (if w = .big then Count.big n else Count.int n))
      cells
  | .real cells => listingWith (· == 0.0) (fun x => CellView.report (Count.real x)) cells

instance : SessionStore Counts where
  state s := [("cells", countsListing s), ("repr", .str s.layout.name)]
  query s
    | "sum" => some (CellView.report s.sum)
    | "repr" => some (.str s.layout.name)
    | "debug" => some (.str (inspect s))
    | _ => none

instance {α : Type} [Cell α] [CellView α] : SessionStore (CellVec α) where
  state s := [("cells", listing s.cells)]
  query _ _ := none

instance {α : Type} [Cell α] [CellView α] {capacity : Nat} :
    SessionStore (CellArray α capacity) where
  state s := [("cells", listing s.used.toArray)]
  query _ _ := none

/-- A cell built from the numbers of its constructor. -/
class Seed (α : Type) where
  arity : Nat
  ofFloats : List Float → α

instance : Seed Float := ⟨1, fun xs => xs.headD 0.0⟩

instance : Seed CompensatedSum := ⟨1, fun xs => CompensatedSum.new (xs.headD 0.0)⟩

instance : Seed WeightedSum := ⟨2, fun xs => ⟨xs.getD 0 0.0, xs.getD 1 0.0⟩⟩

instance : Seed (Mean Float) :=
  ⟨3, fun xs => Mean.ofMoments (xs.getD 0 0.0) (xs.getD 1 0.0) (xs.getD 2 0.0)⟩

instance : Seed (WeightedMean Float) :=
  ⟨4, fun xs => WeightedMean.ofMoments (xs.getD 0 0.0) (xs.getD 1 0.0) (xs.getD 2 0.0)
    (xs.getD 3 0.0)⟩

/-- Reads the constructor numbers of a cell. -/
def Json.toSeed {α : Type} [Seed α] (j : Json) : Outcome α := do
  let xs ← j.toFloats
  let n := Seed.arity α
  if xs.length = n then pure (Seed.ofFloats xs) else bad s!"init needs {n} values"

end Histograms.Session
