import Histograms.Index
import Histograms.Fill
/-!
# Histograms

A `Histogram` is a set of axes and a store with one cell per cell index of the
axes. A fill bins its point on every axis, and when the point is not dropped it
updates the one cell its roles select; a failure anywhere leaves the histogram
as it was. Two histograms merge when their axes are equal.

Main statements:

* `Histogram.withStore` and `Histogram.ofParts` build a histogram from axes
  (at least one) and a store, reset to or checked against `Axes.bincount`.
* `Histogram.fill`, `Histogram.fillWith`, `Histogram.cellAt`, `Histogram.get?`,
  `Histogram.reset`, `Histogram.scale`, `Histogram.merge`.
-/

namespace Histograms

/-- Axes and a store with one cell per cell index. -/
structure Histogram (σ : Type) where
  axes : Axes
  store : σ

namespace Histogram

variable {σ ν : Type} [Store σ ν]

/-- A histogram over `axes` whose store is `s` reset to the number of cells. -/
def withStore (axes : Axes) (s : σ) : Except HistError (Histogram σ) :=
  if axes.isEmpty then .error .noAxes
  else do
    let cells ← axes.bincount
    let s ← Store.reset s cells
    pure ⟨axes, s⟩

/-- A histogram from axes and a store that already has one cell per cell index. -/
def ofParts (axes : Axes) (s : σ) : Except HistError (Histogram σ) :=
  if axes.isEmpty then .error .noAxes
  else do
    let cells ← axes.bincount
    if Store.size s ≠ cells then throw (.storageSize (Store.size s) cells)
    pure ⟨axes, s⟩

/-- The number of axes. -/
def rank (h : Histogram σ) : Nat := h.axes.length

/-- The number of cells. -/
def size (h : Histogram σ) : Nat := Store.size h.store

/-- Applies a fill: the cell of its point takes its update, a dropped point changes
nothing, and a refused fill leaves the histogram as it was. -/
def fillWith (h : Histogram σ) (f : Fill) : Updated (Histogram σ) :=
  match h with
  | ⟨axes, store⟩ =>
    match axes.indexOfCoords f.coords with
    | .error e => (⟨axes, store⟩, some e)
    | .ok cursor =>
      match cursor.get? with
      | some i => match f.apply store i with
        | (store, e) => (⟨axes, store⟩, e)
      | none => (⟨axes, store⟩, none)

/-- Counts a point once. -/
def fill (h : Histogram σ) (coords : List Coord) : Updated (Histogram σ) :=
  h.fillWith (Fill.ofCoords coords)

/-- The cell of one bin id per axis. -/
def cellAt (h : Histogram σ) (bins : List Int) : Except HistError ν := do
  let i ← h.axes.indexOfBins bins
  pure (Store.get h.store i)

/-- Cell `i`, if there is one. -/
def get? (h : Histogram σ) (i : Nat) : Option ν :=
  if i < h.size then some (Store.get h.store i) else none

/-- Empties every cell. -/
def reset (h : Histogram σ) : Except HistError (Histogram σ) := do
  let cells ← h.axes.bincount
  pure { h with store := ← Store.reset h.store cells }

/-- Multiplies every cell by a factor. -/
def scale (h : Histogram σ) (f : Float) : Histogram σ :=
  { h with store := Store.scale h.store f }

/-- Adds the cells of a histogram over equal axes. -/
def merge (h o : Histogram σ) : Except HistError (Histogram σ) :=
  if h.axes == o.axes then do pure { h with store := ← Store.merge h.store o.store }
  else .error .axesMismatch

/-- Equal axes and equal stores. -/
protected def beq (h o : Histogram σ) : Bool :=
  h.axes == o.axes && Store.beq h.store o.store

end Histogram

end Histograms
