import Histograms.Axis.Basic
/-!
# From bin ids to one cell index

The cells of a histogram are laid out in mixed radix: axis `0` varies fastest,
and axis `k` has weight `extent 0 * … * extent (k - 1)`. A `Cursor` walks the axes,
adding `slot * stride` and multiplying the stride by the axis extent. A bin id
without a slot leaves the offset as it is and sets the stride to `0`, which marks
the point as dropped; a stride that would reach `2 ^ 64` is also set to `0`.

Main statements:

* `Axes.bincount` is the product of the extents, refused from `2 ^ 64` up.
* `Axes.indexOfCoords` bins one coordinate per axis (a one-axis set takes the
  whole tuple) and reports the first error in axis order.
* `Axes.indexOfBins` checks every bin id against its axis and returns the offset.
-/

namespace Histograms

/-- A point being placed: the cell offset so far and the weight of the next axis,
`0` once the point is dropped. -/
structure Cursor where
  offset : Nat
  stride : Nat
  deriving DecidableEq, Repr

namespace Cursor

/-- The cursor before any axis. -/
def start : Cursor := ⟨0, 1⟩

/-- The cell index of a point that was not dropped. -/
def get? (c : Cursor) : Option Nat :=
  if 0 < c.stride then some c.offset else none

/-- Places bin id `j` of axis `a`. -/
def step (c : Cursor) (a : Axis) (j : Int) : Cursor :=
  match a.slot j with
  | some s =>
    let stride := c.stride * a.extent
    ⟨c.offset + s * c.stride, if stride < 2 ^ 64 then stride else 0⟩
  | none => { c with stride := 0 }

end Cursor

/-- An ordered set of axes. -/
abbrev Axes := List Axis

namespace Axes

/-- The number of cells of the axes: the product of their extents, which must stay
below `2 ^ 64`. No axes make one cell. -/
def bincount (axes : Axes) : Except HistError Nat :=
  let cells := (axes.map Axis.extent).foldr (· * ·) 1
  if cells < 2 ^ 64 then .ok cells else .error (.invalidAxis .tooManyCells)

/-- Bins one coordinate per axis, from the cursor `c` on. -/
def placeCoords : Axes → List Coord → Cursor → Except HistError Cursor
  | a :: axes, x :: coords, c => do
    let j ← a.index [x]
    placeCoords axes coords (c.step a j)
  | _, _, c => .ok c

/-- The cursor of a point. With one axis and more than one coordinate the whole
tuple goes to that axis; otherwise the number of coordinates must be the rank. -/
def indexOfCoords (axes : Axes) (coords : List Coord) : Except HistError Cursor :=
  match axes, coords with
  | [a], _ :: _ :: _ => do
    let j ← a.index coords
    pure (Cursor.start.step a j)
  | _, _ =>
    if coords.length ≠ axes.length then .error (.argumentCount coords.length axes.length)
    else placeCoords axes coords Cursor.start

/-- Places one bin id per axis; `n` is the position of the first axis. -/
def placeBins (n : Nat) : Axes → List Int → Cursor → Except HistError Cursor
  | a :: axes, j :: bins, c =>
    match a.slot j with
    | some _ => placeBins (n + 1) axes bins (c.step a j)
    | none => .error (.indexOutOfRange n j a.size)
  | _, _, c => .ok c

/-- The cell index of one bin id per axis. -/
def indexOfBins (axes : Axes) (bins : List Int) : Except HistError Nat :=
  if bins.length ≠ axes.length then .error (.argumentCount bins.length axes.length)
  else (placeBins 0 axes bins Cursor.start).map Cursor.offset

end Axes

end Histograms
