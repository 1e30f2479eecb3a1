import Histograms.Session.Decode
/-!
# Sessions on axes

Requests that exercise one axis or a set of axes without a store: the bins of
coordinates on one axis, its edges and labels, the number of cells of a set of
axes, and the cell index of a point or of bin ids.

A set of axes may name the container it would be held in; every container gives
the same answers, and a fixed-size one holds at most five axes. An axis may name
the way it is called, checked once the axis is built.
-/

namespace Histograms.Session

/-- Reads an optional list field with a reader for its items. -/
def optionalList {α : Type} (req : Json) (key : String) (read : Json → Outcome α) :
    Outcome (Option (List α)) :=
  match req.field? key with
  | none => .ok none
  | some v => do pure (some (← (← v.toArray).mapM read))

/-- A bin id or the error of binning. -/
def binReport : Except HistError Int → Report
  | .ok j => .int j
  | .error e => (Failure.library e).report

/-- The answer about one axis: its name, size, extent and options, and on request
the bins of coordinate tuples, the edges and the labels of bins. -/
def axisAnswer (req : Json) : Outcome Report := do
  let axis ← (← req.need "axis").toAxis
  match req.name? "via" with
  | none | some "boxed" | some "boxed_any" | some "ref" => pure ()
  | some other => bad ("unknown via " ++ other)
  let tuples ← optionalList req "coords" Json.toCoords
  let edges ← optionalList req "edges" Json.toI32
  let labels ← optionalList req "labels" Json.toU64
  let edgeOf (i : Int) : Report :=
    match axis with
    | .regular a => .float (a.edge i)
    | _ => .null
  let labelOf (i : Nat) : Report :=
    match axis with
    | .category a => Report.opt ((a.label i).map Report.str)
    | _ => .null
  pure (.obj ([("name", .str axis.name), ("size", .nat axis.size),
      ("extent", .nat axis.extent), ("options", .nat axis.options.toBits)] ++
    (match tuples with
      | some ts => [("index", .list (ts.map fun t => binReport (axis.index t)))]
      | none => []) ++
    (match edges with
      | some es => [("edges", .list (es.map edgeOf))]
      | none => []) ++
    (match labels with
      | some ls => [("labels", .list (ls.map labelOf))]
      | none => [])))

/-- Checks the container a set of axes is to be held in. -/
def checkContainer (req : Json) (axes : Axes) : Outcome Unit :=
  match req.name? "container" with
  | none | some "vec" | some "boxed" | some "refs" | some "dyn_refs" => .ok ()
  | some "array" =>
    if axes.length ≤ 5 then .ok () else bad "array container holds at most 5 axes"
  | some other => bad ("unknown container " ++ other)

/-- The axes of a request, in their container. -/
def requestAxes (req : Json) : Outcome Axes := do
  let axes ← (← req.need "axes").toAxes
  checkContainer req axes
  pure axes

/-- The number of cells of a set of axes. -/
def bincountAnswer (req : Json) : Outcome Report := do
  let axes ← requestAxes req
  let n ← library axes.bincount
  pure (.obj [("bincount", .nat n)])

/-- The cell index of a point, `null` when the point is dropped. -/
def indexCoordsAnswer (req : Json) : Outcome Report := do
  let axes ← requestAxes req
  let coords ← (← req.need "coords").toCoords
  let cursor ← library (axes.indexOfCoords coords)
  pure (.obj [("index", Report.opt (cursor.get?.map Report.nat))])

/-- The cell index of one bin id per axis. -/
def indexBinsAnswer (req : Json) : Outcome Report := do
  let axes ← requestAxes req
  let bins ← (← (← req.need "bins").toArray).mapM Json.toI32
  let i ← library (axes.indexOfBins bins)
  pure (.obj [("index", .nat i)])

end Histograms.Session
