import Histograms.Session.Histogram
/-!
# Reporting how fill arguments are sorted

A fill-arguments request fills nothing. It builds a fill from its `coords`,
`weight` and `sample` when `coords` is present, sorts its list `args` by role when
that is present, and compares the two fills when both exist. A second weight or
sample among the arguments is reported in place of the sorted fill.
-/

namespace Histograms.Session

/-- A coordinate in an answer: `{"int": i}`, `{"real": x}` or `{"str": s}`. -/
def coordReport : Coord → Report
  | .int i => .obj [("int", .int i)]
  | .real x => .obj [("real", .float x)]
  | .label s => .obj [("str", .str s)]

/-- A fill in an answer: its coordinates, weight and sample. -/
def fillReport (f : Fill) : Report :=
  .obj [("coords", .list (f.coords.map coordReport)),
    ("weight", Report.opt (f.weight.map Report.float)),
    ("sample", Report.opt (f.sample.map fun xs => .list (xs.map Report.float)))]

/-- The answer to a fill-arguments request. The sample is read first, whether or
not there are coordinates to build a fill with; the weight only with them. -/
def argumentsAnswer (req : Json) : Outcome Report := do
  let sample ← req.optional "sample" Json.toFloats
  let built ← match req.field? "coords" with
    | some _ => some <$> req.toFillWith sample
    | none => pure none
  let sorted ← req.optional "args" Json.toArgs
  let classified := sorted.map Fill.classify
  let equal := match built, classified with
    | some f, some (.ok g) => [("equal", Report.bool (f == g))]
    | _, _ => []
  pure (.obj ((match built with
      | some f => [("built", fillReport f)]
      | none => []) ++
    (match classified with
      | some (.ok g) => [("classified", fillReport g)]
      | some (.error e) => [("classified", (Failure.library e).report)]
      | none => []) ++ equal))

end Histograms.Session
