import Histograms.Session.Axes
import Histograms.Session.CellStore
import Histograms.Session.Arguments
/-!
# Answering a request

`Session.respond` reads one request line and writes its answer line. The field
`op` picks the kind of session; a failure anywhere becomes the answer's error
object.
-/

namespace Histograms.Session

/-- The answer to a request; `fuel` bounds how deeply the stores it names nest. -/
def answer (fuel : Nat) (req : Json) : Outcome Report := do
  let op ← match req.field? "op" with
    | none => bad "missing field op"
    | some (.string s) => pure s
    | some _ => bad "op must be a string"
  match op with
  | "axis" => axisAnswer req
  | "bincount" => bincountAnswer req
  | "index_coords" => indexCoordsAnswer req
  | "index_bins" => indexBinsAnswer req
  | "adaptive" => countingAnswer fuel req
  | "hist" => histAnswer fuel req
  | "from_parts" => partsAnswer fuel req
  | "storage" => storeAnswer fuel req
  | "acc" => cellAnswer fuel req
  | "fill_args" => argumentsAnswer req
  | other => bad ("unknown op " ++ other)

/-- The answer line to a request line. -/
def respond (line : String) : String :=
  let result :=
    match Json.parse line with
    | .error e => Failure.report (.badInput ("invalid json: " ++ e.message line))
    | .ok req =>
      match answer (line.length + 1) req with
      | .ok r => r
      | .error f => f.report
  result.render

end Histograms.Session
