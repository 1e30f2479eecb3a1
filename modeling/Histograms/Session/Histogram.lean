import Histograms.Session.Counting
/-!
# Sessions on a histogram

A histogram session builds a histogram over the axes of the request with one of
eleven stores, runs its steps and answers each one. The store is named first (by
default the counting store), so an unknown name is refused before the axes are
read. A step that changes the histogram (`fill`, `fill_with`, `classify`,
`roundtrip`, `reset`, `scale`, `merge`) answers with the state of the store after
it, whether it succeeded or not; a query answers with its value only.

A step is read once, whatever its `repeat`: its arguments, the sorting of its
fill arguments and the other histogram of a `merge` are read and can fail even
when the step runs zero times. The repeat count then says how often a fill, a
scaling or a merge is applied; every other step runs once.

A session refuses a histogram of more than `cellLimit` cells before building it;
a set of axes whose number of cells overflows is left to the library, which
refuses it as an invalid axis.

The other histogram of `merge` and `eq` has the same kind of store, the axes of
the step (by default those of the session's histogram) and its own steps, run
silently. A `from_parts` session starts from axes and a list of counts and
reports the final state as well.
-/

namespace Histograms.Session

namespace Json

/-- An optional field read by `read`, if present. -/
def optional {α : Type} (j : Json) (key : String) (read : Json → Outcome α) : Outcome (Option α) :=
  match j.field? key with
  | some v => some <$> read v
  | none => pure none

/-- The fill of `coords`, with the `weight` of `step` if present and the sample
`sample`. -/
def toFillWith (step : Json) (sample : Option (List Float)) : Outcome Fill := do
  let coords ← (← step.need "coords").toCoords
  let weight ← step.optional "weight" toFloat
  pure ⟨coords, weight, sample⟩

/-- The fill a step describes: its `coords`, and its `weight` and `sample` if
present. The sample is read first, then the coordinates and the weight. -/
def toFill (step : Json) : Outcome Fill := do
  let sample ← step.optional "sample" toFloats
  step.toFillWith sample

/-- An argument of a fill: `{"weight": w}`, `{"sample": xs}` or a coordinate. -/
def toArg (j : Json) : Outcome Arg :=
  match j.single? with
  | some ("weight", v) => Arg.weight <$> v.toFloat
  | some ("sample", v) => Arg.sample <$> v.toFloats
  | _ => Arg.coord <$> j.toCoord

/-- A list of fill arguments. -/
def toArgs (j : Json) : Outcome (List Arg) := do
  (← j.toArray).mapM toArg

end Json

/-- The steps that change a histogram. -/
def changingSteps : List String :=
  ["fill", "fill_with", "classify", "roundtrip", "reset", "scale", "merge"]

/-- The name, size and extent of an axis. -/
def axisReport (a : Axis) : Report :=
  .obj [("name", .str a.name), ("size", .nat a.size), ("extent", .nat a.extent)]

section

variable {σ ν : Type} [Store σ ν] [SessionStore σ] [CellView ν] [Inspect σ]

/-- A histogram over `axes` with the store `fresh` reset to its cells, refused when
it would have more than `cellLimit` cells. -/
def newHistogram (fresh : σ) (axes : Axes) : Outcome (Histogram σ) :=
  match axes.bincount with
  | .ok n => if cellLimit < n then .error .tooManyCells else library (Histogram.withStore axes fresh)
  | .error _ => library (Histogram.withStore axes fresh)

/-- The state a step adds to its answer: the store's, after a step that changes it. -/
def histState (name : Option String) (h : Histogram σ) : Fields :=
  match name with
  | some n => if changingSteps.contains n then SessionStore.state h.store else []
  | none => []

/-- A library answer as a value. -/
def replyWith {α : Type} (h : Histogram σ) (r : Except HistError α) (k : α → Report) :
    Run (Histogram σ) :=
  match r with
  | .ok a => reply h (k a)
  | .error e => (h, .error (.library e))

/-- The step `name` of a histogram session with repeat count `k`; new histograms
start from `fresh`, and `fuel` bounds how deeply other histograms nest. -/
def histStep (fresh : σ) : Nat → String → Json → Nat → Histogram σ → Run (Histogram σ)
  | 0, _, _, _, h => (h, .error (.badInput "nesting too deep"))
  | fuel + 1, name, step, k, h =>
    let other : Outcome (Histogram σ) := do
      let j ← step.need "other"
      let axes ← (j.optional "axes" Json.toAxes)
      let o ← newHistogram fresh (axes.getD h.axes)
      let steps ← optionalSteps j
      pure (runSilently (histStep fresh fuel) o steps)
    let times (f : Histogram σ → Run (Histogram σ)) : Run (Histogram σ) :=
      repeatRun f k h (.ok [])
    match name with
    | "fill" =>
      withArgs h (do (← step.need "coords").toCoords) fun cs => times fun h => updated (h.fill cs)
    | "fill_with" => withArgs h step.toFill fun f => times fun h => updated (h.fillWith f)
    | "classify" =>
      withArgs h (do (← step.need "args").toArgs) fun args =>
        match Fill.classify args with
        | .ok f => times fun h => updated (h.fillWith f)
        | .error e => (h, .error (.library e))
    | "roundtrip" => update h (Histogram.ofParts h.axes h.store)
    | "reset" => update h h.reset
    | "scale" =>
      withArgs h (do (← step.need "factor").toFloat) fun f => times fun h => (h.scale f, .ok [])
    | "merge" => withArgs h other fun o => times fun h => update h (h.merge o)
    | "eq" => withArgs h other fun o => reply h (.bool (h.beq o))
    | "at" =>
      withArgs h (do (← (← step.need "bins").toArray).mapM Json.toI32) fun bins =>
        replyWith h (h.cellAt bins) CellView.report
    | "get" =>
      withArgs h (do (← step.need "index").toU64) fun i =>
        reply h (Report.opt ((h.get? i).map CellView.report))
    | "axis" =>
      withArgs h (do (← step.need "index").toU64) fun i =>
        reply h (Report.opt (h.axes[i]?.map axisReport))
    | "info" => reply h (.obj [("rank", .nat h.rank), ("size", .nat h.size)])
    | "debug_hist" => reply h (.str (inspect h))
    | "is_empty" => reply h (.bool (h.size == 0))
    | _ =>
      match SessionStore.query h.store name with
      | some r => reply h r
      | none => (h, .error (.badInput ("unknown step " ++ name)))

/-- Runs steps on a histogram; gives the histogram after them and the answer fields
`rank`, `size` and `steps`. -/
def runHistogram (fresh : σ) (fuel : Nat) (steps : List Json) (h : Histogram σ) :
    Histogram σ × Fields :=
  let head : Fields := [("rank", .nat h.rank), ("size", .nat h.size)]
  let (h', answers) := runAnswered (histStep fresh fuel) histState h steps
  (h', head ++ [("steps", .list answers)])

/-- A histogram session with the store `fresh` over `axes`; the request must list
its steps. -/
def histSession (fresh : σ) (fuel : Nat) (req : Json) (axes : Axes) : Outcome Report := do
  let h ← newHistogram fresh axes
  let steps ← requiredSteps req
  pure (.obj (runHistogram fresh fuel steps h).2)

end

/-- The answer to a histogram session; the store is named by `storage`. -/
def histAnswer (fuel : Nat) (req : Json) : Outcome Report := do
  let session : Axes → Outcome Report ← match (req.name? "storage").getD "adaptive" with
    | "adaptive" => pure (histSession (Counts.new 0) fuel req)
    | "f64" => pure (histSession (CellVec.new 0 : CellVec Float) fuel req)
    | "sum" => pure (histSession (CellVec.new 0 : CellVec CompensatedSum) fuel req)
    | "weighted_sum" => pure (histSession (CellVec.new 0 : CellVec WeightedSum) fuel req)
    | "mean" => pure (histSession (CellVec.new 0 : CellVec (Mean Float)) fuel req)
    | "weighted_mean" =>
      pure (histSession (CellVec.new 0 : CellVec (WeightedMean Float)) fuel req)
    | "array8" => pure (histSession (CellArray.new : CellArray Float 8) fuel req)
    | "array16" => pure (histSession (CellArray.new : CellArray Float 16) fuel req)
    | "array64" => pure (histSession (CellArray.new : CellArray Float 64) fuel req)
    | "array16_sum" =>
      pure (histSession (CellArray.new : CellArray CompensatedSum 16) fuel req)
    | "array16_mean" =>
      pure (histSession (CellArray.new : CellArray (Mean Float) 16) fuel req)
    | other => bad ("unknown storage " ++ other)
  session (← (← req.need "axes").toAxes)

/-- The answer to a session on a histogram made of given axes and counts: the answer
of its steps, with the final state of the store. -/
def partsAnswer (fuel : Nat) (req : Json) : Outcome Report := do
  let axes ← (← req.need "axes").toAxes
  let s ← (← req.need "counts").toCounts
  let h ← library (Histogram.ofParts axes s)
  let steps ← optionalSteps req
  let (h', fields) := runHistogram (Counts.new 0) fuel steps h
  pure (.obj (fields ++ SessionStore.state h'.store))

end Histograms.Session
