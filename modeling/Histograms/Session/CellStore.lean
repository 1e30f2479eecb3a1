import Histograms.Session.Accumulator
/-!
# Sessions on a store of cells

A store session drives a store of accumulator cells directly, with no histogram.
A growable store is made with `n` empty cells; a store of fixed capacity is made
empty and then reset to `n` cells, which fails past its capacity, and that failure
is the whole answer.

Every step that names a cell reads or writes it by its index among the cells in
use; an index past them fails as `Failure.outOfBounds` and changes nothing, even
where a store of fixed capacity has room for it. `set` replaces a cell by one built
from the numbers of its constructor.
-/

namespace Histograms.Session

/-- How a store session makes a store and writes a cell of it. -/
class CellStore (σ : Type) (ν : outParam Type) where
  /-- A store of `n` empty cells. -/
  make : Nat → Except HistError σ
  /-- The most cells a store of this kind holds, if it has a limit. -/
  capacity : σ → Option Nat
  /-- Replaces cell `i`. -/
  put : σ → Nat → ν → σ

instance {α : Type} [Cell α] : CellStore (CellVec α) α where
  make n := .ok (CellVec.new n)
  capacity _ := none
  put := CellVec.set

instance {α : Type} [Cell α] {capacity : Nat} : CellStore (CellArray α capacity) α where
  make n := CellArray.reset CellArray.new n
  capacity _ := some capacity
  put := CellArray.set

section

variable {σ ν : Type} [Store σ ν] [CellStore σ ν] [SessionStore σ] [CellView ν] [Seed ν]

/-- The store a request describes, refused past `cellLimit` cells. -/
def requestStore (req : Json) : Outcome σ := do
  let n ← (← req.need "n").toU64
  if cellLimit < n then .error .tooManyCells else library (CellStore.make n)

/-- The state of a store in an answer. -/
def storeState (s : σ) : Report :=
  .obj ((("len", .nat (Store.size s)) : String × Report) :: SessionStore.state s)

/-- An update `f` of cell `i`; past the cells in use it fails and changes nothing. -/
def updateCell (i : Nat) (f : σ → Updated σ) (s : σ) : Run σ :=
  if i < Store.size s then updated (f s) else (s, .error .outOfBounds)

/-- A read of cell `i`; past the cells in use it fails. -/
def readStoreCell (s : σ) (i : Nat) : Run σ :=
  if i < Store.size s then reply s (CellView.report (Store.get s i)) else (s, .error .outOfBounds)

/-- One run of the store step `name`; `fuel` bounds how deeply other stores nest. -/
def storeStep : Nat → String → Json → σ → Run σ
  | 0, _, _, s => (s, .error (.badInput "nesting too deep"))
  | fuel + 1, name, step, s =>
    let other : Outcome σ := do
      let j ← step.need "other"
      let t ← requestStore j
      let steps ← optionalSteps j
      pure (runSilently (wholeStep (storeStep fuel)) t steps)
    match name with
    | "increment" => withArgs s (stepIndex step) fun i => updateCell i (Store.increment · i) s
    | "add_weight" =>
      withArgs s (do pure (← stepIndex step, ← (← step.need "w").toFloat)) fun (i, w) =>
        updateCell i (Store.addWeight · i w) s
    | "add_sample" =>
      withArgs s (do pure (← stepIndex step, ← (← step.need "x").toFloats)) fun (i, xs) =>
        updateCell i (Store.addSample · i xs) s
    | "add_weighted_sample" =>
      withArgs s (do pure (← stepIndex step, ← (← step.need "w").toFloat,
          ← (← step.need "x").toFloats)) fun (i, w, xs) =>
        updateCell i (Store.addWeightedSample · i w xs) s
    | "scale" =>
      withArgs s (do (← step.need "factor").toFloat) fun f => (Store.scale s f, .ok [])
    | "merge" => withArgs s other fun t => update s (Store.merge s t)
    | "reset" =>
      withArgs s (do (← step.need "n").toU64) fun n =>
        if cellLimit < n then (s, .error .tooManyCells) else update s (Store.reset s n)
    | "set" =>
      withArgs s (do pure (← stepIndex step, ← (← step.need "init").toSeed)) fun (i, c) =>
        updateCell i (fun t => (CellStore.put t i c, none)) s
    | "get" | "index" => withArgs s (stepIndex step) fun i => readStoreCell s i
    | "len" => reply s (.nat (Store.size s))
    | "is_empty" => reply s (.bool (Store.size s == 0))
    | "capacity" => reply s (Report.opt ((CellStore.capacity s).map Report.nat))
    | "eq" => withArgs s other fun t => reply s (.bool (Store.beq s t))
    | _ => (s, .error (.badInput ("unknown step " ++ name)))

/-- A store session on the store the request describes. -/
def storeSession (fuel : Nat) (s : σ) (req : Json) : Outcome Report := do
  let steps ← requiredSteps req
  let init := storeState s
  let (_, answers) :=
    runAnswered (wholeStep (storeStep fuel)) (fun _ t => [("state", storeState t)]) s steps
  pure (.obj [("init", init), ("steps", .list answers)])

end

/-- The answer to a store session; the store is named by `storage`. -/
def storeAnswer (fuel : Nat) (req : Json) : Outcome Report := do
  match ← (← req.need "storage").toStr with
  | "f64" => storeSession fuel (← (requestStore req : Outcome (CellVec Float))) req
  | "sum" => storeSession fuel (← (requestStore req : Outcome (CellVec CompensatedSum))) req
  | "weighted_sum" => storeSession fuel (← (requestStore req : Outcome (CellVec WeightedSum))) req
  | "mean" => storeSession fuel (← (requestStore req : Outcome (CellVec (Mean Float)))) req
  | "weighted_mean" =>
    storeSession fuel (← (requestStore req : Outcome (CellVec (WeightedMean Float)))) req
  | "array8" => storeSession fuel (← (requestStore req : Outcome (CellArray Float 8))) req
  | "array16" => storeSession fuel (← (requestStore req : Outcome (CellArray Float 16))) req
  | "array64" => storeSession fuel (← (requestStore req : Outcome (CellArray Float 64))) req
  | "array16_sum" =>
    storeSession fuel (← (requestStore req : Outcome (CellArray CompensatedSum 16))) req
  | "array16_mean" =>
    storeSession fuel (← (requestStore req : Outcome (CellArray (Mean Float) 16))) req
  | other => bad ("unknown storage " ++ other)

end Histograms.Session
