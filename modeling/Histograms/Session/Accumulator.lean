import Histograms.Session.Steps
/-!
# Sessions on one cell

An accumulator session starts one cell of a kind (`f64`, `sum`, `weighted_sum`,
`mean`, `weighted_mean`), empty or from the numbers of its constructor, runs its
steps on it and answers each with the cell after it.

Besides the fills every cell has, `add` adds a value to a sum or a mean and a
weighted value to a weighted mean; the other kinds have no `add`. The other cell
of `merge` and `eq` is of the same kind, with its own steps run silently.
-/

namespace Histograms.Session

section

variable {α : Type} [Cell α] [CellView α] [Seed α]

/-- The cell a request describes: from its `init` numbers if given, or empty. -/
def requestCell (req : Json) : Outcome α :=
  match req.given? "init" with
  | some v => v.toSeed
  | none => pure Cell.empty

/-- One run of the accumulator step `name`, where `add` reads and applies an `add`
step; `fuel` bounds how deeply other cells nest. -/
def cellStep (add : Json → α → Outcome α) : Nat → String → Json → α → Run α
  | 0, _, _, c => (c, .error (.badInput "nesting too deep"))
  | fuel + 1, name, step, c =>
    let other : Outcome α := do
      let j ← step.need "other"
      let o ← requestCell j
      let steps ← optionalSteps j
      pure (runSilently (wholeStep (cellStep add fuel)) o steps)
    match name with
    | "increment" => update c (Cell.increment c)
    | "add_weight" => withArgs c (do (← step.need "w").toFloat) fun w => update c (Cell.addWeight c w)
    | "add_sample" =>
      withArgs c (do (← step.need "x").toFloats) fun xs => update c (Cell.addSample c xs)
    | "add_weighted_sample" =>
      withArgs c (do pure (← (← step.need "w").toFloat, ← (← step.need "x").toFloats))
        fun (w, xs) => update c (Cell.addWeightedSample c w xs)
    | "add" => withArgs c (add step c) fun c' => (c', .ok [])
    | "scale" => withArgs c (do (← step.need "factor").toFloat) fun f => (Cell.scale c f, .ok [])
    | "merge" => withArgs c other fun o => (Cell.merge c o, .ok [])
    | "eq" => withArgs c other fun o => (c, .ok [("eq", .bool (Cell.beq c o))])
    | _ => (c, .error (.badInput ("unknown step " ++ name)))

/-- An accumulator session with the `add` step `add`. -/
def cellSession (add : Json → α → Outcome α) (fuel : Nat) (req : Json) : Outcome Report := do
  let c : α ← requestCell req
  let steps ← requiredSteps req
  let init := CellView.report c
  let (_, answers) :=
    runAnswered (wholeStep (cellStep add fuel)) (fun _ d => [("state", CellView.report d)]) c
      steps
  pure (.obj [("init", init), ("steps", .list answers)])

end

/-- An `add` step that a kind of cell does not have. -/
def noAdd {α : Type} (kind : String) (_ : Json) (_ : α) : Outcome α :=
  bad (kind ++ " has no add")

/-- The answer to an accumulator session; the kind of cell is named by `kind`. -/
def cellAnswer (fuel : Nat) (req : Json) : Outcome Report := do
  match ← (← req.need "kind").toStr with
  | "f64" => cellSession (noAdd "f64" : Json → Float → Outcome Float) fuel req
  | "sum" =>
    cellSession (fun step (s : CompensatedSum) => do pure (s.add (← (← step.need "x").toFloat)))
      fuel req
  | "weighted_sum" =>
    cellSession (noAdd "weighted sum" : Json → WeightedSum → Outcome WeightedSum) fuel req
  | "mean" =>
    cellSession (fun step (m : Mean Float) => do pure (m.add (← (← step.need "x").toFloat)))
      fuel req
  | "weighted_mean" =>
    cellSession (fun step (m : WeightedMean Float) => do
        pure (m.add (← (← step.need "w").toFloat) (← (← step.need "x").toFloat)))
      fuel req
  | other => bad ("unknown accumulator " ++ other)

end Histograms.Session
