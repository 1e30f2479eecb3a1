import Histograms.Session.Steps
/-!
# Sessions on a counting store

A counting session starts from a list of counts or, when there is none, from `n`
zero cells; it runs its steps and reports the store after each one: its layout,
its length and its non-blank cells. A large count is written as a decimal string,
which may start with `+` and separate its digits with underscores.

A write or read of a cell outside the store fails as `Failure.outOfBounds`; the
store is then what the update left, which keeps any widening the update made
before it reached the cell (`Counts.add` of a fraction moves the store to floats
first). Adding samples is refused whatever the cell.

A step `merge` or `eq` names another store by the same request shape; its own steps
run silently. Those steps may hold further stores, so a step carries fuel, taken
from the length of the request, which bounds how deep they nest.
-/

namespace Histograms.Session

namespace Json

/-- The digits of a decimal numeral: one leading `+` may be dropped (not one
followed by another `+`); then it must start with a digit, and underscores
between its digits are separators. -/
def decimalDigits (s : String) : Option (List Char) :=
  let cs := match s.toList with
    | '+' :: '+' :: r => '+' :: '+' :: r
    | '+' :: r => r
    | r => r
  match cs with
  | c :: _ =>
    if c.isDigit ∧ cs.all fun d => d.isDigit || d = '_' then some (cs.filter Char.isDigit)
    else none
  | [] => none

/-- A natural number written in decimal as a string, for the field `what`: a value
that is not a string, or not such a numeral, is refused naming the field. -/
def toDecimal (what : String) (j : Json) : Outcome Nat :=
  match j with
  | .string s =>
    match decimalDigits s with
    | some ds => pure (digitsValue ds)
    | none => bad what
  | _ => bad (what ++ " must be a string")

/-- A count: `{"int": n}`, `{"big": "digits"}` or `{"real": x}`. Of several tags the
first of `int`, `big`, `real` counts, and other fields are ignored. -/
def toCount (j : Json) : Outcome Count :=
  match j.field? "int", j.field? "big", j.field? "real" with
  | some v, _, _ => Count.int <$> v.toU64
  | none, some v, _ => Count.big <$> v.toDecimal "big"
  | none, none, some v => Count.real <$> v.toFloat
  | none, none, none => bad "bad count"

end Json

/-- The state of a counting store in an answer. -/
def countsState (s : Counts) : Report :=
  .obj [("cells", countsListing s), ("len", .nat s.size), ("repr", .str s.layout.name)]

/-- A store of the counts of a list, each added to a zero cell. -/
def Json.toCounts (j : Json) : Outcome Counts := do
  let cs ← (← j.toArray).mapM Json.toCount
  if cellLimit < cs.length then .error .tooManyCells else pure (Counts.ofCounts cs)

/-- The store a request describes: the cells of `counts` when present, or else `n`
zero cells. -/
def requestCounts (req : Json) : Outcome Counts :=
  match req.field? "counts" with
  | some v => v.toCounts
  | none => do
    let n ← (← req.need "n").toU64
    if cellLimit < n then .error .tooManyCells else pure (Counts.new n)

/-- A write `f` to cell `i` of `s`: outside the store it fails, leaving what `f` left. -/
def writeCell (i : Nat) (f : Counts → Counts) (s : Counts) : Run Counts :=
  let size := s.size
  let t := f s
  if i < size then (t, .ok []) else (t, .error .outOfBounds)

/-- A read of cell `i` of `s`, answered by `k` of the cell: outside the store it fails. -/
def readCell (s : Counts) (i : Nat) (k : Count → Report) : Run Counts :=
  if i < s.size then reply s (k (s.get i)) else (s, .error .outOfBounds)

/-- One run of the counting step `name`; `fuel` bounds how deeply other stores nest. -/
def countsStep : Nat → String → Json → Counts → Run Counts
  | 0, _, _, s => (s, .error (.badInput "nesting too deep"))
  | fuel + 1, name, step, s =>
    let other : Outcome Counts := do
      let j ← step.need "other"
      let t ← requestCounts j
      let steps ← optionalSteps j
      pure (runSilently (wholeStep (countsStep fuel)) t steps)
    match name with
    | "increment" => withArgs s (stepIndex step) fun i => writeCell i (·.addCount i 1) s
    | "add_count" =>
      withArgs s (do pure (← stepIndex step, ← (← step.need "amount").toU64)) fun (i, a) =>
        writeCell i (·.addCount i a) s
    | "add_big" =>
      withArgs s (do pure (← stepIndex step, ← (← step.need "amount").toDecimal "amount"))
        fun (i, a) => writeCell i (·.addBig i a) s
    | "add" =>
      withArgs s (do pure (← stepIndex step, ← (← step.need "x").toFloat)) fun (i, x) =>
        writeCell i (·.add i x) s
    | "add_value" =>
      withArgs s (do pure (← stepIndex step, ← (← step.need "value").toCount)) fun (i, c) =>
        writeCell i (·.addValue i c) s
    | "add_weight" =>
      withArgs s (do pure (← stepIndex step, ← (← step.need "w").toFloat)) fun (i, w) =>
        writeCell i (·.add i w) s
    | "add_sample" =>
      withArgs s (do pure (← stepIndex step, ← (← step.need "x").toFloats)) fun _ =>
        updated (Store.addSample s 0 [])
    | "add_weighted_sample" =>
      withArgs s (do pure (← stepIndex step, ← (← step.need "w").toFloat,
          ← (← step.need "x").toFloats)) fun _ =>
        updated (Store.addWeightedSample s 0 0.0 [])
    | "scale" | "mul_assign" =>
      withArgs s (do (← step.need "factor").toFloat) fun f => (s.scale f, .ok [])
    | "merge" => withArgs s other fun t => update s (s.merge t)
    | "reset" =>
      withArgs s (do (← step.need "n").toU64) fun n =>
        if cellLimit < n then (s, .error .tooManyCells) else (Counts.new n, .ok [])
    | "get" => withArgs s (stepIndex step) fun i => readCell s i CellView.report
    | "to_f64" => withArgs s (stepIndex step) fun i => readCell s i fun c => .float c.toFloat
    | "eq_int" =>
      withArgs s (do pure (← stepIndex step, ← (← step.need "n").toU64)) fun (i, n) =>
        readCell s i fun c => .bool (c == .int n)
    | "eq_real" =>
      withArgs s (do pure (← stepIndex step, ← (← step.need "x").toFloat)) fun (i, x) =>
        readCell s i fun c => .bool (c == .real x)
    | "trait_is_empty" | "is_empty" => reply s (.bool (s.size == 0))
    | "iter_len" => reply s (.nat s.size)
    | "sum" => reply s (CellView.report s.sum)
    | "debug" => reply s (.str (inspect s))
    | "eq" => withArgs s other fun t => reply s (.bool (s == t))
    | _ => (s, .error (.badInput ("unknown step " ++ name)))

/-- The answer to a counting session: the first state and one answer per step, each
with the state after it. -/
def countingAnswer (fuel : Nat) (req : Json) : Outcome Report := do
  let s ← requestCounts req
  let steps ← requiredSteps req
  let init := countsState s
  let (_, answers) :=
    runAnswered (wholeStep (countsStep fuel)) (fun _ t => [("state", countsState t)]) s steps
  pure (.obj [("init", init), ("steps", .list answers)])

end Histograms.Session
