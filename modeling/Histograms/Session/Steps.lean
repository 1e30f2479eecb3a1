import Histograms.Session.Cells
/-!
# Running steps

A session applies a list of steps to a state. A step names what it does in
`do` and may ask to be run `repeat` times (at most `100000`). How a session
repeats a step is its own: most sessions run the whole step again, arguments
and all (`wholeStep`), so a step run zero times is never read and answers
nothing; a histogram session reads a step once and repeats only its update.
Either way the runs stop at the first failure.

One run of a step gives a `Run`: the state after it and either the fields of its
answer or a failure. A failed update of the library leaves the state as it was.
-/

namespace Histograms.Session

/-- The state after one run of a step, and its answer fields or failure. -/
abbrev Run (σ : Type) := σ × Except Failure Fields

/-- The state after a library update, or the old state with the error. -/
def update {σ : Type} (s : σ) : Except HistError σ → Run σ
  | .ok s' => (s', .ok [])
  | .error e => (s, .error (.library e))

/-- The state after an update that reports its error beside the state. -/
def updated {σ : Type} : Updated σ → Run σ
  | (s, none) => (s, .ok [])
  | (s, some e) => (s, .error (.library e))

/-- An answer with a value; the state stays. -/
def reply {σ : Type} (s : σ) (v : Report) : Run σ := (s, .ok [("value", v)])

/-- Reads the arguments of a step, then runs it; a malformed step changes nothing. -/
def withArgs {σ α : Type} (s : σ) (args : Outcome α) (k : α → Run σ) : Run σ :=
  match args with
  | .ok a => k a
  | .error f => (s, .error f)

/-- Runs a step `k` times, stopping at the first failure. -/
def repeatRun {σ : Type} (once : σ → Run σ) : Nat → σ → Except Failure Fields → Run σ
  | 0, s, last => (s, last)
  | k + 1, s, _ =>
    match once s with
    | (s', .error f) => (s', .error f)
    | (s', .ok fs) => repeatRun once k s' (.ok fs)

/-- The name of a step. -/
def stepName (step : Json) : Outcome String := do
  (← step.need "do").toStr

/-- A step that runs as a whole `k` times: `once name step` is one run. -/
def wholeStep {σ : Type} (once : String → Json → σ → Run σ) (name : String) (step : Json)
    (k : Nat) (s : σ) : Run σ :=
  repeatRun (once name step) k s (.ok [])

/-- Runs one step: reads its name and repeat count, then runs it by `run`, which
takes the name, the step and the count. The name comes back when it could be read. -/
def runStep {σ : Type} (run : String → Json → Nat → σ → Run σ) (s : σ) (step : Json) :
    Option String × Run σ :=
  match stepName step with
  | .error f => (none, (s, .error f))
  | .ok name =>
    match Json.repeatCount step with
    | .error f => (some name, (s, .error f))
    | .ok k => (some name, run name step k s)

/-- Runs steps without answering them. -/
def runSilently {σ : Type} (run : String → Json → Nat → σ → Run σ) (s : σ) (steps : List Json) :
    σ :=
  steps.foldl (fun s step => (runStep run s step).2.1) s

/-- The fields of a result. -/
def resultFields : Except Failure Fields → Fields
  | .ok fs => fs
  | .error f => f.fields

/-- Runs steps and answers each with its result and the fields `after` adds for the
step's name and the state after it. -/
def runAnswered {σ : Type} (run : String → Json → Nat → σ → Run σ)
    (after : Option String → σ → Fields) (s : σ) (steps : List Json) : σ × List Report :=
  let (s, answers) := steps.foldl
    (fun (acc : σ × List Report) step =>
      match acc with
      | (s, answers) =>
        match runStep run s step with
        | (name, s', r) => (s', .obj (resultFields r ++ after name s') :: answers))
    (s, [])
  (s, answers.reverse)

/-- The steps of a request that must list them. -/
def requiredSteps (req : Json) : Outcome (List Json) := do
  (← req.need "steps").toArray

/-- The steps of a request that may list them: none when absent. -/
def optionalSteps (req : Json) : Outcome (List Json) :=
  match req.field? "steps" with
  | some v => v.toArray
  | none => .ok []

/-- The cell index of a step. -/
def stepIndex (step : Json) : Outcome Nat := do
  (← step.need "index").toU64

/-- A cell index below the length of a store, or the failure of reading outside it. -/
def inBounds (i size : Nat) : Except Failure Unit :=
  if i < size then .ok () else .error .outOfBounds

end Histograms.Session
