import Histograms.Index
import Histograms.Session.Json
import Histograms.Session.Report
/-!
# Reading the parts of a request

A request can fail in four ways (`Failure`): it is malformed, the library
refuses it, it asks for more cells than a session allows, or it reads or writes
a cell outside a store. The readers here turn JSON values into the library's
values and report a malformed part with a short reason.

Numbers are read by the width the request field has: an unsigned 64-bit field
takes integers in `[0, 2 ^ 64)`, a signed one integers in `[-2 ^ 63, 2 ^ 63)`, and a
32-bit field is first read at 64 bits. A float field takes any number, or one of
the strings `"nan"`, `"inf"` and `"-inf"`.

An optional field that is present is read like a required one, so `null` there is
a value of the wrong type; only the `options` of an axis spec and the `init` of a
cell take `null` for absent. A field that picks a variant by name falls back to
its default when it is absent or not a string. A tagged coordinate is an object of
exactly one field, whose key is the tag.
-/

namespace Histograms.Session

/-- Why a request gets no ordinary answer. -/
inductive Failure where
  /-- A malformed request. -/
  | badInput (reason : String)
  /-- An error of the library. -/
  | library (e : HistError)
  /-- More cells than a session allocates. -/
  | tooManyCells
  /-- A cell index outside a store. -/
  | outOfBounds

/-- The most cells a session allocates. -/
def cellLimit : Nat := 65536

/-- Fields of an answer object. -/
abbrev Fields := List (String × Report)

/-- The fields of the error object of a failure. -/
def Failure.fields : Failure → Fields
  | .badInput reason => [("error", .str "bad_input"), ("message", .str reason)]
  | .library e => [("error", .str e.kind), ("message", .str e.message)]
  | .tooManyCells => [("error", .str "driver_limit"), ("message", .str "too many cells")]
  | .outOfBounds => [("error", .str "panic")]

/-- The error object of a failure. -/
def Failure.report (f : Failure) : Report := .obj f.fields

/-- A step of reading or answering a request. -/
abbrev Outcome := Except Failure

/-- Lifts a library result. -/
def library {α : Type} : Except HistError α → Outcome α
  | .ok a => .ok a
  | .error e => .error (.library e)

/-- Refuses a malformed request. -/
def bad {α : Type} (reason : String) : Outcome α := .error (.badInput reason)

namespace Json

/-- A field that must be present. -/
def need (j : Json) (key : String) : Outcome Json :=
  match j.field? key with
  | some v => .ok v
  | none => bad ("missing field " ++ key)

/-- The name a string field picks, if it is a string. -/
def name? (j : Json) (key : String) : Option String :=
  match j.field? key with
  | some (.string s) => some s
  | _ => none

/-- A string. -/
def toStr : Json → Outcome String
  | .string s => .ok s
  | _ => bad "expected a string"

/-- An array. -/
def toArray : Json → Outcome (List Json)
  | .array items => .ok items
  | _ => bad "expected an array"

/-- A float: a number, or `"nan"`, `"inf"`, `"-inf"`. -/
def toFloat : Json → Outcome Float
  | .number n => .ok n.toFloat
  | .string "nan" => .ok (0.0 / 0.0)
  | .string "inf" => .ok (1.0 / 0.0)
  | .string "-inf" => .ok (-1.0 / 0.0)
  | .string s => bad ("bad float " ++ s)
  | _ => bad "expected a float"

/-- An unsigned 64-bit integer. -/
def toU64 : Json → Outcome Nat
  | .number n =>
    match n.toInt? with
    | some i => if 0 ≤ i ∧ i < 2 ^ 64 then .ok i.toNat else bad "expected a u64"
    | none => bad "expected a u64"
  | _ => bad "expected a u64"

/-- A signed 64-bit integer. -/
def toI64 : Json → Outcome Int
  | .number n =>
    match n.toInt? with
    | some i => if -2 ^ 63 ≤ i ∧ i < 2 ^ 63 then .ok i else bad "expected an i64"
    | none => bad "expected an i64"
  | _ => bad "expected an i64"

/-- A signed 32-bit integer. -/
def toI32 (j : Json) : Outcome Int := do
  let i ← j.toI64
  if -2 ^ 31 ≤ i ∧ i < 2 ^ 31 then pure i else bad "expected an i32"

/-- An unsigned 32-bit integer. -/
def toU32 (j : Json) : Outcome Nat := do
  let n ← j.toU64
  if n < 2 ^ 32 then pure n else bad "expected a u32"

/-- A list of floats. -/
def toFloats (j : Json) : Outcome (List Float) := do
  (← j.toArray).mapM toFloat

/-- The one field of an object that has exactly one. -/
def single? : Json → Option (String × Json)
  | .object [field] => some field
  | _ => none

/-- A coordinate: an integer written as such (signed 64-bit), a real, a label, or a
tagged form `{"real": x}`, `{"i32": n}`, `{"u32": n}`, `{"f32": x}` with no other
field; a 32-bit real is rounded to binary32 first. An integer from `2 ^ 63` to
`2 ^ 64` is refused; one further out is read as a real. -/
def toCoord (j : Json) : Outcome Coord :=
  match j with
  | .number n =>
    match n.toInt? with
    | some i => if i < 2 ^ 63 then .ok (.int i) else bad "integer coordinate out of i64 range"
    | none => .ok (.real n.toFloat)
  | .string s => .ok (.label s)
  | _ =>
    match j.single? with
    | some ("real", v) => Coord.real <$> v.toFloat
    | some ("i32", v) => Coord.int <$> v.toI32
    | some ("u32", v) => (fun n : Nat => Coord.int n) <$> v.toU32
    | some ("f32", v) => (fun x => Coord.real x.roundSingle) <$> v.toFloat
    | _ => bad "bad coordinate"

/-- A list of coordinates. -/
def toCoords (j : Json) : Outcome (List Coord) := do
  (← j.toArray).mapM toCoord

/-- The options of an axis spec, if given and not `null`: a bit set `0..7`. -/
def axisOptions (spec : Json) : Outcome (Option AxisOptions) :=
  match spec.given? "options" with
  | none => .ok none
  | some v => do
    let bits ← v.toU64
    if bits ≤ 7 then pure (some (AxisOptions.ofBits bits)) else bad "options must be 0..7"

/-- Builds the axis an axis spec describes. -/
def toAxis (spec : Json) : Outcome Axis := do
  let kind ← (← spec.need "kind").toStr
  let options ← axisOptions spec
  match kind with
  | "regular" =>
    let bins ← (← spec.need "bins").toU64
    let lo ← (← spec.need "min").toFloat
    let hi ← (← spec.need "max").toFloat
    Axis.regular <$> library (Axis.Regular.make bins lo hi (options.getD AxisOptions.flows))
  | "circular" =>
    let bins ← (← spec.need "bins").toU64
    let phase ← (← spec.need "phase").toFloat
    let perimeter ← (← spec.need "perimeter").toFloat
    Axis.regular <$> library (Axis.Regular.circular bins phase perimeter)
  | "integer" =>
    let lo ← (← spec.need "min").toI64
    let hi ← (← spec.need "max").toI64
    Axis.integer <$> library (Axis.Integer.make lo hi (options.getD AxisOptions.flows))
  | "category" =>
    let labels ← (← (← spec.need "labels").toArray).mapM toStr
    Axis.category <$> library (Axis.Category.make labels (options.getD AxisOptions.empty))
  | other => bad ("unknown axis kind " ++ other)

/-- Builds a list of axes, stopping at the first spec that fails. -/
def toAxes (j : Json) : Outcome Axes := do
  (← j.toArray).mapM toAxis

/-- The repeat count of a step: `1` when absent, at most `100000`. -/
def repeatCount (step : Json) : Outcome Nat :=
  match step.field? "repeat" with
  | none => .ok 1
  | some v => do
    let k ← v.toU64
    if k ≤ 100000 then pure k else bad "repeat too large"

end Json

end Histograms.Session
