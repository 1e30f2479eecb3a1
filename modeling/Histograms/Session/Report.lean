import Histograms.Decimal.Notation
/-!
# Writing answers

An answer is a `Report`: a JSON tree whose numbers are integers or floats. A
finite float is written in the general notation (`Float.toGeneral`), which a JSON
reader reads back to the same float, `-0.0` included; NaN and the infinities are
written as the strings `"nan"`, `"inf"` and `"-inf"`. Strings escape the quote,
the backslash and the control characters.
-/

namespace Histograms.Session

/-- A JSON answer. -/
inductive Report where
  | null
  | bool (b : Bool)
  | int (i : Int)
  | float (x : Float)
  | str (s : String)
  | list (items : List Report)
  | obj (fields : List (String × Report))

namespace Report

/-- The four hexadecimal digits of a code below `2 ^ 16`. -/
def hex4 (n : Nat) : String :=
  let digit (k : Nat) : Char :=
    let d := n / 16 ^ k % 16
    if d < 10 then Char.ofNat (48 + d) else Char.ofNat (87 + d)
  String.ofList [digit 3, digit 2, digit 1, digit 0]

/-- A character inside a JSON string. -/
def escapeChar (c : Char) : String :=
  if c = '"' then "\\\""
  else if c = '\\' then "\\\\"
  else if c = '\n' then "\\n"
  else if c = '\r' then "\\r"
  else if c = '\t' then "\\t"
  else if c.toNat < 32 then "\\u" ++ hex4 c.toNat
  else c.toString

/-- A JSON string literal. -/
def quote (s : String) : String :=
  "\"" ++ String.join (s.toList.map escapeChar) ++ "\""

/-- The JSON text of a float. -/
def floatText (x : Float) : String :=
  if x.isNaN then "\"nan\""
  else if x.isInf then (if x < 0.0 then "\"-inf\"" else "\"inf\"")
  else x.toGeneral

mutual

/-- Appends the JSON text of a report to `out`. Writing into one growing string keeps
the cost linear in the length of the text. -/
def renderTo (out : String) : Report → String
  | .null => out ++ "null"
  | .bool b => out ++ (if b then "true" else "false")
  | .int i => out ++ toString i
  | .float x => out ++ floatText x
  | .str s => out ++ quote s
  | .list items => renderItemsTo (out ++ "[") items ++ "]"
  | .obj fields => renderFieldsTo (out ++ "\x7b") fields ++ "\x7d"

/-- Appends the items of a list, comma-separated, to `out`. -/
def renderItemsTo (out : String) : List Report → String
  | [] => out
  | [r] => renderTo out r
  | r :: rs => renderItemsTo (renderTo out r ++ ",") rs

/-- Appends the fields of an object, comma-separated, to `out`. -/
def renderFieldsTo (out : String) : List (String × Report) → String
  | [] => out
  | [(k, r)] => renderTo (out ++ quote k ++ ":") r
  | (k, r) :: rest => renderFieldsTo (renderTo (out ++ quote k ++ ":") r ++ ",") rest

end

/-- The JSON text of a report. -/
def render (r : Report) : String := renderTo "" r

/-- A natural number. -/
def nat (n : Nat) : Report := .int n

/-- An optional report, `null` when absent. -/
def opt : Option Report → Report
  | some r => r
  | none => .null

end Report

end Histograms.Session
