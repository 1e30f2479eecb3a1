import Histograms.Binary64
/-!
# Reading requests

Requests are JSON texts. A number is kept as it was written: its sign, its
decimal digits, its decimal exponent, and whether it was written as an integer
(no fraction, no exponent). Only integers written as such in `[-2 ^ 63, 2 ^ 64)`
are read as integers (`Numeral.toInt?`); every other number is read as the
nearest float, so a `-0` keeps its sign and an integer past that range is a real.

The reader is a recursive descent over the characters. Every call takes one
unit of fuel, and the fuel starts at twice the length of the text, which is
more than any nesting needs (each call either reads a character or is
followed by a call that does). At most `nestingLimit` arrays and objects nest.

A text that is not JSON gives a `SyntaxError`: a `Fault` and the place where it
was found, as a line and a column that counts the bytes of the line before it.
The place of each fault is fixed by the reader: a fault found in a character
that was read lies just past that character, and a fault found by looking at the
next character without reading it lies one byte further than what was read.
A number too large for a float is such a fault, since it has no value; a lone
surrogate escape is one too, since it names no character. Of an object's
repeated keys the last value counts, at the place of the first.
-/

namespace Histograms.Session

/-- A number as written: `±mantissa * 10 ^ exponent`. -/
structure Numeral where
  negative : Bool
  mantissa : Nat
  exponent : Int
  /-- Written without a fraction and without an exponent. -/
  integral : Bool
  deriving DecidableEq, Repr

namespace Numeral

/-- The float nearest to the numeral (ties to even); the sign of a zero is kept. A
numeral of `d` digits times `10 ^ e` lies below `10 ^ (d + e)` and from
`10 ^ (d + e - 1)` on, so past `d + e = 310` it is infinite and below `d + e = -330`
it rounds to zero; those are decided without computing the power. -/
def toFloat (n : Numeral) : Float :=
  let scale := n.exponent + (Nat.toDigits 10 n.mantissa).length
  let magnitude :=
    if n.mantissa = 0 ∨ scale < -330 then 0.0
    else if 310 < scale then 1.0 / 0.0
    else if n.exponent < 0 then Float.ofScientific n.mantissa true (-n.exponent).toNat
    else Float.ofScientific n.mantissa false n.exponent.toNat
  if n.negative then -magnitude else magnitude

/-- The integer of a numeral read as an integer: one written as an integer, that is
not a negative zero, and that lies in `[-2 ^ 63, 2 ^ 64)`. -/
def toInt? (n : Numeral) : Option Int :=
  if n.integral ∧ (if n.negative then 0 < n.mantissa ∧ n.mantissa ≤ 2 ^ 63
      else n.mantissa < 2 ^ 64) then
    some (if n.negative then -(n.mantissa : Int) else n.mantissa)
  else none

end Numeral

/-- A JSON value. Object fields keep the order of their first keys. -/
inductive Json where
  | null
  | bool (b : Bool)
  | number (n : Numeral)
  | string (s : String)
  | array (items : List Json)
  | object (fields : List (String × Json))
  deriving Repr

/-- What makes a text not JSON. -/
inductive Fault where
  | eofWhileList
  | eofWhileObject
  | eofWhileString
  | eofWhileValue
  | expectedColon
  | expectedListCommaOrEnd
  | expectedObjectCommaOrEnd
  | expectedIdent
  | expectedValue
  | invalidEscape
  | invalidNumber
  | numberOutOfRange
  | controlCharacter
  | keyMustBeString
  | loneLeadingSurrogate
  | trailingComma
  | trailingCharacters
  | unexpectedEndOfHexEscape
  | recursionLimit
  deriving DecidableEq, Repr

/-- The wording of a fault. -/
def Fault.describe : Fault → String
  | .eofWhileList => "EOF while parsing a list"
  | .eofWhileObject => "EOF while parsing an object"
  | .eofWhileString => "EOF while parsing a string"
  | .eofWhileValue => "EOF while parsing a value"
  | .expectedColon => "expected \x60:\x60"
  | .expectedListCommaOrEnd => "expected \x60,\x60 or \x60]\x60"
  | .expectedObjectCommaOrEnd => "expected \x60,\x60 or \x60\x7d\x60"
  | .expectedIdent => "expected ident"
  | .expectedValue => "expected value"
  | .invalidEscape => "invalid escape"
  | .invalidNumber => "invalid number"
  | .numberOutOfRange => "number out of range"
  | .controlCharacter => "control character (\\u0000-\\u001F) found while parsing a string"
  | .keyMustBeString => "key must be a string"
  | .loneLeadingSurrogate => "lone leading surrogate in hex escape"
  | .trailingComma => "trailing comma"
  | .trailingCharacters => "trailing characters"
  | .unexpectedEndOfHexEscape => "unexpected end of hex escape"
  | .recursionLimit => "recursion limit exceeded"

/-- A fault and its place: the start of the text `rest` not yet read, moved `past`
bytes further (within the text). -/
structure SyntaxError where
  fault : Fault
  rest : List Char
  past : Nat
  deriving Repr

/-- A reader's result: the value read and the text after it, or a syntax error. -/
abbrev Reading (α : Type) := Except SyntaxError (α × List Char)

namespace SyntaxError

/-- The line and column of the place of an error in `text`: lines count from 1, and
the column is the number of bytes of the line before the place. -/
def location (text : String) (e : SyntaxError) : Nat × Nat :=
  let bytes := text.toUTF8.toList
  let index := min bytes.length (bytes.length - (String.ofList e.rest).utf8ByteSize + e.past)
  let before := bytes.take index
  (1 + before.count 10, (before.reverse.takeWhile (· != 10)).length)

/-- The description of an error in `text`, with its line and column. -/
def message (text : String) (e : SyntaxError) : String :=
  let (line, column) := e.location text
  e.fault.describe ++ " at line " ++ toString line ++ " column " ++ toString column

end SyntaxError

namespace Json

/-- The value of a field of an object. -/
def field? (j : Json) (key : String) : Option Json :=
  match j with
  | .object fields => (fields.find? (·.1 == key)).map (·.2)
  | _ => none

/-- The value of a field that is present and not `null`, for the fields that take
`null` for absent. -/
def given? (j : Json) (key : String) : Option Json :=
  match j.field? key with
  | some .null => none
  | other => other

/-- Adds a field to the fields of an object; a repeated key takes the new value in
the place of the old one. -/
def addField (key : String) (v : Json) : List (String × Json) → List (String × Json)
  | [] => [(key, v)]
  | (k, w) :: fields => if k == key then (k, v) :: fields else (k, w) :: addField key v fields

/-- Drops leading blanks. -/
def skipBlank : List Char → List Char
  | c :: cs => if c = ' ' ∨ c = '\n' ∨ c = '\r' ∨ c = '\t' then skipBlank cs else c :: cs
  | [] => []

/-- The value of decimal digits. -/
def digitsValue (ds : List Char) : Nat :=
  ds.foldl (fun n c => 10 * n + (c.toNat - '0'.toNat)) 0

/-- Splits off leading decimal digits. -/
def splitDigits (cs : List Char) : List Char × List Char :=
  (cs.takeWhile Char.isDigit, cs.dropWhile Char.isDigit)

/-- The largest exponent a number may write. -/
def exponentLimit : Nat := 2 ^ 31 - 1

/-- The number of leading digits of `ds` whose value stays within `exponentLimit`. -/
def exponentDigits (ds : List Char) : Nat :=
  ((List.range ds.length).find? fun k => exponentLimit < digitsValue (ds.take (k + 1))).getD
    ds.length

/-- Reads the exponent digits of a number whose digits are `mantissa` and whose
fraction has `fractionLength` digits; `cs` starts at the first exponent digit. An
exponent past `exponentLimit` makes a number of nonzero digits too large when it is
positive, and zero otherwise. -/
def readExponentDigits (negative : Bool) (mantissa fractionLength : Nat) (positive : Bool)
    (cs : List Char) : Reading Numeral :=
  let (ds, rest) := splitDigits cs
  let value := digitsValue ds
  if exponentLimit < value then
    if mantissa ≠ 0 ∧ positive then
      .error ⟨.numberOutOfRange, cs.drop (exponentDigits ds + 1), 0⟩
    else .ok (⟨negative, 0, 0, false⟩, rest)
  else
    let e : Int := if positive then value else -(value : Int)
    let n : Numeral := ⟨negative, mantissa, e - fractionLength, false⟩
    if n.toFloat.isInf then .error ⟨.numberOutOfRange, rest, 0⟩ else .ok (n, rest)

/-- Reads the part of a number after its digits and fraction: an exponent, if one
is written. -/
def readExponent (negative : Bool) (mantissa fractionLength : Nat) (integral : Bool)
    (cs : List Char) : Reading Numeral :=
  match cs with
  | e :: r =>
    if e = 'e' ∨ e = 'E' then
      let (positive, r) : Bool × List Char :=
        match r with
        | '+' :: t => (true, t)
        | '-' :: t => (false, t)
        | t => (true, t)
      match r with
      | [] => .error ⟨.eofWhileValue, [], 0⟩
      | d :: t =>
        if d.isDigit then readExponentDigits negative mantissa fractionLength positive (d :: t)
        else .error ⟨.invalidNumber, d :: t, 1⟩
    else
      let n : Numeral := ⟨negative, mantissa, -(fractionLength : Int), integral⟩
      if n.toFloat.isInf then .error ⟨.numberOutOfRange, e :: r, 0⟩ else .ok (n, e :: r)
  | [] =>
    let n : Numeral := ⟨negative, mantissa, -(fractionLength : Int), integral⟩
    if n.toFloat.isInf then .error ⟨.numberOutOfRange, [], 0⟩ else .ok (n, [])

/-- Reads the part of a number after its whole digits `whole`: a fraction and an
exponent, if written. A point needs a digit after it. -/
def readFraction (negative : Bool) (whole : List Char) (cs : List Char) : Reading Numeral :=
  match cs with
  | '.' :: r =>
    let (fraction, rest) := splitDigits r
    if fraction.isEmpty then
      match r with
      | [] => .error ⟨.eofWhileValue, [], 1⟩
      | _ => .error ⟨.invalidNumber, r, 1⟩
    else readExponent negative (digitsValue (whole ++ fraction)) fraction.length false rest
  | _ => readExponent negative (digitsValue whole) 0 true cs

/-- Reads a number after its sign. Its whole part is `0` or has no leading zero. -/
def readNumber (negative : Bool) (cs : List Char) : Reading Numeral :=
  match cs with
  | [] => .error ⟨.eofWhileValue, [], 0⟩
  | c :: r =>
    if c = '0' then
      match r with
      | d :: _ => if d.isDigit then .error ⟨.invalidNumber, r, 1⟩ else readFraction negative [c] r
      | [] => readFraction negative [c] r
    else if c.isDigit then
      let (ds, rest) := splitDigits r
      readFraction negative (c :: ds) rest
    else .error ⟨.invalidNumber, c :: r, 1⟩

/-- Reads the rest of a word (`null`, `true`, `false`) after its first letter. -/
def readWord : List Char → List Char → Except SyntaxError (List Char)
  | [], cs => .ok cs
  | _ :: _, [] => .error ⟨.eofWhileValue, [], 0⟩
  | w :: ws, c :: cs => if c = w then readWord ws cs else .error ⟨.expectedIdent, c :: cs, 1⟩

/-- The value of a hexadecimal digit. -/
def hexDigit (c : Char) : Option Nat :=
  if c.isDigit then some (c.toNat - '0'.toNat)
  else if 'a' ≤ c ∧ c ≤ 'f' then some (c.toNat - 'a'.toNat + 10)
  else if 'A' ≤ c ∧ c ≤ 'F' then some (c.toNat - 'A'.toNat + 10)
  else none

/-- The value of four hexadecimal digits. -/
def hex4 (a b c d : Char) : Option Nat := do
  pure ((((← hexDigit a) * 16 + (← hexDigit b)) * 16 + (← hexDigit c)) * 16 + (← hexDigit d))

/-- The error of a `\u` escape followed by fewer than four characters: an invalid
escape when they still make four bytes, the end of the text otherwise. -/
def shortEscape (cs : List Char) : SyntaxError :=
  if 4 ≤ (String.ofList cs).utf8ByteSize then ⟨.invalidEscape, cs, 4⟩
  else ⟨.eofWhileString, [], 0⟩

/-- The character of a simple escape `\c`. -/
def escaped : Char → Option Char
  | '"' => some '"'
  | '\\' => some '\\'
  | '/' => some '/'
  | 'b' => some (Char.ofNat 8)
  | 'f' => some (Char.ofNat 12)
  | 'n' => some '\n'
  | 'r' => some '\r'
  | 't' => some '\t'
  | _ => none

/-- Whether a code point is a high (leading) surrogate. -/
def isHighSurrogate (n : Nat) : Bool := 0xD800 ≤ n && n ≤ 0xDBFF

/-- Whether a code point is a low (trailing) surrogate. -/
def isLowSurrogate (n : Nat) : Bool := 0xDC00 ≤ n && n ≤ 0xDFFF

/-- The character of a high and a low surrogate. -/
def surrogatePair (hi lo : Nat) : Char :=
  Char.ofNat (0x10000 + (hi - 0xD800) * 0x400 + (lo - 0xDC00))

/-- Reads the rest of a string after its opening quote; `acc` holds the characters
read so far, last first. A high surrogate escape must be followed at once by a
low one, the two making one character; a low surrogate alone and a raw control
character are refused. -/
def readString : List Char → List Char → Reading String
  | '"' :: r, acc => .ok (String.ofList acc.reverse, r)
  | '\\' :: 'u' :: a :: b :: c :: d :: r, acc =>
    match hex4 a b c d with
    | none => .error ⟨.invalidEscape, a :: b :: c :: d :: r, 4⟩
    | some n =>
      if isLowSurrogate n then .error ⟨.loneLeadingSurrogate, r, 0⟩
      else if !isHighSurrogate n then readString r (Char.ofNat n :: acc)
      else
        match r with
        | '\\' :: 'u' :: e :: f :: g :: h :: t =>
          match hex4 e f g h with
          | none => .error ⟨.invalidEscape, e :: f :: g :: h :: t, 4⟩
          | some m =>
            if isLowSurrogate m then readString t (surrogatePair n m :: acc)
            else .error ⟨.loneLeadingSurrogate, t, 0⟩
        | '\\' :: 'u' :: t => .error (shortEscape t)
        | '\\' :: x :: t => .error ⟨.unexpectedEndOfHexEscape, x :: t, 1⟩
        | '\\' :: [] => .error ⟨.eofWhileString, [], 0⟩
        | x :: t => .error ⟨.unexpectedEndOfHexEscape, x :: t, 1⟩
        | [] => .error ⟨.eofWhileString, [], 0⟩
  | '\\' :: 'u' :: r, _ => .error (shortEscape r)
  | '\\' :: e :: r, acc =>
    match escaped e with
    | some c => readString r (c :: acc)
    | none => .error ⟨.invalidEscape, e :: r, 1⟩
  | '\\' :: [], _ => .error ⟨.eofWhileString, [], 0⟩
  | c :: r, acc =>
    if c.toNat < 0x20 then .error ⟨.controlCharacter, c :: r, 1⟩ else readString r (c :: acc)
  | [], _ => .error ⟨.eofWhileString, [], 0⟩

mutual

/-- Reads one value in which at most `room` arrays and objects may nest. -/
def readValue : Nat → Nat → List Char → Reading Json
  | 0, _, cs => .error ⟨.recursionLimit, cs, 1⟩
  | fuel + 1, room, cs =>
    match skipBlank cs with
    | [] => .error ⟨.eofWhileValue, [], 1⟩
    | 'n' :: r => (readWord ['u', 'l', 'l'] r).map fun r => (.null, r)
    | 't' :: r => (readWord ['r', 'u', 'e'] r).map fun r => (.bool true, r)
    | 'f' :: r => (readWord ['a', 'l', 's', 'e'] r).map fun r => (.bool false, r)
    | '"' :: r => (readString r []).map fun (s, r) => (.string s, r)
    | '-' :: r => (readNumber true r).map fun (n, r) => (.number n, r)
    | '[' :: r =>
      if room = 0 then .error ⟨.recursionLimit, '[' :: r, 1⟩
      else
        match skipBlank r with
        | ']' :: r => .ok (.array [], r)
        | [] => .error ⟨.eofWhileList, [], 1⟩
        | r => readItems fuel (room - 1) r []
    | '{' :: r =>
      if room = 0 then .error ⟨.recursionLimit, '{' :: r, 1⟩
      else
        match skipBlank r with
        | '}' :: r => .ok (.object [], r)
        | [] => .error ⟨.eofWhileObject, [], 1⟩
        | r => readFields fuel (room - 1) r []
    | c :: r =>
      if c.isDigit then (readNumber false (c :: r)).map fun (n, r) => (.number n, r)
      else .error ⟨.expectedValue, c :: r, 1⟩

/-- Reads the items of an array from its next item on; `acc` holds the items read
so far, last first. -/
def readItems : Nat → Nat → List Char → List Json → Reading Json
  | 0, _, cs, _ => .error ⟨.recursionLimit, cs, 1⟩
  | fuel + 1, room, cs, acc =>
    match readValue fuel room cs with
    | .error e => .error e
    | .ok (v, r) =>
      match skipBlank r with
      | ']' :: r => .ok (.array (v :: acc).reverse, r)
      | ',' :: r =>
        match skipBlank r with
        | ']' :: t => .error ⟨.trailingComma, ']' :: t, 1⟩
        | [] => .error ⟨.eofWhileValue, [], 1⟩
        | t => readItems fuel room t (v :: acc)
      | [] => .error ⟨.eofWhileList, [], 1⟩
      | c :: t => .error ⟨.expectedListCommaOrEnd, c :: t, 1⟩

/-- Reads the fields of an object from its next key on; `acc` holds the fields read
so far. -/
def readFields : Nat → Nat → List Char → List (String × Json) → Reading Json
  | 0, _, cs, _ => .error ⟨.recursionLimit, cs, 1⟩
  | fuel + 1, room, cs, acc =>
    match cs with
    | '"' :: r =>
      match readString r [] with
      | .error e => .error e
      | .ok (key, r) =>
        match skipBlank r with
        | ':' :: r =>
          match readValue fuel room r with
          | .error e => .error e
          | .ok (v, r) =>
            match skipBlank r with
            | '}' :: r => .ok (.object (addField key v acc), r)
            | ',' :: r =>
              match skipBlank r with
              | '}' :: t => .error ⟨.trailingComma, '}' :: t, 1⟩
              | [] => .error ⟨.eofWhileValue, [], 1⟩
              | t => readFields fuel room t (addField key v acc)
            | [] => .error ⟨.eofWhileObject, [], 1⟩
            | c :: t => .error ⟨.expectedObjectCommaOrEnd, c :: t, 1⟩
        | [] => .error ⟨.eofWhileObject, [], 1⟩
        | c :: t => .error ⟨.expectedColon, c :: t, 1⟩
    | [] => .error ⟨.eofWhileValue, [], 1⟩
    | c :: r => .error ⟨.keyMustBeString, c :: r, 1⟩

end

/-- The most arrays and objects a request may nest. -/
def nestingLimit : Nat := 127

/-- Reads a whole text as one JSON value, blanks around it allowed. -/
def parse (text : String) : Except SyntaxError Json :=
  let cs := text.toList
  match readValue (2 * cs.length + 2) nestingLimit cs with
  | .error e => .error e
  | .ok (j, rest) =>
    match skipBlank rest with
    | [] => .ok j
    | c :: r => .error ⟨.trailingCharacters, c :: r, 1⟩

end Json

end Histograms.Session
