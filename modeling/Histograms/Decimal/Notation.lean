import Histograms.Decimal.Shortest
/-!
# Writing a float in decimal

A float is written from its shortest decimal (`Decimal.shortest`). A
`FloatNotation` record holds the choices of a layout: where scientific form
starts, how many fraction digits positional form keeps at least, and the texts
of NaN and infinity. Two layouts are used by this library:

* `FloatNotation.positional`: never an exponent, no fraction when the value is
  whole (`1e20` is `100000000000000000000`, `-0.0` is `-0`);
* `FloatNotation.general`: scientific when the decimal exponent is below `-4` or
  at least `16` (`1e-7`, `1e20`, `1.2345678901234567e19`), otherwise positional
  with at least one fraction digit (`3.0`, `-0.0`).

A negative sign is written for every negative value, zeros and infinities included.
-/

namespace Histograms

/-- The choices of a decimal layout for floats. -/
structure FloatNotation where
  /-- Decimal exponents below this one are written in scientific form. -/
  scientificBelow : Option Int
  /-- Decimal exponents from this one up are written in scientific form. -/
  scientificFrom : Option Int
  /-- The fewest digits after the point in positional form. -/
  minFraction : Nat
  /-- The text of NaN. -/
  nan : String
  /-- The text of positive infinity (a minus sign is put before it for the negative one). -/
  infinity : String

namespace FloatNotation

/-- Whole values without a point, never an exponent. -/
def positional : FloatNotation :=
  ⟨none, none, 0, "NaN", "inf"⟩

/-- Scientific form outside `[1e-4, 1e16)`, and at least one fraction digit otherwise. -/
def general : FloatNotation :=
  ⟨some (-4), some 16, 1, "NaN", "inf"⟩

/-- `n` zero digits. -/
def zeros (n : Nat) : String :=
  "".pushn '0' n

/-- The fraction part after a point, padded to `minFraction` digits; empty when there is
neither a fraction nor a required digit. -/
def fractionPart (nt : FloatNotation) (frac : String) : String :=
  let padded := frac ++ zeros (nt.minFraction - frac.length)
  if padded.isEmpty then "" else "." ++ padded

/-- The positional text of `digits * 10 ^ exponent`, where `digits` is written out. -/
def positionalText (nt : FloatNotation) (digits : String) (exponent : Int) : String :=
  if 0 ≤ exponent then
    digits ++ zeros exponent.toNat ++ nt.fractionPart ""
  else
    let shift := (-exponent).toNat
    if shift < digits.length then
      String.ofList (digits.toList.take (digits.length - shift)) ++
        nt.fractionPart (String.ofList (digits.toList.drop (digits.length - shift)))
    else
      "0" ++ nt.fractionPart (zeros (shift - digits.length) ++ digits)

/-- The scientific text `d.ddde±x` of `digits * 10 ^ exponent`; a single digit has
no point. -/
def scientificText (digits : String) (exponent : Int) : String :=
  let lead := String.ofList (digits.toList.take 1)
  let rest := String.ofList (digits.toList.drop 1)
  let power := exponent + (digits.length : Int) - 1
  lead ++ (if rest.isEmpty then "" else "." ++ rest) ++ "e" ++ toString power

/-- Uses scientific form for a value whose leading digit has decimal exponent `power`. -/
def isScientific (nt : FloatNotation) (power : Int) : Bool :=
  (match nt.scientificBelow with
    | some lo => decide (power < lo)
    | none => false) ||
  (match nt.scientificFrom with
    | some hi => decide (hi ≤ power)
    | none => false)

/-- The text of a positive decimal. -/
def decimalText (nt : FloatNotation) (d : Decimal) : String :=
  let digits := toString d.digits
  if nt.isScientific (d.exponent + (digits.length : Int) - 1) then
    scientificText digits d.exponent
  else
    nt.positionalText digits d.exponent

/-- The text of a float in this layout. -/
def render (nt : FloatNotation) (x : Float) : String :=
  match Binary64.ofFloat x with
  | .nan => nt.nan
  | .infinite negative => (if negative then "-" else "") ++ nt.infinity
  | .finite negative mant exp =>
    (if negative then "-" else "") ++
      (if mant = 0 then "0" ++ nt.fractionPart ""
       else nt.decimalText (Decimal.shortest mant exp))

end FloatNotation

end Histograms

/-- The positional text of a float: `3`, `0.1`, `100000000000000000000`, `-0`, `NaN`. -/
def Float.toPositional (x : Float) : String :=
  Histograms.FloatNotation.positional.render x

/-- The general text of a float: `3.0`, `0.1`, `1e20`, `1e-7`, `-0.0`, `NaN`. -/
def Float.toGeneral (x : Float) : String :=
  Histograms.FloatNotation.general.render x
