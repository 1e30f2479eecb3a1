import Histograms.Text.GraphemeExtend
import Histograms.Text.Printable
/-!
# Quoted labels

Labels are shown between double quotes. Inside, the quote and the backslash are
escaped, tab, carriage return, line feed and NUL get their short escapes, and a
character that would not show by itself, a grapheme extender or a character that
is not printable, is written as its code point in hexadecimal, `\u{301}`.
Everything else stands as it is.
-/

namespace Histograms.Text

/-- The character does not show by itself and is written as an escape. -/
def isHidden (c : Char) : Bool :=
  isGraphemeExtend c || !isPrintable c

/-- The lowercase hexadecimal digits of `n`, without leading zeros. -/
def hexDigits (n : Nat) : List Char :=
  (Nat.toDigits 16 n)

/-- The written form of one character inside a quoted label. -/
def escapeChar (c : Char) : List Char :=
  if c = '"' then ['\\', '"']
  else if c = '\\' then ['\\', '\\']
  else if c = '\t' then ['\\', 't']
  else if c = '\r' then ['\\', 'r']
  else if c = '\n' then ['\\', 'n']
  else if c.toNat = 0 then ['\\', '0']
  else if isHidden c then ['\\', 'u', Char.ofNat 123] ++ hexDigits c.toNat ++ [Char.ofNat 125]
  else [c]

/-- A label between double quotes, escaped. -/
def quote (s : String) : String :=
  String.ofList ('"' :: s.toList.flatMap escapeChar ++ ['"'])

end Histograms.Text
