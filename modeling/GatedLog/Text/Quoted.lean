import GatedLog.Text.Digits
import GatedLog.Text.Extender
import GatedLog.Text.Unprintable

/-!
# Quoted text

A text between double quotes in which every character can be seen: quotes, backslashes and the
common controls have short escapes, and characters without a shape of their own are written by
their code point.
-/

namespace GatedLog.Text.Quoted

/-- An escape that names the code point. -/
def byCodePoint (c : Char) : List Char :=
  ['\\', 'u', '{'] ++ hexadecimal c.toNat ++ ['}']

/-- How a character is written between quotes. -/
def encodeChar (c : Char) : List Char :=
  if c = '"' then ['\\', '"']
  else if c = '\\' then ['\\', '\\']
  else if c = '\n' then ['\\', 'n']
  else if c = '\r' then ['\\', 'r']
  else if c = '\t' then ['\\', 't']
  else if c.toNat = 0 then ['\\', '0']
  else if 0x20 ≤ c.toNat ∧ c.toNat < 0x7F then [c]
  else if isUnprintable c || isExtender c then byCodePoint c
  else [c]

/-- A text between quotes. -/
def encode (s : String) : String := String.ofList ('"' :: s.toList.flatMap encodeChar ++ ['"'])

end GatedLog.Text.Quoted
