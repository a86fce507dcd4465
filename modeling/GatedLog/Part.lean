import GatedLog.Text.Digits
import GatedLog.Text.Utf8

/-!
# Parts

The values that a statement is put together from, and how each is rendered. An absent value and an
absent foreign text are rendered as nothing.
-/

namespace GatedLog

/-- A value that is added to a statement. -/
inductive Part where
  /-- A text. -/
  | text (s : String)
  /-- A foreign text, decoded with replacement characters. -/
  | octets (bs : List UInt8)
  /-- A foreign text that is not there. -/
  | noOctets
  /-- A truth value. -/
  | boolean (b : Bool)
  /-- One character. -/
  | char (c : Char)
  /-- An integer of any width. -/
  | integer (n : Int)
  /-- An address. -/
  | address (a : UInt64)
  /-- The address of the object that a statement is about. -/
  | origin (a : UInt64)
  /-- A value that is not there. -/
  | absent
  /-- A value that is there. -/
  | present (p : Part)
  /-- A name with a number. -/
  | assignment (name : String) (n : Int)
  /-- A label with a number. -/
  | labelled (label : String) (n : Int)
  /-- A text whose rendering is observed. -/
  | counted (s : String)
  deriving DecidableEq, Repr

namespace Part

/-- The text of a value. -/
def render : Part → String
  | text s => s
  | octets bs => Text.Utf8.decode (bs.takeWhile (· != 0))
  | noOctets => ""
  | boolean b => if b then "true" else "false"
  | char c => String.singleton c
  | integer n => String.ofList (Text.decimal n)
  | address a => String.ofList (Text.address a)
  | origin a => "[this=" ++ String.ofList (Text.address a) ++ "] "
  | absent => ""
  | present p => p.render
  | assignment name n => name ++ "=" ++ String.ofList (Text.decimal n)
  | labelled label n => label ++ ": " ++ String.ofList (Text.decimal n)
  | counted s => s

/-- The text of a list of values. -/
def renderAll (ps : List Part) : String := ps.foldl (fun s p => s ++ p.render) ""

end Part

end GatedLog
