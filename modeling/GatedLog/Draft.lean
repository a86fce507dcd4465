import GatedLog.Message

/-!
# Drafts

The ways in which text gets into a message: values are added one by one, a foreign text or an address
in a step of its own, and a formatting driver writes piece by piece. Each of them looks for itself
whether the message is worth reporting. A draft is a message together with the values that have been
rendered for it so far, also those that a driver renders before the message is asked.
-/

namespace GatedLog

/-- An argument of a format, and its rendering in the pieces in which a driver hands it over. -/
structure Argument where
  value : Part
  pieces : List String
  deriving DecidableEq, Repr

namespace Argument

/-- The text of an argument. -/
def text (a : Argument) : String := String.join a.pieces

/-- An argument that is rendered as the value by itself. -/
def plain (p : Part) : Argument := ⟨p, [p.render]⟩

end Argument

/-- An item of a format. -/
inductive FormatItem where
  | literal (s : String)
  | argument (a : Argument)
  deriving DecidableEq, Repr

/-- The text of an item. -/
def FormatItem.text : FormatItem → String
  | literal s => s
  | argument a => a.text

/-- The value that is an argument. -/
def FormatItem.value? : FormatItem → Option Part
  | literal _ => none
  | argument a => some a.value

/-- A format together with its arguments. -/
structure Format where
  items : List FormatItem
  deriving DecidableEq, Repr

namespace Format

/-- The formatted text. -/
def text (f : Format) : String := String.join (f.items.map FormatItem.text)

/-- The arguments, each of which is rendered once. -/
def arguments (f : Format) : List Part := f.items.filterMap FormatItem.value?

/-- A label with a number. -/
def labelled (label : String) (n : Int) : Format :=
  ⟨[.argument (.plain (.text label)), .literal ": ", .argument (.plain (.integer n))]⟩

end Format

/-- What can be added as a value: a value, or a format that is rendered when it is added. -/
inductive Value where
  | part (p : Part)
  | format (f : Format)
  deriving DecidableEq, Repr

namespace Value

/-- The text of what is added. -/
def text : Value → String
  | part p => p.render
  | format f => f.text

/-- The values that are rendered for it. -/
def parts : Value → List Part
  | part p => [p]
  | format f => f.arguments

end Value

/-- A message in the course of being written, and the values rendered for it, in their order. -/
structure Draft where
  message : Message
  rendered : List Part := []
  deriving DecidableEq, Repr

namespace Draft

/-- Renders a value at the end of the text. -/
def render (d : Draft) (v : Value) : Draft :=
  { message := { d.message with text := d.message.text ++ v.text }
    rendered := d.rendered ++ v.parts }

/-- Adds a value in place. -/
def push (d : Draft) (v : Value) : Draft := if d.message.worth then d.render v else d

/-- Adds a value and goes on with the message. -/
def append (d : Draft) (v : Value) : Draft := d.push v

/-- Adds a foreign text, unless there is none. -/
def appendForeign (d : Draft) : Option (List UInt8) → Draft
  | none => d
  | some octets => if d.message.worth then d.render (.part (.octets octets)) else d

/-- Adds the address of the object that the message is about. -/
def origin (d : Draft) (a : UInt64) : Draft :=
  ((d.append (.part (.text "[this="))).append (.part (.address a))).append (.part (.text "] "))

/-- Takes over a piece of text from a driver. -/
def writeText (d : Draft) (s : String) : Draft := d.push (.part (.text s))

/-- A driver writes an item: it renders an argument and hands over the pieces, without knowing what
becomes of them. -/
def writeItem (d : Draft) : FormatItem → Draft
  | .literal s => d.writeText s
  | .argument a => a.pieces.foldl writeText { d with rendered := d.rendered ++ [a.value] }

/-- A driver writes a format. -/
def write (d : Draft) (f : Format) : Draft := f.items.foldl writeItem d

/-- A step in which something is added to a message. -/
inductive Entry where
  | append (v : Value)
  | push (v : Value)
  | foreign (octets : Option (List UInt8))
  | origin (a : UInt64)
  | write (f : Format)
  deriving DecidableEq, Repr

/-- Does a step. -/
def add (d : Draft) : Entry → Draft
  | .append v => d.append v
  | .push v => d.push v
  | .foreign octets => d.appendForeign octets
  | .origin a => d.origin a
  | .write f => d.write f

/-- Does steps in their order. -/
def addAll (d : Draft) (es : List Entry) : Draft := es.foldl add d

/-- What a formatted statement makes of its message: the format is only looked at if the message is
worth reporting. -/
def logged (d : Draft) (f : Format) : Draft :=
  if d.message.worth then d.append (.format f) else d

@[simp] theorem addAll_nil (d : Draft) : d.addAll [] = d := rfl

theorem addAll_cons (d : Draft) (e : Entry) (es : List Entry) :
    d.addAll (e :: es) = (d.add e).addAll es := rfl

end Draft

end GatedLog
