import GatedLog.Severity
import GatedLog.Component
import GatedLog.Part
import GatedLog.Text.Quoted

/-!
# Messages

A message is a statement under construction. Whether it is worth reporting is decided when it is
made; a message that is not stays empty, whatever is added to it.
-/

namespace GatedLog

/-- The identity of a context. -/
abbrev ContextId := Nat

/-- A statement on its way to the backend of a context; no two messages of a run have the same
serial number. -/
structure Message where
  serial : Nat
  context : ContextId
  severity : Severity
  component : Component
  worth : Bool
  text : String := ""
  deriving DecidableEq, Repr, Inhabited

namespace Message

/-- Adds a value. -/
def append (m : Message) (p : Part) : Message :=
  if m.worth then { m with text := m.text ++ p.render } else m

/-- Adds values in their order. -/
def appendAll (m : Message) (ps : List Part) : Message := ps.foldl append m

/-- The values that adding them renders. -/
def rendered (m : Message) (ps : List Part) : List Part := if m.worth then ps else []

/-- The message in words. -/
def describe (m : Message) : String :=
  "Message \x7b severity: " ++ m.severity.constructorName ++
    ", component: " ++ m.component.constructorName ++
    ", worth_reporting: " ++ (if m.worth then "true" else "false") ++
    ", body: " ++ Text.Quoted.encode m.text ++ " \x7d"

@[simp] theorem appendAll_nil (m : Message) : m.appendAll [] = m := rfl

theorem appendAll_append (m : Message) (ps qs : List Part) :
    m.appendAll (ps ++ qs) = (m.appendAll ps).appendAll qs := by simp [appendAll]

theorem worth_append (m : Message) (p : Part) : (m.append p).worth = m.worth := by
  unfold append
  split <;> rfl

end Message

end GatedLog
