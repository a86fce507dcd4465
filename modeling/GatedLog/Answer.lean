import GatedLog.Environment
import GatedLog.ForeignRecord
import GatedLog.Message
import GatedLog.Operation
import GatedLog.Settings.Reader

/-!
# Answers

What an operation answers when it ends.
-/

namespace GatedLog

/-- A statement as a memory backend keeps it. -/
structure Captured where
  severity : Severity
  component : Component
  text : String
  deriving DecidableEq, Repr, Inhabited

/-- How many statements were captured: all, of each severity, and of each component. -/
structure Counts where
  total : Nat
  severities : List Nat
  components : List Nat
  deriving DecidableEq, Repr

/-- Counts captured statements. -/
def Counts.of (rs : List Captured) : Counts :=
  { total := rs.length
    severities := Severity.all.map fun s => rs.countP fun r => r.severity == s
    components := Component.all.map fun c => rs.countP fun r => r.component == c }

/-- Why a step of a builder failed. -/
inductive BuildFault where
  | environment (e : EnvironmentFault)
  | settings (f : Settings.Fault)
  deriving DecidableEq, Repr

/-- What an operation answers. -/
inductive Answer where
  | nothing
  | truth (b : Bool)
  /-- The status of a call by code: zero is success. -/
  | status (n : Nat)
  | gate (g : Option Gate)
  | name (n : Option String)
  /-- A statement as it was before it was dropped. -/
  | statement (worth : Bool) (text : String)
  | message (m : Message)
  | words (s : String)
  /-- How often an argument was evaluated. -/
  | evaluated (n : Nat)
  | captured (rs : List Captured)
  | counts (c : Counts)
  | octets (bs : List UInt8)
  | foreign (r : ForeignRecord)
  /-- The copy of a record, unless there was none to copy. -/
  | copied (r : Option ForeignRecord)
  | hook (h : Option Hook)
  /-- The gate after every step of a builder, and the fault of the step that failed. -/
  | steps (gates : List Gate) (fault : Option BuildFault)
  /-- The answers of a thread. -/
  | list (answers : List Answer)
  /-- The answers of a thread before and after its own state is gone. -/
  | exited (alive exit : List Answer)
  | panicked (text : String)

instance : Inhabited Answer := ⟨.nothing⟩

end GatedLog
