import GatedLog.Gate
import GatedLog.Console.Layout

/-!
# Settings

What a configuration document says: a level, the enabled components (all of them when absent) and
the layout of the console. `Settings.write` is the canonical document: every field, in the order of
declaration, without blanks.
-/

namespace GatedLog

/-- The content of a configuration document. -/
structure Settings where
  level : Severity := .trace
  components : Option (List Component) := none
  console : ConsoleLayout := {}
  deriving DecidableEq, Repr, Inhabited

namespace Settings

/-- The gate that the settings ask for. -/
def gate (s : Settings) : Gate :=
  { mask := match s.components with
      | none => ComponentMask.full
      | some cs => ComponentMask.ofList cs
    threshold := s.level }

/-- The name of a severity in a document. -/
def severityWord : Severity → String
  | .trace => "trace"
  | .debug => "debug"
  | .info => "info"
  | .warning => "warning"
  | .error => "error"

/-- The name of a component in a document. -/
def componentWord : Component → String
  | .unknown => "unknown"
  | .rpc => "rpc"
  | .blockReader => "blockreader"
  | .fileHandle => "filehandle"
  | .fileSystem => "filesystem"

/-- A word as a string of a document. -/
def quoteWord (w : String) : String := "\"" ++ w ++ "\""

/-- A member of an object. -/
def member (name value : String) : String := quoteWord name ++ ":" ++ value

/-- An object of given members. -/
def object (members : List String) : String := "\x7b" ++ String.intercalate "," members ++ "\x7d"

/-- A truth value. -/
def writeBool (b : Bool) : String := if b then "true" else "false"

/-- A list of components, or its absence. -/
def writeComponents : Option (List Component) → String
  | none => "null"
  | some cs => "[" ++ String.intercalate "," (cs.map fun c => quoteWord (componentWord c)) ++ "]"

/-- The layout of the console. -/
def writeConsole (l : ConsoleLayout) : String :=
  object [
    member "show_level" (writeBool l.showLevel),
    member "show_component" (writeBool l.showComponent),
    member "show_timestamp" (writeBool l.showTimestamp),
    member "show_thread" (writeBool l.showThread),
    member "color" (writeBool l.color)]

/-- The canonical document of the settings. -/
def write (s : Settings) : String :=
  object [
    member "level" (quoteWord (severityWord s.level)),
    member "components" (writeComponents s.components),
    member "console" (writeConsole s.console)]

end Settings

end GatedLog
