/-!
# Layout of console lines

Which headings stand in front of a text on the console, and whether the level is coloured.
-/

namespace GatedLog

/-- The headings of a console line. -/
structure ConsoleLayout where
  showLevel : Bool := true
  showComponent : Bool := true
  showTimestamp : Bool := true
  showThread : Bool := true
  color : Bool := false
  deriving DecidableEq, Repr, Inhabited

end GatedLog
