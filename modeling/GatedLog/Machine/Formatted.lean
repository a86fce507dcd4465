import GatedLog.Draft
import GatedLog.Machine.Begin

/-!
# Formatted statements

A statement that is given by a format makes its message first. The format is looked at only if that
message is worth reporting, and then the message ends.
-/

namespace GatedLog.State

/-- Logs a formatted statement. -/
def logFormatted (s : State) (c : ContextId) (sev : Severity) (k : Component) (f : Format)
    (answer : Message → Answer) : Outcome :=
  let d : Draft := { message := s.world.newMessage c sev k }
  let ended := (d.logged f).message
  let made := ((s.withWorld s.world.countMessage).push [.drop ended, .respond (answer ended)],
    .made d.message :: (d.logged f).rendered.map (Happening.rendered d.message.serial))
  s.accessing c made made

end GatedLog.State
