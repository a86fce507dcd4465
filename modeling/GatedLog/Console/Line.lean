import GatedLog.Severity
import GatedLog.Component
import GatedLog.Console.Layout
import GatedLog.Text.Digits

/-!
# Console lines

A line is the headings that the layout shows, in the order level, component, time and thread, then
four spaces, the text and a newline. Only the level is ever coloured.
-/

namespace GatedLog

/-- When and on which thread a line is written. -/
structure Stamp where
  time : String
  thread : Nat
  deriving DecidableEq, Repr

namespace Severity

/-- The codes that switch the colour of a severity on. -/
def colorCode : Severity → String
  | trace => "\x1b[2m"
  | debug => "\x1b[34m"
  | info => "\x1b[32m"
  | warning => "\x1b[33m"
  | error => "\x1b[1;31m"

/-- The codes that switch any colour off. -/
def colorReset : String := "\x1b[0m"

/-- The label between the codes of its colour. -/
def coloredLabel (s : Severity) : String := s.colorCode ++ s.label ++ colorReset

end Severity

namespace ConsoleLayout

/-- The heading for the level, coloured if the layout asks for it and colours are on. -/
def levelHeading (l : ConsoleLayout) (colors : Bool) (s : Severity) : String :=
  if l.showLevel then if l.color && colors then s.coloredLabel else s.label else ""

/-- The heading for the component. -/
def componentHeading (l : ConsoleLayout) (c : Component) : String :=
  if l.showComponent then c.label else ""

/-- The heading for the time. -/
def timeHeading (l : ConsoleLayout) (stamp : Stamp) : String :=
  if l.showTimestamp then "[" ++ stamp.time ++ "]" else ""

/-- The heading for the thread. -/
def threadHeading (l : ConsoleLayout) (stamp : Stamp) : String :=
  if l.showThread then
    "[Thread id = ThreadId(" ++ String.ofList (Text.decimalNat stamp.thread) ++ ")]"
  else ""

/-- All headings of a line. -/
def headings (l : ConsoleLayout) (colors : Bool) (stamp : Stamp) (s : Severity) (c : Component) :
    String :=
  l.levelHeading colors s ++ l.componentHeading c ++ l.timeHeading stamp ++ l.threadHeading stamp

/-- The line for a statement. -/
def line (l : ConsoleLayout) (colors : Bool) (stamp : Stamp) (s : Severity) (c : Component)
    (text : String) : String :=
  l.headings colors stamp s c ++ "    " ++ text ++ "\n"

end ConsoleLayout

end GatedLog
