import GatedLog.Rejection
import GatedLog.Text.Blank

/-!
# Severities and components as text

A severity is read from its code or from its name in any ASCII case, a component from its name
with hyphens and underscores anywhere. Blank ends do not count; a rejection shows the whole text.
-/

namespace GatedLog

/-- Reads a severity: an integer literal of 32 bits is a code, all else a name. -/
def Severity.read (s : String) : Except Rejection Severity :=
  let core := Text.trim s.toList
  match Text.readInt32 core with
  | some n => Severity.ofCode n
  | none =>
    match Severity.ofWord? (core.map Char.toLower) with
    | some severity => .ok severity
    | none => .error (.unknownSeverity s)

/-- Hyphens and underscores do not count in the name of a component. -/
def Component.isFiller (c : Char) : Bool := c == '_' || c == '-'

/-- Reads the name of a component. -/
def Component.read (s : String) : Except Rejection Component :=
  let core := Text.trim s.toList
  match Component.ofWord? ((core.filter fun c => !Component.isFiller c).map Char.toLower) with
  | some component => .ok component
  | none => .error (.unknownComponent s)

end GatedLog
