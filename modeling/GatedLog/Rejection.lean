import GatedLog.Severity
import GatedLog.Component
import GatedLog.Text.Digits

/-!
# Rejections

The four ways in which a text or a code fails to name a severity or a component. Each keeps what
was given, so that the wording shows it.
-/

namespace GatedLog

/-- Why something names no severity or no component. -/
inductive Rejection where
  | unknownSeverity (text : String)
  | severityCode (code : Int32)
  | unknownComponent (text : String)
  | componentCode (code : Int32)
  deriving DecidableEq, Repr

namespace Rejection

/-- The wording of a rejection: codes of severities in decimal, of components as 32-bit words. -/
def message : Rejection → String
  | unknownSeverity text => "unknown severity '" ++ text ++ "'"
  | severityCode code =>
    "severity code " ++ String.ofList (Text.decimal code.toInt) ++ " is out of range"
  | unknownComponent text => "unknown component '" ++ text ++ "'"
  | componentCode code =>
    "component code 0x" ++ String.ofList (Text.hexadecimal code.toUInt32.toNat) ++
      " does not name a single component"

end Rejection

/-- The severity that a code stands for. -/
def Severity.ofCode (n : Int32) : Except Rejection Severity :=
  match Severity.ofCode? n with
  | some s => .ok s
  | none => .error (.severityCode n)

/-- The component that a code stands for. -/
def Component.ofCode (n : Int32) : Except Rejection Component :=
  match Component.ofCode? n with
  | some c => .ok c
  | none => .error (.componentCode n)

end GatedLog
