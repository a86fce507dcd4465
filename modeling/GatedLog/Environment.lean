import GatedLog.Gate
import GatedLog.Reading
import GatedLog.Text.Utf8

/-!
# Gates from the environment

Two environment variables configure a gate: one holds a severity, the other a comma-separated list
of components that replaces the whole set. The level is read first, and the first fault wins.
-/

namespace GatedLog

/-- The variables that configure a gate. -/
inductive Variable where
  | level
  | components
  deriving DecidableEq, Repr

/-- The name of a variable in the environment. -/
def Variable.name : Variable → String
  | .level => "HDFSPP_LOG_LEVEL"
  | .components => "HDFSPP_LOG_COMPONENTS"

/-- What is wrong with the value of a variable. -/
inductive VariableFault where
  | notUnicode
  | rejected (why : Rejection)
  deriving DecidableEq, Repr

/-- A variable whose value cannot be used. -/
structure EnvironmentFault where
  source : Variable
  fault : VariableFault
  deriving DecidableEq, Repr

/-- The wording of a fault in the environment. -/
def EnvironmentFault.message (e : EnvironmentFault) : String :=
  "environment variable " ++ e.source.name ++ ": " ++
    match e.fault with
    | .notUnicode => "value is not valid unicode"
    | .rejected why => why.message

namespace Environment

/-- The pieces of a text between commas. -/
def pieces : List Char → List (List Char)
  | [] => [[]]
  | c :: cs =>
    if c = ',' then [] :: pieces cs
    else
      match pieces cs with
      | [] => [[c]]
      | p :: ps => (c :: p) :: ps

/-- The pieces without blank ends, and without those that are blank. -/
def entries (s : String) : List String :=
  (((pieces s.toList).map Text.trim).filter fun p => !p.isEmpty).map String.ofList

/-- Reads a list of components up to the first entry that names none. -/
def readComponents (s : String) : Except Rejection (List Component) := (entries s).mapM Component.read

/-- Blames a variable for a rejection. -/
def blame {α : Type} (v : Variable) : Except Rejection α → Except EnvironmentFault α
  | .ok a => .ok a
  | .error why => .error ⟨v, .rejected why⟩

/-- The gate after the values of the two variables; an absent value changes nothing. -/
def apply (g : Gate) (level components : Option String) : Except EnvironmentFault Gate := do
  let g ← match level with
    | none => .ok g
    | some text => (blame .level (Severity.read text)).map g.setThreshold
  match components with
  | none => .ok g
  | some text =>
    (blame .components (readComponents text)).map fun cs => g.setMask (ComponentMask.ofList cs)

/-- The text of a variable, if its octets are a text. -/
def decodeVariable (v : Variable) : Option (List UInt8) → Except EnvironmentFault (Option String)
  | none => .ok none
  | some octets =>
    match Text.Utf8.decode? octets with
    | some text => .ok (some text)
    | none => .error ⟨v, .notUnicode⟩

/-- The gate after the two variables themselves: both are decoded before either is read. -/
def applyOctets (g : Gate) (level components : Option (List UInt8)) :
    Except EnvironmentFault Gate := do
  let level ← decodeVariable .level level
  let components ← decodeVariable .components components
  apply g level components

end Environment

end GatedLog
