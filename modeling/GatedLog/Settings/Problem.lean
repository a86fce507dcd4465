import GatedLog.Text.Quoted
import GatedLog.Json.Token

/-!
# Problems of configuration documents

A document that cannot be read is malformed, or has a problem: a name, a field or a type that does
not belong where it stands.
-/

namespace GatedLog.Settings

/-- What was wanted where something else stands. -/
inductive Wanted where
  | settings
  | console
  | sequence
  | boolean
  | unit
  deriving DecidableEq, Repr

/-- The wording of what was wanted. -/
def Wanted.message : Wanted → String
  | settings => "struct LoggingConfig"
  | console => "struct ConsoleConfig"
  | sequence => "a sequence"
  | boolean => "a boolean"
  | unit => "unit"

/-- The value that stands in the wrong place; doubles are kept as their text. -/
inductive Found where
  | null
  | boolean (b : Bool)
  | integer (n : Int)
  | floating (text : String)
  | text (s : String)
  | sequence
  | map
  deriving DecidableEq, Repr

/-- The wording of a value in the wrong place. -/
def Found.message : Found → String
  | null => "null"
  | boolean b => "boolean `" ++ (if b then "true" else "false") ++ "`"
  | integer n => "integer `" ++ String.ofList (Text.decimal n) ++ "`"
  | floating digits => "floating point `" ++ digits ++ "`"
  | text s => "string " ++ Text.Quoted.encode s
  | sequence => "sequence"
  | map => "map"

/-- Why well-formed data is no configuration. -/
inductive Problem where
  | unknownName (name : String) (known : List String)
  | duplicateField (name : String)
  | wrongType (found : Found) (wanted : Wanted)
  deriving DecidableEq, Repr

/-- A name between backquotes. -/
def backquoted (name : String) : String := "`" ++ name ++ "`"

/-- The wording of a problem. -/
def Problem.message : Problem → String
  | unknownName name known =>
    "unknown variant " ++ backquoted name ++ ", expected one of " ++
      String.intercalate ", " (known.map backquoted)
  | duplicateField name => "duplicate field " ++ backquoted name
  | wrongType found wanted => "invalid type: " ++ found.message ++ ", expected " ++ wanted.message

/-- Why a document cannot be read. -/
inductive Fault where
  | malformed
  | problem (p : Problem)
  deriving DecidableEq, Repr

/-- The problem, or the malformation, of a value that is not of the type that was wanted. -/
def wrongType (wanted : Wanted) : List Json.Token → Fault
  | .null :: _ => .problem (.wrongType .null wanted)
  | .boolean b :: _ => .problem (.wrongType (.boolean b) wanted)
  | .number n :: _ =>
    match n.value with
    | .integer i => .problem (.wrongType (.integer i) wanted)
    | .floating text => .problem (.wrongType (.floating text) wanted)
    | .outOfRange => .malformed
  | .text (some s) :: _ => .problem (.wrongType (.text s) wanted)
  | .openBracket :: _ => .problem (.wrongType .sequence wanted)
  | .openBrace :: _ => .problem (.wrongType .map wanted)
  | _ => .malformed

end GatedLog.Settings
