import GatedLog.Settings.Reader
import GatedLog.Proofs.Json.Value

/-!
# The schema of configuration documents

What a value says as a configuration document, or that it says nothing. The value is looked at as a
whole; how a document is read from left to right does not matter here.
-/

namespace GatedLog.Settings

open Json (Value)

/-- A name: a string, or an object of that single key with the value `null`. -/
def nameOf? {α : Type} (names : List (String × α)) : Value → Option α
  | .text (some name) => names.lookup name
  | .object [(some name, .null)] => names.lookup name
  | _ => none

/-- A truth value. -/
def booleanOf? : Value → Option Bool
  | .boolean b => some b
  | _ => none

/-- The components by their names, in their order and as often as they are named, or `null`. -/
def componentsOf? : Value → Option (Option (List Component))
  | .null => some none
  | .array items => (items.mapM (nameOf? componentNames)).map some
  | _ => none

/-- The names of an object are texts, and none of the fields is given twice. -/
def Unambiguous (fields : List String) (members : List (Option String × Value)) : Prop :=
  (∀ m ∈ members, m.1 ≠ none) ∧ ∀ f ∈ fields, members.countP (fun m => m.1 == some f) ≤ 1

instance (fields : List String) (members : List (Option String × Value)) :
    Decidable (Unambiguous fields members) :=
  inferInstanceAs (Decidable (_ ∧ _))

/-- The values that a record gives its fields, in the order of their declaration: those of the
members with their names, whatever else there is, or the items of an array one by one. -/
def slots? (fields : List String) : Value → Option (List (Option Value))
  | .object members =>
    if Unambiguous fields members then some (fields.map fun f => members.lookup (some f)) else none
  | .array items =>
    if items.length ≤ fields.length then
      some (items.map some ++ List.replicate (fields.length - items.length) none)
    else none
  | _ => none

/-- What a field says: its default if it is not given. -/
def orDefault {β : Type} (default : β) (decode : Value → Option β) : Option Value → Option β
  | none => some default
  | some v => decode v

/-- The layout of the console. -/
def consoleOf? (v : Value) : Option ConsoleLayout :=
  match slots? ["show_level", "show_component", "show_timestamp", "show_thread", "color"] v with
  | some [level, component, timestamp, thread, color] => do
    some {
      showLevel := ← orDefault true booleanOf? level
      showComponent := ← orDefault true booleanOf? component
      showTimestamp := ← orDefault true booleanOf? timestamp
      showThread := ← orDefault true booleanOf? thread
      color := ← orDefault false booleanOf? color }
  | _ => none

/-- The settings that a value stands for. -/
def ofValue? (v : Value) : Option Settings :=
  match slots? ["level", "components", "console"] v with
  | some [level, components, console] => do
    some {
      level := ← orDefault .trace (nameOf? severityNames) level
      components := ← orDefault none componentsOf? components
      console := ← orDefault {} consoleOf? console }
  | _ => none

end GatedLog.Settings
