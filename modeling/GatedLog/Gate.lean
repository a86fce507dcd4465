import GatedLog.Severity
import GatedLog.Component

/-!
# Gates

A gate lets a statement pass when its severity reaches a threshold and its component is in a set.
Sets of components are 32-bit words of which five bits have a component; every operation on one
component leaves the other bits as they are.
-/

namespace GatedLog

/-- A set of components, one bit each; the other 27 bits are carried along. -/
structure ComponentMask where
  bits : UInt32
  deriving DecidableEq, Repr

namespace ComponentMask

/-- Every bit is set, also those of no component. -/
def full : ComponentMask := ⟨0xFFFFFFFF⟩

/-- No bit is set. -/
def empty : ComponentMask := ⟨0⟩

instance : Inhabited ComponentMask := ⟨full⟩

/-- The set of one component. -/
def single (c : Component) : ComponentMask := ⟨c.bit⟩

/-- Adds a component. -/
def insert (m : ComponentMask) (c : Component) : ComponentMask := ⟨m.bits ||| c.bit⟩

/-- The operator adds a component, too, alone or as an assignment. -/
instance : HOr ComponentMask Component ComponentMask := ⟨insert⟩

/-- Takes a component out. -/
def erase (m : ComponentMask) (c : Component) : ComponentMask := ⟨m.bits &&& ~~~c.bit⟩

/-- Whether a component is in the set. -/
def contains (m : ComponentMask) (c : Component) : Bool := m.bits &&& c.bit != 0

/-- The set of the components of a list. -/
def ofList (cs : List Component) : ComponentMask := cs.foldl insert empty

/-- The components in the set, by rising code. -/
def toList (m : ComponentMask) : List Component := Component.all.filter m.contains

/-- The set as it stands in the description of a gate. -/
def describe (m : ComponentMask) : String := "ComponentMask(" ++ toString m.bits.toNat ++ ")"

@[simp] theorem or_eq_insert (m : ComponentMask) (c : Component) : m ||| c = m.insert c := rfl

@[simp] theorem ofList_nil : ofList [] = empty := rfl

end ComponentMask

/-- Which statements pass: those of an enabled component at or above a threshold. -/
structure Gate where
  mask : ComponentMask := ComponentMask.full
  threshold : Severity := .trace
  deriving DecidableEq, Repr

namespace Gate

/-- The gate that lets every statement pass. -/
def unrestricted : Gate := {}

instance : Inhabited Gate := ⟨Gate.unrestricted⟩

/-- Whether a statement of this severity and component passes. -/
def allows (g : Gate) (s : Severity) (c : Component) : Bool := g.threshold ≤ s && g.mask.contains c

/-- Lets a component pass. -/
def enable (g : Gate) (c : Component) : Gate := { g with mask := g.mask.insert c }

/-- Holds a component back. -/
def disable (g : Gate) (c : Component) : Gate := { g with mask := g.mask.erase c }

/-- Moves the threshold. -/
def setThreshold (g : Gate) (s : Severity) : Gate := { g with threshold := s }

/-- Replaces the set of components. -/
def setMask (g : Gate) (m : ComponentMask) : Gate := { g with mask := m }

/-- The gate in words. -/
def describe (g : Gate) : String :=
  "Gate \x7b mask: " ++ g.mask.describe ++ ", threshold: " ++ g.threshold.constructorName ++ " \x7d"

/-- For each severity, which components pass, as a row of zeros and ones. -/
def table (g : Gate) : List String :=
  Severity.all.map fun s => String.ofList (Component.all.map fun c => if g.allows s c then '1' else '0')

theorem allows_iff {g : Gate} {s : Severity} {c : Component} :
    g.allows s c = true ↔ g.threshold ≤ s ∧ g.mask.contains c = true := by
  simp [allows]

end Gate

end GatedLog
