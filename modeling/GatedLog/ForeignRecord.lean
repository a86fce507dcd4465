import GatedLog.Text.Utf8

/-!
# Foreign records

What a callback receives: a text that may be absent and ends at its first zero octet, and the
codes of a severity and a component. A copy owns the visible part of the text.
-/

namespace GatedLog

/-- The text in front of its first NUL. -/
def Text.untilNul (s : String) : String := String.ofList (s.toList.takeWhile (· != '\x00'))

/-- A record as a callback sees it. -/
structure ForeignRecord where
  text : Option (List UInt8) := none
  level : Int32 := 0
  component : Int32 := 0
  deriving DecidableEq, Repr, Inhabited

namespace ForeignRecord

/-- Octets as a foreign text: there is none if one of them is zero. -/
def terminated? (octets : List UInt8) : Option (List UInt8) :=
  if octets.contains 0 then none else some octets

/-- The foreign text of what stands in front of the first NUL. It is empty where there is none. -/
def ofText (s : String) : List UInt8 := (terminated? (Text.Utf8.encode (Text.untilNul s))).getD []

/-- The octets in front of the first zero. -/
def visible (octets : List UInt8) : List UInt8 := octets.takeWhile (· != 0)

/-- The text as far as it can be seen. -/
def message (r : ForeignRecord) : Option (List UInt8) := r.text.map visible

/-- A copy that shares nothing with the record. -/
def copy (r : ForeignRecord) : ForeignRecord := { r with text := r.message }

@[simp] theorem visible_visible (octets : List UInt8) : visible (visible octets) = visible octets := by
  induction octets with
  | nil => rfl
  | cons b bs ih => by_cases h : b = 0 <;> simp_all [visible]

@[simp] theorem message_copy (r : ForeignRecord) : r.copy.message = r.message := by
  cases h : r.text <;> simp [copy, message, h]

end ForeignRecord

end GatedLog
