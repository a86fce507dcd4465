import GatedLog.Decimal.Shortest

/-!
# Numerals

A numeral keeps its spelling. Its value is an integer when it has neither point nor exponent and
fits 64 bits; any other value is a double, computed from as many digits as a 64-bit significand
takes and from powers of ten, and may be out of range.
-/

namespace GatedLog.Json

/-- The spelling of a number; no digits in the fraction mean that there is no point. -/
structure Numeral where
  negative : Bool
  whole : List Char
  fraction : List Char
  exponent : Option (Bool × List Char)
  deriving DecidableEq, Repr

/-- The value of a numeral; doubles are kept as their text. -/
inductive Numeral.Value where
  | integer (n : Int)
  | floating (text : String)
  | outOfRange
  deriving DecidableEq, Repr

namespace Numeral

/-- The value of an ASCII digit. -/
def digitValue (c : Char) : Nat := c.toNat - 48

/-- Digits join a significand while it fits 64 bits; the rest is left over. -/
def absorb : Nat → List Char → Nat × List Char
  | n, [] => (n, [])
  | n, c :: cs => if 10 * n + digitValue c < UInt64.size then absorb (10 * n + digitValue c) cs else (n, c :: cs)

/-- The value of the digits of an exponent; from 2³¹ on the size does not matter. -/
def exponentSize (digits : List Char) : Nat :=
  digits.foldl (fun n c => min (10 * n + digitValue c) 0x80000000) 0

/-- A power of ten as a double, up to the largest that there is. -/
def power (n : Nat) : Float := Float.ofScientific 1 false n

/-- Divides by a power of ten in steps, until nothing is left of the number. -/
def shrink (f : Float) (n : Nat) : Float :=
  if n ≤ 308 then f / power n
  else if f == 0 then f
  else shrink (f / power 308) (n - 308)
termination_by n

/-- A significand times a power of ten, unless it is too large. -/
def scaled? (significand : Nat) (exponent : Int) : Option Float :=
  let f := significand.toUInt64.toFloat
  if exponent < 0 then some (shrink f (-exponent).toNat)
  else if 308 < exponent then if f == 0 then some f else none
  else
    let g := f * power exponent.toNat
    if g.isInf then none else some g

/-- Doubles are written positionally from 10⁻⁵ up to below 10¹⁶. -/
def layout : Decimal.Layout := ⟨-5, 15, ['e'], ['+']⟩

/-- The value that a double with the numeral's sign has. -/
def signed (x : Numeral) (f : Float) : Value :=
  .floating (String.ofList (layout.writeFloat (if x.negative then -f else f)))

/-- The value of the numeral with a given significand and scale, after its exponent. -/
def withExponent (x : Numeral) (significand : Nat) (scale : Int) : Value :=
  match x.exponent with
  | none =>
    match scaled? significand scale with
    | some f => x.signed f
    | none => .outOfRange
  | some (down, digits) =>
    let e := exponentSize digits
    if 0x80000000 ≤ e then if significand ≠ 0 ∧ !down then .outOfRange else x.signed 0
    else
      let total := if down then scale - e else scale + e
      match scaled? significand (max (-0x80000000) (min 0x7FFFFFFF total)) with
      | some f => x.signed f
      | none => .outOfRange

/-- The value of a numeral. -/
def value (x : Numeral) : Value :=
  let (significand, left) := absorb 0 x.whole
  if x.fraction.isEmpty && x.exponent.isNone && left.isEmpty then
    if !x.negative then .integer significand
    else if significand = 0 ∨ 0x8000000000000000 < significand then x.signed significand.toUInt64.toFloat
    else .integer (-significand)
  else
    let (significand, rest) := absorb significand x.fraction
    x.withExponent significand (left.length - (x.fraction.length - rest.length : Nat))

end Numeral

end GatedLog.Json
