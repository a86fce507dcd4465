import Mathlib.Data.String.Basic
import GatedLog.Proofs.Drafts
import GatedLog.Proofs.Text.Figures

/-!
# Numbers in messages

An address takes eighteen characters in a message, a mark and sixteen figures, and so the origin of a
message takes as much room for one object as for any other. An integer takes its literal without a plus
and without zeros in front, of which there is one. Either is read back from what it takes
(`Draft.numbers_rendered`).
-/

namespace GatedLog

namespace Text

/-- A mark for an address, and the sixteen figures that spell it. -/
inductive AddressText : List Char → UInt64 → Prop
  | marked {ds : List Char} {a : UInt64} (hlength : ds.length = 16) (h : Spells 16 ds a.toNat) :
    AddressText ('0' :: 'x' :: ds) a

/-- Reads the figures behind the mark of an address. -/
def readAddress : List Char → Option UInt64
  | '0' :: 'x' :: ds => (readHexadecimal ds).map UInt64.ofNat
  | _ => none

variable {cs : List Char} {a : UInt64}

theorem length_hexadecimal_le (a : UInt64) : (hexadecimal a.toNat).length ≤ 16 :=
  (Nat.length_toDigits_le_iff (by decide) (by decide)).mpr a.toNat_lt

theorem addressText_address (a : UInt64) : AddressText (address a) a :=
  .marked (length_padZeros (length_hexadecimal_le a))
    ((spells_toDigits (by decide) (by decide) a.toNat).zeros (by decide) _)

namespace AddressText

theorem length_eq (h : AddressText cs a) : cs.length = 18 := by
  obtain ⟨hlength, -⟩ := h
  rw [List.length_cons, List.length_cons, hlength]

/-- An address has one text: so many figures for a number are the same. -/
theorem eq_address (h : AddressText cs a) : address a = cs := by
  obtain ⟨hlength, hspells⟩ := h
  obtain ⟨hlength', hspells'⟩ := addressText_address a
  rw [address, hspells'.eq_of_length (by decide) (by decide) hspells (hlength'.trans hlength.symm)]

theorem readAddress_eq (h : AddressText cs a) : readAddress cs = some a := by
  obtain ⟨-, hspells⟩ := h
  rw [readAddress, hspells.readHexadecimal_eq, Option.map_some, UInt64.ofNat_toNat]

end AddressText

theorem address_eq_iff : address a = cs ↔ AddressText cs a :=
  ⟨fun h => h ▸ addressText_address a, AddressText.eq_address⟩

theorem readAddress_address (a : UInt64) : readAddress (address a) = some a :=
  (addressText_address a).readAddress_eq

theorem address_injective : Function.Injective address := by
  intro a b h
  have hread := readAddress_address a
  rw [h, readAddress_address] at hread
  exact (Option.some.inj hread).symm

/-- An integer has one shortest literal. -/
theorem decimal_eq_iff {i : Int} : decimal i = cs ↔ Shortest Literal cs i := by
  obtain ⟨hliteral, hshort⟩ := shortest_decimal i
  constructor
  · rintro rfl
    exact ⟨hliteral, hshort⟩
  · rintro ⟨h, hshort'⟩
    by_contra hne
    exact Nat.lt_asymm (hshort cs h (Ne.symm hne)) (hshort' (decimal i) hliteral hne)

end Text

namespace Draft

open Text

/-- The steps in which a value is added. -/
def Entry.ofPart (p : Part) : List Entry := [.append (.part p), .push (.part p)]

variable {d : Draft} {a : UInt64} {i : Int} {t : String}

theorem text_add_of_mem_ofPart (hw : d.message.worth = true) {p : Part} {e : Entry}
    (he : e ∈ Entry.ofPart p) : (d.add e).message.text = d.message.text ++ p.render := by
  simp only [Entry.ofPart, List.mem_cons, List.not_mem_nil, or_false] at he
  rw [add_of_worth hw]
  rcases he with rfl | rfl <;> rfl

theorem render_address_eq_iff : (Part.address a).render = t ↔ AddressText t.toList a := by
  rw [← address_eq_iff, Part.render, String.ofList_eq]

theorem render_integer_eq_iff : (Part.integer i).render = t ↔ Shortest Literal t.toList i := by
  rw [← decimal_eq_iff, Part.render, String.ofList_eq]

theorem length_render_address (a : UInt64) : (Part.address a).render.length = 18 :=
  (render_address_eq_iff.mp rfl).length_eq

/-- How a message shows where its object is. -/
def originText (a : UInt64) : String := "[this=" ++ (Part.address a).render ++ "]"

theorem render_origin (a : UInt64) : (Part.origin a).render = originText a ++ " " := by
  rw [originText, String.append_assoc, Part.render]
  rfl

theorem length_originText (a : UInt64) : (originText a).length = 25 := by
  rw [originText, String.length_append, String.length_append, length_render_address]
  rfl

/-- What becomes of addresses and integers. -/
structure NumbersRendered : Prop where
  /-- The text of a message that is worth reporting grows by what is rendered for the value. -/
  grows {d : Draft} (hw : d.message.worth = true) (p : Part) :
    ∀ e ∈ Entry.ofPart p, (d.add e).message.text = d.message.text ++ p.render
  /-- For an address that is a mark and the sixteen figures that spell it, -/
  address {a : UInt64} {t : String} : (Part.address a).render = t ↔ AddressText t.toList a
  /-- eighteen characters, -/
  width (a : UInt64) : (Part.address a).render.length = 18
  /-- from which the address is read back, -/
  addressRead (a : UInt64) : readAddress (Part.address a).render.toList = some a
  /-- so that no other address has the same. -/
  distinct {a b : UInt64} (h : a ≠ b) : (Part.address a).render ≠ (Part.address b).render
  /-- The origin is added in as many characters for any address, and one blank behind them. -/
  origin {d : Draft} (hw : d.message.worth = true) (a : UInt64) :
    (d.origin a).message.text = d.message.text ++ originText a ++ " " ∧ (originText a).length = 25
  /-- For an integer of any width it is the shortest of its literals, -/
  integer {i : Int} {t : String} : (Part.integer i).render = t ↔ Shortest Literal t.toList i
  /-- from which the integer is read back. -/
  integerRead (i : Int) : readInteger (Part.integer i).render.toList = some i

/-- **Numbers are rendered faithfully**: addresses at their full width, integers as short as can be. -/
theorem numbers_rendered : NumbersRendered where
  grows hw _ _ he := text_add_of_mem_ofPart hw he
  address := render_address_eq_iff
  width := length_render_address
  addressRead _ := (render_address_eq_iff.mp rfl).readAddress_eq
  distinct h heq := h (address_injective (String.ofList_injective heq))
  origin {d} hw a := by
    refine ⟨?_, length_originText a⟩
    have horigin := congrArg (·.message.text) (origin_of_worth hw a)
    rw [horigin, extend, render_origin, String.append_assoc]
  integer := render_integer_eq_iff
  integerRead _ := readInteger_eq_some_iff.mpr (render_integer_eq_iff.mp rfl).1

example : (Part.integer Int64.minValue.toInt).render = "-9223372036854775808" := by decide

example : (Part.address 0xbeef).render = "0x000000000000beef" := by decide

end Draft

end GatedLog
