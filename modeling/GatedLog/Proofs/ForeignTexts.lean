import Mathlib.Data.List.TakeWhile
import GatedLog.Proofs.Drafts
import GatedLog.Proofs.Text.Lossy

/-!
# Foreign texts

A foreign text comes as octets up to the first zero, and they may encode no text. What they add to a
message is a text all the same (`Draft.foreign_text_decoded`): the very text that they encode if they
encode one, and otherwise what is left of it, with a replacement for every piece that is no character.
-/

namespace GatedLog.Draft

open Text

/-- The steps in which octets are added. -/
def Entry.ofOctets (bs : List UInt8) : List Entry :=
  [.foreign (some bs), .append (.part (.octets bs)), .push (.part (.octets bs))]

variable {bs : List UInt8}

/-- Octets without a zero are all there is of the foreign text. -/
theorem render_octets (hbs : 0 ∉ bs) : (Part.octets bs).render = Utf8.decode bs := by
  have hall : ∀ b ∈ bs, (b != 0) = true := by
    intro b hb
    rw [bne_iff_ne]
    rintro rfl
    exact hbs hb
  rw [Part.render, List.takeWhile_eq_self_iff.mpr hall]

theorem text_of_mem_ofOctets (hbs : 0 ∉ bs) {e : Entry} (he : e ∈ Entry.ofOctets bs) :
    e.text = Utf8.decode bs := by
  simp only [Entry.ofOctets, List.mem_cons, List.not_mem_nil, or_false] at he
  rcases he with rfl | rfl | rfl <;> exact render_octets hbs

theorem text_add_of_mem_ofOctets {d : Draft} (hw : d.message.worth = true) (hbs : 0 ∉ bs) {e : Entry}
    (he : e ∈ Entry.ofOctets bs) : (d.add e).message.text = d.message.text ++ Utf8.decode bs := by
  rw [add_of_worth hw, ← text_of_mem_ofOctets hbs he]
  rfl

/-- What becomes of a foreign text. -/
structure ForeignTexts : Prop where
  /-- The text of a message that is worth reporting grows by what the octets decode to. -/
  grows {d : Draft} (hw : d.message.worth = true) {bs : List UInt8} (hbs : 0 ∉ bs) :
    ∀ e ∈ Entry.ofOctets bs, (d.add e).message.text = d.message.text ++ Utf8.decode bs
  /-- Octets that encode a text add this text, and the octets of the message grow by these. -/
  valid {d : Draft} (hw : d.message.worth = true) {s : String} (hs : 0 ∉ Utf8.encode s) :
    ∀ e ∈ Entry.ofOctets (Utf8.encode s), (d.add e).message.text = d.message.text ++ s ∧
      Utf8.encode (d.add e).message.text = Utf8.encode d.message.text ++ Utf8.encode s
  /-- Of other octets the characters are kept and the pieces replaced, each by one character. -/
  decoded (bs : List UInt8) (s : String) : Utf8.decode bs = s ↔ Utf8.Decodes bs s.toList
  /-- The octets of a message are always well formed. -/
  wellFormed (d : Draft) (es : List Entry) :
    Utf8.decode? (Utf8.encode (d.addAll es).message.text) = some (d.addAll es).message.text
  /-- Decoding the result again changes nothing. -/
  again (bs : List UInt8) : Utf8.decode (Utf8.encode (Utf8.decode bs)) = Utf8.decode bs
  /-- Octets behind a text are decoded by themselves. -/
  behind (s : String) (bs : List UInt8) : Utf8.decode (Utf8.encode s ++ bs) = s ++ Utf8.decode bs

/-- **Foreign texts are decoded piece by piece.** -/
theorem foreign_text_decoded : ForeignTexts where
  grows hw _ hbs _ he := text_add_of_mem_ofOctets hw hbs he
  valid {d} hw s hs e he := by
    have htext : (d.add e).message.text = d.message.text ++ s := by
      rw [text_add_of_mem_ofOctets hw hs he, Utf8.decode_encode]
    exact ⟨htext, by rw [htext, Utf8.encode_append]⟩
  decoded _ _ := Utf8.decode_eq_iff
  wellFormed _ _ := Utf8.decode?_eq_some_iff.mpr rfl
  again bs := Utf8.decode_encode _
  behind s bs := Utf8.decode_encode_append s bs

end GatedLog.Draft
