import Mathlib.Algebra.GroupWithZero.Nat
import Mathlib.Data.List.Forall2
import GatedLog.Message
import GatedLog.Proofs.Console
import GatedLog.Text.Utf8

/-!
# Lines of a buffer

A console ends what it prints for a message by a newline, and no heading contains one, but the text
of the message goes into the line as it is. So the octets that are printed for a message make up one
line exactly if there is no newline in its text, and one line more for each that there is
(`lines_iff`, `count_newline`).
-/

namespace GatedLog

namespace Text

/-- The octet that ends a line. -/
def newline : UInt8 := 10

namespace Utf8

theorem count_utf8EncodeChar (c : Char) :
    (String.utf8EncodeChar c).count newline = if c = '\n' then 1 else 0 := by
  by_cases hc : c = '\n'
  · subst hc
    rfl
  · rw [if_neg hc, List.count_eq_zero]
    intro hb
    obtain ⟨-, hn⟩ := toNat_of_mem_utf8EncodeChar hb (by decide)
    exact hc (Char.ext (UInt32.toNat_inj.mp hn.symm))

/-- There are as many newlines in a text as in its octets. -/
theorem count_encode (s : String) : (encode s).count newline = s.toList.count '\n' := by
  rw [encode]
  induction s.toList with
  | nil => rfl
  | cons c cs ih =>
    rw [List.flatMap_cons, List.count_append, ih, count_utf8EncodeChar, List.count_cons, Nat.add_comm]
    simp

theorem not_mem_encode {s : String} (h : '\n' ∉ s.toList) : newline ∉ encode s := by
  rw [← List.count_eq_zero, count_encode, List.count_eq_zero]
  exact h

end Utf8

/-- The octets consist of these lines: each is ended by a newline, and contains none. -/
structure Lines (octets : List UInt8) (ls : List (List UInt8)) : Prop where
  content : octets = ls.flatMap (· ++ [newline])
  whole : ∀ l ∈ ls, newline ∉ l

/-- There are as many lines as newlines. -/
theorem Lines.length_eq {octets : List UInt8} {ls : List (List UInt8)} (h : Lines octets ls) :
    ls.length = octets.count newline := by
  obtain ⟨rfl, hw⟩ := h
  induction ls with
  | nil => rfl
  | cons l ls ih =>
    have hl : l.count newline = 0 := List.count_eq_zero.mpr (hw l (List.mem_cons_self ..))
    rw [List.flatMap_cons, List.count_append, List.count_append, hl,
      ← ih fun l' h' => hw l' (List.mem_cons_of_mem _ h')]
    simp [newline, Nat.add_comm]

end Text

/-! ### What a console prints -/

namespace ConsoleLayout

theorem newline_not_mem_decimalNat (n : Nat) : '\n' ∉ Text.decimalNat n := by
  intro h
  have hd := Nat.isDigit_of_mem_toDigits (by decide) (by decide) h
  exact absurd hd (by decide)

/-- No heading contains a newline. -/
theorem newline_not_mem_headings (l : ConsoleLayout) (colors : Bool) {stamp : Stamp}
    (ht : '\n' ∉ stamp.time.toList) (s : Severity) (c : Component) :
    '\n' ∉ (l.headings colors stamp s c).toList := by
  have hlevel : '\n' ∉ (l.levelHeading colors s).toList := by
    unfold levelHeading
    split
    · split
      · cases s <;> decide
      · cases s <;> decide
    · decide
  have hcomponent : '\n' ∉ (l.componentHeading c).toList := by
    unfold componentHeading
    split
    · cases c <;> decide
    · decide
  have htime : '\n' ∉ (l.timeHeading stamp).toList := by
    unfold timeHeading
    split
    · simpa [String.toList_append] using ht
    · decide
  have hthread : '\n' ∉ (l.threadHeading stamp).toList := by
    unfold threadHeading
    split
    · simpa [String.toList_append] using newline_not_mem_decimalNat stamp.thread
    · decide
  simp only [headings, String.toList_append, List.mem_append, not_or]
  exact ⟨⟨⟨hlevel, hcomponent⟩, htime⟩, hthread⟩

end ConsoleLayout

namespace Message

/-- The line is what a console of some layout prints for the message, at a time that is written
without a newline. -/
def LineOf (m : Message) (line : String) : Prop :=
  ∃ (l : ConsoleLayout) (colors : Bool) (stamp : Stamp), '\n' ∉ stamp.time.toList ∧
    line = l.line colors stamp m.severity m.component m.text

/-- The octets in front of the newline at the end of such a line. -/
def BodyOf (m : Message) (octets : List UInt8) : Prop :=
  ∃ line, m.LineOf line ∧ Text.Utf8.encode line = octets ++ [Text.newline]

/-- How many lines the octets make up that are printed for the message. -/
def lineCount (m : Message) : Nat := m.text.toList.count '\n' + 1

theorem length_le_lineCounts (ms : List Message) : ms.length ≤ (ms.map lineCount).sum := by
  induction ms with
  | nil => exact Nat.le_refl _
  | cons m ms ih =>
    simp only [List.map_cons, List.sum_cons, List.length_cons, lineCount]
    omega

namespace LineOf

variable {m : Message} {line : String}

/-- Headings without a newline, the text as it is, and a newline. -/
theorem exists_headings (h : m.LineOf line) :
    ∃ front : String, '\n' ∉ front.toList ∧ line = front ++ m.text ++ "\n" := by
  obtain ⟨l, colors, stamp, ht, rfl⟩ := h
  have hfront := l.newline_not_mem_headings colors ht m.severity m.component
  refine ⟨l.headings colors stamp m.severity m.component ++ "    ", ?_, rfl⟩
  rw [String.toList_append, List.mem_append, not_or]
  exact ⟨hfront, by decide⟩

theorem count_newline (h : m.LineOf line) :
    (Text.Utf8.encode line).count Text.newline = m.lineCount := by
  obtain ⟨front, hfront, rfl⟩ := h.exists_headings
  rw [Text.Utf8.count_encode, String.toList_append, String.toList_append, List.count_append,
    List.count_append, List.count_eq_zero.mpr hfront, Nat.zero_add, lineCount]
  rfl

theorem exists_body (h : m.LineOf line) (hn : '\n' ∉ m.text.toList) :
    ∃ octets, Text.Utf8.encode line = octets ++ [Text.newline] ∧ Text.newline ∉ octets := by
  obtain ⟨front, hfront, hline⟩ := h.exists_headings
  refine ⟨Text.Utf8.encode (front ++ m.text), by rw [hline, Text.Utf8.encode_append]; rfl, ?_⟩
  refine Text.Utf8.not_mem_encode ?_
  rw [String.toList_append, List.mem_append, not_or]
  exact ⟨hfront, hn⟩

end LineOf

variable {lines : List String} {ms : List Message}

/-- Each message prints one newline, and those of its text. -/
theorem count_newline (h : List.Forall₂ LineOf ms lines) :
    (lines.flatMap Text.Utf8.encode).count Text.newline = (ms.map lineCount).sum := by
  induction h with
  | nil => rfl
  | cons hm _ ih => rw [List.flatMap_cons, List.count_append, ih, hm.count_newline]; rfl

/-- Messages without newlines make up one line each. -/
theorem exists_lines (h : List.Forall₂ LineOf ms lines) (hn : ∀ m ∈ ms, '\n' ∉ m.text.toList) :
    ∃ ls, Text.Lines (lines.flatMap Text.Utf8.encode) ls ∧ List.Forall₂ BodyOf ms ls := by
  induction h with
  | nil => exact ⟨[], ⟨rfl, by simp⟩, .nil⟩
  | cons hm _ ih =>
    obtain ⟨ls, hls, hbodies⟩ := ih fun m' hm' => hn m' (List.mem_cons_of_mem _ hm')
    obtain ⟨octets, hbody, hwhole⟩ := hm.exists_body (hn _ (List.mem_cons_self ..))
    refine ⟨octets :: ls, ⟨?_, List.forall_mem_cons.mpr ⟨hwhole, hls.whole⟩⟩,
      .cons ⟨_, hm, hbody⟩ hbodies⟩
    rw [List.flatMap_cons, List.flatMap_cons, hbody, hls.content]

/-- There is one line for each message exactly if no text contains a newline. -/
theorem lines_iff (h : List.Forall₂ LineOf ms lines) :
    (∃ ls, Text.Lines (lines.flatMap Text.Utf8.encode) ls ∧ ls.length = ms.length) ↔
      ∀ m ∈ ms, '\n' ∉ m.text.toList := by
  constructor
  · rintro ⟨ls, hls, hlen⟩
    rw [hls.length_eq, count_newline h] at hlen
    clear h hls
    induction ms with
    | nil => simp
    | cons m ms ih =>
      simp only [List.map_cons, List.sum_cons, List.length_cons, lineCount] at hlen
      have hle := length_le_lineCounts ms
      refine List.forall_mem_cons.mpr ⟨List.count_eq_zero.mp (by omega), ih (by omega)⟩
  · intro hn
    obtain ⟨ls, hls, hbodies⟩ := exists_lines h hn
    exact ⟨ls, hls, hbodies.length_eq.symm⟩

end Message

end GatedLog
