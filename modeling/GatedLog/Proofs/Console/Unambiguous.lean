import Mathlib.Data.List.Basic
import GatedLog.Proofs.Machine.Printing
import GatedLog.Proofs.Text.Prefixes
import GatedLog.Proofs.Text.Utf8

/-!
# What can be read off a line

A console neither escapes the text of a message nor marks where it begins, and a text may look like a
heading. Still a line shows what it was made of: no label, coloured or not, is the beginning of
another one, so that the headings can be taken off its front one by one (`PrefixFree.append_inj`).
Under one layout, at one time and on one thread, two messages that are printed alike have the same
text, and the same severity and component as far as the layout shows them (`unambiguous`). The codes
around a coloured label can be taken out again (`uncolored_line`).
-/

namespace GatedLog

/-! ### Labels -/

theorem Severity.prefixFree_label : PrefixFree fun s : Severity => s.label.toList := by
  intro a b
  cases a <;> cases b <;> decide

/-- The codes of the colours have different lengths, but differ before the shorter ones end. -/
theorem Severity.prefixFree_coloredLabel :
    PrefixFree fun s : Severity => s.coloredLabel.toList := by
  intro a b
  cases a <;> cases b <;> decide

theorem Component.prefixFree_label : PrefixFree fun k : Component => k.label.toList := by
  intro a b
  cases a <;> cases b <;> decide

/-! ### Codes around labels -/

/-- Takes the code for a colour off the front of a text. -/
def dropColorCode : List Char → List Char
  | '\x1b' :: '[' :: cs => (cs.dropWhile (· != 'm')).tail
  | cs => cs

/-- Takes the codes for colours away from the front of a line and from behind the eight characters of
a label that come next. -/
def uncolored (line : String) : String :=
  String.ofList ((dropColorCode line.toList).take 8 ++
    dropColorCode ((dropColorCode line.toList).drop 8))

theorem Severity.length_label (s : Severity) : s.label.toList.length = 8 := by
  cases s <;> decide

theorem Severity.dropColorCode_colorCode (s : Severity) (cs : List Char) :
    dropColorCode (s.colorCode.toList ++ cs) = cs := by
  cases s <;> rfl

theorem Severity.dropColorCode_colorReset (cs : List Char) :
    dropColorCode (Severity.colorReset.toList ++ cs) = cs := rfl

theorem uncolored_coloredLabel (s : Severity) (rest : String) :
    uncolored (s.coloredLabel ++ rest) = s.label ++ rest := by
  rw [← String.toList_inj, uncolored, String.toList_ofList, Severity.coloredLabel]
  simp only [String.toList_append, List.append_assoc]
  rw [Severity.dropColorCode_colorCode, List.take_left' s.length_label, List.drop_left' s.length_label,
    Severity.dropColorCode_colorReset]

namespace ConsoleLayout

variable {l : ConsoleLayout} {colors : Bool} {stamp : Stamp} {s s' : Severity} {k k' : Component}
  {text text' x y : String}

/-! ### Headings -/

/-- The level can be taken off the front of a line as far as it is shown. -/
theorem levelHeading_append_inj (h : l.levelHeading colors s ++ x = l.levelHeading colors s' ++ y) :
    (l.showLevel = true → s = s') ∧ x = y := by
  simp only [← String.toList_inj, String.toList_append] at h ⊢
  cases hl : l.showLevel with
  | false =>
    simp only [levelHeading, hl, Bool.false_eq_true, if_false] at h
    exact ⟨fun hshow => absurd hshow Bool.false_ne_true, List.append_cancel_left h⟩
  | true =>
    cases hc : l.color && colors with
    | false =>
      simp only [levelHeading, hl, hc, Bool.false_eq_true, if_true, if_false] at h
      exact (Severity.prefixFree_label.append_inj h).imp_left fun hs _ => hs
    | true =>
      simp only [levelHeading, hl, hc, if_true] at h
      exact (Severity.prefixFree_coloredLabel.append_inj h).imp_left fun hs _ => hs

/-- So can the component. -/
theorem componentHeading_append_inj (h : l.componentHeading k ++ x = l.componentHeading k' ++ y) :
    (l.showComponent = true → k = k') ∧ x = y := by
  simp only [← String.toList_inj, String.toList_append] at h ⊢
  cases hl : l.showComponent with
  | false =>
    simp only [componentHeading, hl, Bool.false_eq_true, if_false] at h
    exact ⟨fun hshow => absurd hshow Bool.false_ne_true, List.append_cancel_left h⟩
  | true =>
    simp only [componentHeading, hl, if_true] at h
    exact (Component.prefixFree_label.append_inj h).imp_left fun hk _ => hk

/-! ### Lines -/

/-- Two statements have the same text, and the same headings as far as they are shown. -/
structure ShowsAlike (l : ConsoleLayout) (s s' : Severity) (k k' : Component) (text text' : String) :
    Prop where
  text : text = text'
  level : l.showLevel = true → s = s'
  component : l.showComponent = true → k = k'

/-- A line says which statement it was printed for, as far as the layout shows it. -/
theorem line_eq_line_iff : l.line colors stamp s k text = l.line colors stamp s' k' text' ↔
    l.ShowsAlike s s' k k' text text' := by
  constructor
  · intro h
    simp only [line, headings, String.append_assoc] at h
    obtain ⟨hlevel, h⟩ := levelHeading_append_inj h
    obtain ⟨hcomponent, h⟩ := componentHeading_append_inj h
    -- from here on the lines agree up to their texts
    simp only [← String.toList_inj, String.toList_append, List.append_cancel_left_eq,
      List.append_cancel_right_eq] at h
    exact ⟨String.toList_inj.mp h, hlevel, hcomponent⟩
  · rintro ⟨rfl, hlevel, hcomponent⟩
    have hl : l.levelHeading colors s = l.levelHeading colors s' := by
      unfold levelHeading
      split
      · next hshow => rw [hlevel hshow]
      · rfl
    have hk : l.componentHeading k = l.componentHeading k' := by
      unfold componentHeading
      split
      · next hshow => rw [hcomponent hshow]
      · rfl
    rw [line, line, headings, headings, hl, hk]

/-- The codes around the label of the level can be taken out of a line again. -/
theorem uncolored_line (hl : l.showLevel = true) (hc : l.color = true) (stamp : Stamp) (s : Severity)
    (k : Component) (text : String) :
    uncolored (l.line true stamp s k text) = l.line false stamp s k text := by
  obtain ⟨rest, hfalse, htrue⟩ := l.laidOut.colored stamp s k text hl hc
  rw [hfalse, htrue]
  exact uncolored_coloredLabel s rest

/-! ### What is written -/

/-- What a console puts into a buffer whose writer is healthy. -/
theorem kept_receive_console {w : World} {id : String} (hw : (w.writer id).healthy = true)
    {m : Message} (hm : m.worth = true) :
    ((w.receive m (.console l (some id))).world.writer id).kept = (w.writer id).kept ++
      Text.Utf8.encode (l.line w.colors w.stamp m.severity m.component m.text) := by
  rw [World.kept_receive hw, if_pos hm, BackendKind.linesInto, if_pos (beq_self_eq_true id),
    List.flatMap_singleton]

/-- What a console prints on the terminal. -/
theorem happenings_receive_console {w : World} {m : Message} (hm : m.worth = true) :
    (w.receive m (.console l none)).happenings =
      [.printed (l.line w.colors w.stamp m.severity m.component m.text)] := by
  rw [World.receive, if_pos hm]
  · rfl
  · intro tag onWrite onFlush onDestroy onName h
    cases h

theorem encode_line_eq_iff : Text.Utf8.encode (l.line colors stamp s k text) =
    Text.Utf8.encode (l.line colors stamp s' k' text') ↔ l.ShowsAlike s s' k k' text text' := by
  rw [Text.Utf8.encode_inj, line_eq_line_iff]

/-- What a console of some layout writes, and what can be read off it. -/
structure Unambiguous (l : ConsoleLayout) : Prop where
  /-- A line consists of the headings that are shown, in the order level, component, time and thread,
  and of four spaces, the text and a newline. -/
  line : ∀ colors stamp s k text, l.line colors stamp s k text =
    String.join ((Heading.all.filter l.shows).map (l.painted colors stamp s k)) ++ "    " ++
      text ++ "\n"
  /-- Its octets are what a buffer gets for a message, -/
  buffered : ∀ (w : World) (id : String) (m : Message), (w.writer id).healthy = true →
    m.worth = true →
    ((w.receive m (.console l (some id))).world.writer id).kept = (w.writer id).kept ++
      Text.Utf8.encode (l.line w.colors w.stamp m.severity m.component m.text)
  /-- and the line is what appears on the terminal. -/
  printed : ∀ (w : World) (m : Message), m.worth = true →
    (w.receive m (.console l none)).happenings =
      [.printed (l.line w.colors w.stamp m.severity m.component m.text)]
  /-- At one time and on one thread, lines of the same octets show the same of their statements. -/
  octets : ∀ colors stamp s s' k k' text text',
    Text.Utf8.encode (l.line colors stamp s k text) =
        Text.Utf8.encode (l.line colors stamp s' k' text') ↔
      l.ShowsAlike s s' k k' text text'
  /-- So do messages that leave the same octets in a buffer. -/
  alike : ∀ (w : World) (id : String) (m m' : Message), (w.writer id).healthy = true →
    m.worth = true → m'.worth = true →
    (((w.receive m (.console l (some id))).world.writer id).kept =
        ((w.receive m' (.console l (some id))).world.writer id).kept ↔
      l.ShowsAlike m.severity m'.severity m.component m'.component m.text m'.text)
  /-- Without the codes around the label of the level, a coloured line is the one without colour, -/
  uncolored : ∀ stamp s k text, l.showLevel = true → l.color = true →
    uncolored (l.line true stamp s k text) = l.line false stamp s k text
  /-- and all other lines are without colour. -/
  plain : ∀ colors stamp s k text, ¬ (l.showLevel = true ∧ l.color = true ∧ colors = true) →
    l.line colors stamp s k text = l.line false stamp s k text

/-- **Lines are unambiguous**, whatever is in the texts. -/
theorem unambiguous (l : ConsoleLayout) : l.Unambiguous where
  line colors stamp s k text := by rw [ConsoleLayout.line, headings_eq_painted]
  buffered _ _ _ hw hm := kept_receive_console hw hm
  printed _ _ hm := happenings_receive_console hm
  octets _ _ _ _ _ _ _ _ := encode_line_eq_iff
  alike w id m m' hw hm hm' := by
    rw [kept_receive_console hw hm, kept_receive_console hw hm', List.append_cancel_left_eq]
    exact encode_line_eq_iff
  uncolored stamp s k text hl hc := uncolored_line hl hc stamp s k text
  plain := l.laidOut.plain

end ConsoleLayout

end GatedLog
