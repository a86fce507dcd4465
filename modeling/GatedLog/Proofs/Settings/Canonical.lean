import Mathlib.Data.List.Forall2
import Mathlib.Data.List.Nodup
import GatedLog.Proofs.Settings.Documents

/-!
# Canonical documents

`Settings.write` spells one value, `Settings.value`, without a blank. The value says the settings, so
reading what was written gives them back, and the canonical document of a text depends on what the
text says and on nothing else (`canonical_round_trip`).
-/

namespace GatedLog

namespace Json

/-! ### Spellings without blanks -/

/-- A text with no blank in it. -/
def Compact (cs : List Char) : Prop := ∀ c ∈ cs, isBlank c = false

instance (cs : List Char) : Decidable (Compact cs) :=
  List.decidableBAll (fun c => isBlank c = false) cs

theorem Compact.append {cs ds : List Char} (hc : Compact cs) (hd : Compact ds) :
    Compact (cs ++ ds) := by
  intro c h
  rcases List.mem_append.mp h with h | h
  · exact hc c h
  · exact hd c h

theorem Compact.cons {c : Char} {cs : List Char} (hc : isBlank c = false) (hs : Compact cs) :
    Compact (c :: cs) := by
  intro d h
  rcases List.mem_cons.mp h with rfl | h
  · exact hc
  · exact hs d h

theorem Compact.intercalate {α : Type} {P : α → List Char → Prop} {as : List α}
    {css : List (List Char)} (h : List.Forall₂ P as css) (hP : ∀ {a cs}, P a cs → Compact cs) :
    Compact ([','].intercalate css) := by
  induction h with
  | nil => exact fun c hc => absurd hc List.not_mem_nil
  | cons ha hs ih =>
    cases hs with
    | nil => simpa [List.intercalate] using hP ha
    | cons hb hs =>
      rw [List.intercalate_cons_cons]
      exact ((hP ha).append (by decide)).append ih

/-- Parts with nothing but commas between them. -/
theorem listed_intercalate {α : Type} {Part : α → List Char → Prop} {as : List α}
    {css : List (List Char)} (h : List.Forall₂ Part as css) :
    Listed Part as ([','].intercalate css) := by
  induction h with
  | nil => exact .none blanks_nil
  | cons ha hs ih =>
    cases hs with
    | nil => simpa [List.intercalate] using Listed.one blanks_nil ha blanks_nil
    | cons hb hs =>
      rw [List.intercalate_cons_cons]
      simpa using Listed.more blanks_nil ha blanks_nil ih

/-- Characters that a string may hold as they are. -/
def Verbatim (cs : List Char) : Prop := ∀ c ∈ cs, c ≠ '"' ∧ c ≠ '\\' ∧ 0x20 ≤ c.toNat

instance (cs : List Char) : Decidable (Verbatim cs) :=
  List.decidableBAll (fun c => c ≠ '"' ∧ c ≠ '\\' ∧ 0x20 ≤ c.toNat) cs

theorem pieces_of_verbatim {cs : List Char} (h : Verbatim cs) :
    Pieces (cs.map .char) cs ∧ Stands (cs.map .char) cs := by
  induction cs with
  | nil => exact ⟨.nil, .nil⟩
  | cons c cs ih =>
    obtain ⟨hq, hb, hc⟩ := h c (List.mem_cons_self ..)
    obtain ⟨hp, hs⟩ := ih fun d hd => h d (List.mem_cons_of_mem _ hd)
    exact ⟨.cons (.char c hq hb hc) hp, .char c hs⟩

theorem quoted_of_verbatim {w : String} (h : Verbatim w.toList) :
    Quoted (some w) ('"' :: (w.toList ++ ['"'])) := by
  obtain ⟨hp, hs⟩ := pieces_of_verbatim h
  have hc : Content _ (some (String.ofList w.toList)) := .present hs
  rw [String.ofList_toList] at hc
  exact .mk _ _ _ hp hc

end Json

namespace Settings

open Json

/-! ### The canonical value -/

/-- The components as a value. -/
def componentsValue : Option (List Component) → Value
  | none => .null
  | some cs => .array (cs.map fun c => .text (some (componentWord c)))

/-- The layout of the console as a value. -/
def consoleValue (l : ConsoleLayout) : Value :=
  .object [
    (some "show_level", .boolean l.showLevel),
    (some "show_component", .boolean l.showComponent),
    (some "show_timestamp", .boolean l.showTimestamp),
    (some "show_thread", .boolean l.showThread),
    (some "color", .boolean l.color)]

/-- The settings as a value: every field, in the order of declaration. -/
def value (s : Settings) : Value :=
  .object [
    (some "level", .text (some (severityWord s.level))),
    (some "components", componentsValue s.components),
    (some "console", consoleValue s.console)]

/-! ### What the value says -/

theorem nameOf?_severityWord (s : Severity) :
    nameOf? severityNames (.text (some (severityWord s))) = some s := by
  cases s <;> decide

theorem nameOf?_componentWord (c : Component) :
    nameOf? componentNames (.text (some (componentWord c))) = some c := by
  cases c <;> decide

theorem componentsOf?_value (cs : Option (List Component)) :
    componentsOf? (componentsValue cs) = some cs := by
  cases cs with
  | none => rfl
  | some cs =>
    have h : (cs.map fun c => Value.text (some (componentWord c))).mapM (nameOf? componentNames) =
        some cs := by
      induction cs with
      | nil => rfl
      | cons c cs ih => simp [List.mapM_cons, nameOf?_componentWord, ih]
    rw [componentsValue, componentsOf?, h]
    rfl

/-- An object that gives every field once, in the order of declaration. -/
theorem slots?_object {fields : List String} (vs : List Value) (hn : fields.Nodup)
    (hl : fields.length = vs.length) :
    slots? fields (.object ((fields.map some).zip vs)) = some (vs.map some) := by
  have hfst : ((fields.map some).zip vs).map Prod.fst = fields.map some :=
    List.map_fst_zip (by simp [hl])
  have hu : Unambiguous fields ((fields.map some).zip vs) := by
    constructor
    · intro m hm
      obtain ⟨f, -, hf⟩ := List.mem_map.mp (List.of_mem_zip hm).1
      rw [← hf]
      exact Option.some_ne_none f
    · intro f _
      have hcount : ((fields.map some).zip vs).countP (fun m => m.1 == some f) =
          (fields.map some).count (some f) := by
        rw [List.count, ← hfst, List.countP_map, hfst]
        rfl
      rw [hcount]
      exact List.nodup_iff_count_le_one.mp (hn.map fun _ _ => Option.some.inj) _
  rw [slots?, if_pos hu]
  clear hfst hu
  induction fields generalizing vs with
  | nil =>
    obtain rfl : vs = [] := List.eq_nil_of_length_eq_zero hl.symm
    rfl
  | cons f fs ih =>
    obtain ⟨v, vs, rfl⟩ := List.exists_cons_of_length_eq_add_one hl.symm
    obtain ⟨hf, hfs⟩ := List.nodup_cons.mp hn
    have hrest := Option.some.inj (ih vs hfs (Nat.succ.inj hl))
    rw [List.map_cons, List.map_cons, List.zip_cons_cons, List.lookup_cons_self, List.map_cons,
      ← hrest]
    refine congrArg some (congrArg _ (List.map_congr_left fun g hg => ?_))
    have hb : (some g == some f) = false := by
      simpa using fun h : g = f => hf (h ▸ hg)
    rw [List.lookup_cons, hb]

theorem consoleOf?_value (l : ConsoleLayout) : consoleOf? (consoleValue l) = some l := by
  have hs : slots? ["show_level", "show_component", "show_timestamp", "show_thread", "color"]
      (consoleValue l) = some [some (.boolean l.showLevel), some (.boolean l.showComponent),
        some (.boolean l.showTimestamp), some (.boolean l.showThread), some (.boolean l.color)] :=
    slots?_object [_, _, _, _, _] (by decide) rfl
  rw [consoleOf?, hs]
  rfl

theorem ofValue?_value (s : Settings) : ofValue? s.value = some s := by
  have hs : slots? ["level", "components", "console"] s.value =
      some [some (.text (some (severityWord s.level))), some (componentsValue s.components),
        some (consoleValue s.console)] :=
    slots?_object [_, _, _] (by decide) rfl
  rw [ofValue?, hs]
  simp only [orDefault, nameOf?_severityWord, componentsOf?_value, consoleOf?_value]
  rfl

/-! ### How the value is spelled -/

/-- The text spells the value without a blank. -/
structure Written (v : Value) (text : String) : Prop where
  spelled : v.Spelled text.toList
  compact : Compact text.toList

/-- The text spells the member of an object without a blank. -/
inductive WrittenMember : Option String × Value → String → Prop
  | mk {name : String} {v : Value} {text : String} (hv : Verbatim name.toList)
    (hc : Compact name.toList) (h : Written v text) :
    WrittenMember (some name, v) (member name text)

theorem toList_quoteWord (w : String) : (quoteWord w).toList = '"' :: (w.toList ++ ['"']) := by
  simp [quoteWord]

theorem compact_quoteWord {w : String} (h : Compact w.toList) : Compact (quoteWord w).toList := by
  rw [toList_quoteWord]
  exact .cons (by decide) (h.append (by decide))

theorem written_word {w : String} (hv : Verbatim w.toList) (hc : Compact w.toList) :
    Written (.text (some w)) (quoteWord w) where
  spelled := by
    rw [toList_quoteWord]
    exact .text _ _ (quoted_of_verbatim hv)
  compact := compact_quoteWord hc

theorem written_boolean (b : Bool) : Written (.boolean b) (writeBool b) := by
  cases b with
  | false => exact ⟨.false, by decide⟩
  | true => exact ⟨.true, by decide⟩

theorem written_array {items : List Value} {texts : List String}
    (h : List.Forall₂ Written items texts) :
    Written (.array items) ("[" ++ String.intercalate "," texts ++ "]") := by
  have htext : ("[" ++ String.intercalate "," texts ++ "]").toList =
      '[' :: ([','].intercalate (texts.map String.toList) ++ [']']) := by
    simp
  have hparts : List.Forall₂ (fun v cs => v.Spelled cs ∧ Compact cs) items
      (texts.map String.toList) :=
    List.forall₂_map_right_iff.mpr (h.imp fun v text hw => ⟨hw.spelled, hw.compact⟩)
  constructor
  · rw [htext]
    exact .array _ _ (listed_intercalate (hparts.imp fun _ _ h => h.1))
  · rw [htext]
    exact .cons (by decide) ((Compact.intercalate hparts And.right).append (by decide))

theorem toList_member (name text : String) :
    (member name text).toList =
      ('"' :: (name.toList ++ ['"'])) ++ ([] ++ ':' :: ([] ++ text.toList)) := by
  simp [member, toList_quoteWord]

theorem written_object {members : List (Option String × Value)} {texts : List String}
    (h : List.Forall₂ WrittenMember members texts) : Written (.object members) (object texts) := by
  have htext : (object texts).toList =
      '\x7b' :: ([','].intercalate (texts.map String.toList) ++ ['\x7d']) := by
    simp [object]
  have hparts : List.Forall₂ (fun m cs => Member Value.Spelled m cs ∧ Compact cs) members
      (texts.map String.toList) := by
    refine List.forall₂_map_right_iff.mpr (h.imp ?_)
    rintro _ _ ⟨hv, hc, hw⟩
    rw [toList_member]
    refine ⟨.mk (quoted_of_verbatim hv) blanks_nil blanks_nil hw.spelled, ?_⟩
    exact (Compact.cons (by decide) (hc.append (by decide))).append (.cons (by decide) hw.compact)
  constructor
  · rw [htext]
    exact .object _ _ (listed_intercalate (hparts.imp fun _ _ h => h.1))
  · rw [htext]
    exact .cons (by decide) ((Compact.intercalate hparts And.right).append (by decide))

theorem written_components (cs : Option (List Component)) :
    Written (componentsValue cs) (writeComponents cs) := by
  cases cs with
  | none => exact ⟨.null, by decide⟩
  | some cs =>
    refine written_array ?_
    rw [List.forall₂_map_left_iff, List.forall₂_map_right_iff]
    refine List.forall₂_same.mpr fun c _ => ?_
    cases c <;> exact written_word (by decide) (by decide)

theorem written_console (l : ConsoleLayout) : Written (consoleValue l) (writeConsole l) := by
  have hb := fun name hv hc b => @WrittenMember.mk name _ _ hv hc (written_boolean b)
  refine written_object (.cons ?_ (.cons ?_ (.cons ?_ (.cons ?_ (.cons ?_ .nil)))))
  all_goals exact hb _ (by decide) (by decide) _

/-- The canonical document spells the canonical value. -/
theorem written_value (s : Settings) : Written s.value s.write := by
  refine written_object (.cons ?_ (.cons ?_ (.cons ?_ .nil)))
  · refine .mk (by decide) (by decide) ?_
    cases s.level <;> exact written_word (by decide) (by decide)
  · exact .mk (by decide) (by decide) (written_components s.components)
  · exact .mk (by decide) (by decide) (written_console s.console)

/-! ### There and back -/

theorem document_write (s : Settings) : Document s.value s.write.toList :=
  ⟨[], _, [], blanks_nil, (written_value s).spelled, blanks_nil, by simp⟩

theorem read_write (s : Settings) : read s.write = .ok s :=
  ofTokens_eq_ok_iff.mpr ⟨s.value, tokens_eq_iff.mpr (document_write s), ofValue?_value s⟩

theorem write_injective {s s' : Settings} (h : s.write = s'.write) : s = s' := by
  have hread := read_write s
  rw [h, read_write s'] at hread
  exact (Except.ok.inj hread).symm

/-- The canonical document of what a text says. -/
def canonical (text : String) : Except Fault String := (read text).map write

theorem canonical_eq_ok_iff {text u : String} :
    canonical text = .ok u ↔ ∃ s, read text = .ok s ∧ s.write = u := by
  unfold canonical
  cases read text with
  | ok s => simp [Except.map]
  | error e => simp [Except.map]

/-- **Settings survive the way through a document**: what is written, in one piece without blanks, is
read as the same settings. So the canonical document of a text is its own canonical document, and
two texts have the same one exactly if they are read as the same settings. -/
theorem canonical_round_trip (s : Settings) (text text' : String) :
    (read s.write = .ok s ∧ Document s.value s.write.toList ∧ Compact s.write.toList) ∧
    (canonical text).bind canonical = canonical text ∧
    ((∃ u, canonical text = .ok u ∧ canonical text' = .ok u) ↔
      ∃ s, read text = .ok s ∧ read text' = .ok s) := by
  refine ⟨⟨read_write s, document_write s, (written_value s).compact⟩, ?_, ?_⟩
  · cases h : canonical text with
    | error e => rfl
    | ok u =>
      obtain ⟨s, -, rfl⟩ := canonical_eq_ok_iff.mp h
      exact canonical_eq_ok_iff.mpr ⟨s, read_write s, rfl⟩
  · constructor
    · rintro ⟨u, h, h'⟩
      obtain ⟨s, hs, rfl⟩ := canonical_eq_ok_iff.mp h
      obtain ⟨s', hs', heq⟩ := canonical_eq_ok_iff.mp h'
      obtain rfl := write_injective heq
      exact ⟨s', hs, hs'⟩
    · rintro ⟨s, h, h'⟩
      exact ⟨s.write, canonical_eq_ok_iff.mpr ⟨s, h, rfl⟩, canonical_eq_ok_iff.mpr ⟨s, h', rfl⟩⟩

end Settings

end GatedLog
