import GatedLog.Proofs.Json.Documents
import GatedLog.Proofs.Settings.Records

/-!
# Configuration documents

Reading a text as a configuration comes to the same as taking it for one value of JSON first, and
then asking what the value says (`read_eq_ok_iff`).
-/

namespace GatedLog.Settings

open Json (Value Token)

/-- Fields that hold values of their own types, each in a place of its own. -/
theorem Slot.of_compatible {α β γ : Type} {name name' : String} {get : α → Option β}
    {get' : α → Option γ} {set : α → β → α} {set' : α → γ → α} {read : List Token → Reading β}
    {read' : List Token → Reading γ}
    {shrinks : ∀ {b ts rest}, read ts = .ok (b, rest) → rest.length < ts.length}
    {shrinks' : ∀ {b ts rest}, read' ts = .ok (b, rest) → rest.length < ts.length}
    {decode : Value → Option β} {decode' : Value → Option γ} {h : Reads read decode}
    {h' : Reads read' decode'} (hne : name ≠ name')
    (hcomm : ∀ a b c, set' (set a b) c = set (set' a c) b)
    (hget' : ∀ a b, get' (set a b) = get' a) (hget : ∀ a c, get (set' a c) = get a) :
    Compatible (Slot.of name get set read shrinks decode h)
      (Slot.of name' get' set' read' shrinks' decode' h') where
  name_ne := hne
  comm a v w := by
    show (((decode v).map (set a)).bind fun b => (decode' w).map (set' b)) =
      ((decode' w).map (set' a)).bind fun b => (decode v).map (set b)
    cases decode v with
    | none => cases decode' w <;> rfl
    | some b =>
      cases decode' w with
      | none => rfl
      | some c => exact congrArg some (hcomm a b c)
  given_left a v b hd := by
    obtain ⟨c, -, rfl⟩ := Option.map_eq_some_iff.mp hd
    exact congrArg Option.isSome (hget' a c)
  given_right a v b hd := by
    obtain ⟨c, -, rfl⟩ := Option.map_eq_some_iff.mp hd
    exact congrArg Option.isSome (hget a c)

theorem Slot.of_given {α β : Type} {name : String} {get : α → Option β} {set : α → β → α}
    {read : List Token → Reading β}
    {shrinks : ∀ {b ts rest}, read ts = .ok (b, rest) → rest.length < ts.length}
    {decode : Value → Option β} {h : Reads read decode} (hget : ∀ a b, get (set a b) = some b)
    (a : α) (v : Value) (b : α)
    (hd : (Slot.of name get set read shrinks decode h).decode a v = some b) :
    (Slot.of name get set read shrinks decode h).given b = true := by
  obtain ⟨c, -, rfl⟩ := Option.map_eq_some_iff.mp hd
  exact congrArg Option.isSome (hget a c)

/-- What a field that may not be given does with a draft. -/
theorem Slot.of_fill {α β : Type} {name : String} {get : α → Option β} {set : α → β → α}
    {read : List Token → Reading β}
    {shrinks : ∀ {b ts rest}, read ts = .ok (b, rest) → rest.length < ts.length}
    {decode : Value → Option β} {h : Reads read decode} (ss : List (Slot α)) (a : α)
    (o : Option Value) (os : List (Option Value)) :
    fillSlots (Slot.of name get set read shrinks decode h :: ss) a (o :: os) =
      (o.mapM decode).bind fun x => fillSlots ss (x.elim a (set a)) os := by
  cases o with
  | none => rfl
  | some v =>
    show ((decode v).map (set a)).bind _ = ((decode v).map some).bind _
    cases decode v <;> rfl

theorem orDefault_eq {β : Type} (default : β) (decode : Value → Option β) (o : Option Value) :
    orDefault default decode o = (o.mapM decode).map (·.getD default) := by
  cases o with
  | none => rfl
  | some v =>
    show decode v = ((decode v).map some).map _
    cases decode v <;> rfl

theorem length_slots {fields : List String} {v : Value} {os : List (Option Value)}
    (h : slots? fields v = some os) : os.length = fields.length := by
  unfold slots? at h
  split at h
  · split at h
    · obtain rfl := Option.some.inj h
      exact List.length_map _
    · cases h
  · split at h
    · next hl =>
      obtain rfl := Option.some.inj h
      rw [List.length_append, List.length_map, List.length_replicate]
      omega
    · cases h
  · cases h

/-! ### The console -/

/-- The fields of the console, with what they say. -/
def consoleSlots : List (Slot ConsoleDraft) :=
  [ .of "show_level" (·.showLevel) (fun d b => { d with showLevel := some b }) readBoolean
      length_readBoolean booleanOf? reads_boolean,
    .of "show_component" (·.showComponent) (fun d b => { d with showComponent := some b })
      readBoolean length_readBoolean booleanOf? reads_boolean,
    .of "show_timestamp" (·.showTimestamp) (fun d b => { d with showTimestamp := some b })
      readBoolean length_readBoolean booleanOf? reads_boolean,
    .of "show_thread" (·.showThread) (fun d b => { d with showThread := some b }) readBoolean
      length_readBoolean booleanOf? reads_boolean,
    .of "color" (·.color) (fun d b => { d with color := some b }) readBoolean length_readBoolean
      booleanOf? reads_boolean]

theorem independent_consoleSlots : Independent consoleSlots where
  compatible := by
    simp only [consoleSlots, List.pairwise_cons, List.forall_mem_cons, List.not_mem_nil,
      IsEmpty.forall_iff, implies_true, List.Pairwise.nil, and_true, and_assoc]
    and_intros <;>
      exact Slot.of_compatible (by decide) (fun _ _ _ => rfl) (fun _ _ => rfl) fun _ _ => rfl
  given := by
    simp only [consoleSlots, List.forall_mem_cons, List.not_mem_nil, IsEmpty.forall_iff,
      implies_true, and_true]
    and_intros <;> exact Slot.of_given fun _ _ => rfl

theorem consoleOf?_eq (v : Value) : consoleOf? v =
    ((slots? (consoleSlots.map (·.name)) v).bind (fillSlots consoleSlots {})).map
      ConsoleDraft.layout := by
  have hnames : consoleSlots.map (·.name) =
      ["show_level", "show_component", "show_timestamp", "show_thread", "color"] := rfl
  rw [consoleOf?, hnames]
  cases hs : slots? ["show_level", "show_component", "show_timestamp", "show_thread", "color"] v with
  | none => rfl
  | some os =>
    match os, length_slots hs with
    | [level, component, timestamp, thread, color], _ =>
      simp only [orDefault_eq, consoleSlots, Slot.of_fill, Option.bind_some]
      cases level.mapM booleanOf? with
      | none => rfl
      | some a =>
      cases component.mapM booleanOf? with
      | none => rfl
      | some b =>
      cases timestamp.mapM booleanOf? with
      | none => rfl
      | some c =>
      cases thread.mapM booleanOf? with
      | none => rfl
      | some d =>
      cases color.mapM booleanOf? with
      | none => rfl
      | some e =>
      cases a <;> cases b <;> cases c <;> cases d <;> cases e <;> rfl

theorem reads_console : Reads readConsole consoleOf? := by
  intro ts l rest
  have hr := reads_record .console {} independent_consoleSlots
    (by simp [consoleSlots, Slot.of, Field.slot]) ts
  constructor
  · intro h
    unfold readConsole at h
    split at h
    · next hd =>
      obtain ⟨rfl, rfl⟩ := ok_inj h
      obtain ⟨v, rfl, hv⟩ := (hr _ _).mp hd
      exact ⟨v, rfl, by rw [consoleOf?_eq]; exact congrArg (Option.map _) hv⟩
    · cases h
  · rintro ⟨v, rfl, hv⟩
    rw [consoleOf?_eq] at hv
    obtain ⟨d, hd, rfl⟩ := Option.map_eq_some_iff.mp hv
    have : readRecord .console consoleFields {} (v.tokens ++ rest) = .ok (d, rest) :=
      (hr d rest).mpr ⟨v, rfl, hd⟩
    rw [readConsole, this]

/-! ### The document -/

/-- The fields of a document, with what they say. -/
def documentSlots : List (Slot Draft) :=
  [ .of "level" (·.level) (fun d s => { d with level := some s }) (readName severityNames)
      length_readName (nameOf? severityNames) (reads_name severityNames),
    .of "components" (·.components) (fun d cs => { d with components := some cs }) readComponents
      length_readComponents componentsOf? reads_components,
    .of "console" (·.console) (fun d l => { d with console := some l }) readConsole
      length_readConsole consoleOf? reads_console]

theorem independent_documentSlots : Independent documentSlots where
  compatible := by
    simp only [documentSlots, List.pairwise_cons, List.forall_mem_cons, List.not_mem_nil,
      IsEmpty.forall_iff, implies_true, List.Pairwise.nil, and_true, and_assoc]
    and_intros <;>
      exact Slot.of_compatible (by decide) (fun _ _ _ => rfl) (fun _ _ => rfl) fun _ _ => rfl
  given := by
    simp only [documentSlots, List.forall_mem_cons, List.not_mem_nil, IsEmpty.forall_iff,
      implies_true, and_true]
    and_intros <;> exact Slot.of_given fun _ _ => rfl

theorem ofValue?_eq (v : Value) : ofValue? v =
    ((slots? (documentSlots.map (·.name)) v).bind (fillSlots documentSlots {})).map
      Draft.settings := by
  have hnames : documentSlots.map (·.name) = ["level", "components", "console"] := rfl
  rw [ofValue?, hnames]
  cases hs : slots? ["level", "components", "console"] v with
  | none => rfl
  | some os =>
    match os, length_slots hs with
    | [level, components, console], _ =>
      simp only [orDefault_eq, documentSlots, Slot.of_fill, Option.bind_some]
      cases level.mapM (nameOf? severityNames) with
      | none => rfl
      | some a =>
      cases components.mapM componentsOf? with
      | none => rfl
      | some b =>
      cases console.mapM consoleOf? with
      | none => rfl
      | some c =>
      cases a <;> cases b <;> cases c <;> rfl

theorem ofTokens_eq_ok_iff {ts : List Token} {s : Settings} :
    ofTokens ts = .ok s ↔ ∃ v : Value, ts = v.tokens ∧ ofValue? v = some s := by
  have hr := reads_record .settings {} independent_documentSlots
    (by simp [documentSlots, Slot.of, Field.slot]) ts
  constructor
  · intro h
    unfold ofTokens at h
    split at h
    · next hd =>
      obtain ⟨v, rfl, hv⟩ := (hr _ _).mp hd
      refine ⟨v, List.append_nil _, ?_⟩
      rw [ofValue?_eq, ← Except.ok.inj h]
      exact congrArg (Option.map _) hv
    · cases h
    · cases h
  · rintro ⟨v, rfl, hv⟩
    rw [ofValue?_eq] at hv
    obtain ⟨d, hd, rfl⟩ := Option.map_eq_some_iff.mp hv
    have : readRecord .settings documentFields {} v.tokens = .ok (d, []) :=
      (hr d []).mpr ⟨v, (List.append_nil _).symm, hd⟩
    rw [ofTokens, this]

/-- **Reading a configuration is the reading in two phases**: a text is read as the settings `s`
exactly if it is a document with one value and that value says `s`. -/
theorem read_eq_ok_iff (text : String) (s : Settings) :
    read text = .ok s ↔ ∃ v : Value, Json.Document v text.toList ∧ ofValue? v = some s := by
  rw [read, ofTokens_eq_ok_iff]
  exact exists_congr fun v => and_congr_left fun _ => Json.tokens_eq_iff

end GatedLog.Settings
