import GatedLog.Settings.Basic
import GatedLog.Settings.Record

/-!
# Reading configuration documents

A document is a record with the fields `level`, `components` and `console`, and the console a
record of five truth values. A name is a string, or an object of that single key with the value
`null`. `Settings.read` accepts a text of exactly one such value.
-/

namespace GatedLog.Settings

/-- The severities by the names that a document may use. -/
def severityNames : List (String × Severity) :=
  [("trace", .trace), ("debug", .debug), ("info", .info), ("warn", .warning), ("warning", .warning),
    ("error", .error)]

/-- The components by the names that a document may use. -/
def componentNames : List (String × Component) :=
  [("unknown", .unknown), ("rpc", .rpc), ("block_reader", .blockReader),
    ("blockreader", .blockReader), ("file_handle", .fileHandle), ("filehandle", .fileHandle),
    ("file_system", .fileSystem), ("filesystem", .fileSystem)]

/-- What a name stands for. -/
def lookUp {α : Type} (names : List (String × α)) (name : String) : Except Fault α :=
  match names.find? fun p => p.1 == name with
  | some p => .ok p.2
  | none => .error (.problem (.unknownName name (names.map (·.1))))

/-- The rest of the object that holds a name: the value `null` and the closing brace. -/
def closeName {α : Type} (a : α) : List Json.Token → Reading α
  | .colon :: .null :: .closeBrace :: ts => .ok (a, ts)
  | .colon :: .null :: _ => .error .malformed
  | .colon :: ts => .error (wrongType .unit ts)
  | _ => .error .malformed

/-- Reads a name: a string, or an object with the name as its only key. The object is read like any
other one: a key has to be a string, and whatever else stands in its place is malformed before a name
is asked for. -/
def readName {α : Type} (names : List (String × α)) : List Json.Token → Reading α
  | .text (some name) :: ts =>
    match lookUp names name with
    | .ok a => .ok (a, ts)
    | .error e => .error e
  | .openBrace :: .text (some name) :: ts =>
    match lookUp names name with
    | .ok a => closeName a ts
    | .error e => .error e
  | _ => .error .malformed

theorem length_closeName {α : Type} {a b : α} {ts rest : List Json.Token}
    (h : closeName a ts = .ok (b, rest)) : rest.length < ts.length := by
  unfold closeName at h
  split at h
  · simp only [Except.ok.injEq, Prod.mk.injEq] at h
    simp only [← h.2, List.length_cons]
    omega
  all_goals simp at h

theorem length_readName {α : Type} {names : List (String × α)} {a : α} {ts rest : List Json.Token}
    (h : readName names ts = .ok (a, rest)) : rest.length < ts.length := by
  unfold readName at h
  split at h
  · split at h
    · simp only [Except.ok.injEq, Prod.mk.injEq] at h
      simp [← h.2]
    · simp at h
  · split at h
    · have := length_closeName h
      simp only [List.length_cons]
      omega
    · simp at h
  all_goals simp at h

/-- Reads names up to the end of an array. -/
def readNames {α : Type} (names : List (String × α)) (first : Bool) (ts : List Json.Token) :
    Reading (List α) :=
  match hn : nextItem first ts with
  | .error e => .error e
  | .ok none => closeArray [] ts
  | .ok (some items) =>
    match hr : readName names items with
    | .error e => .error e
    | .ok (a, rest) =>
      have := length_nextItem hn
      have := length_readName hr
      match readNames names false rest with
      | .error e => .error e
      | .ok (as, rest) => .ok (a :: as, rest)
termination_by ts.length

theorem length_readNames {α : Type} {names : List (String × α)} {first : Bool} {as : List α}
    {ts rest : List Json.Token} (h : readNames names first ts = .ok (as, rest)) :
    rest.length < ts.length := by
  fun_induction readNames names first ts generalizing as rest with
  | case1 => simp at h
  | case2 => exact length_closeArray h
  | case3 => simp at h
  | case4 => simp at h
  | case5 first ts items hn a rest₁ hr _ _ as rest₂ hs ih =>
    simp only [Except.ok.injEq, Prod.mk.injEq] at h
    rw [← h.2]
    exact Nat.lt_of_lt_of_le (Nat.lt_trans (ih hs) (length_readName hr)) (length_nextItem hn)

/-- Reads an array of components, or its absence. -/
def readComponents : List Json.Token → Reading (Option (List Component))
  | .null :: ts => .ok (none, ts)
  | .openBracket :: ts =>
    match readNames componentNames true ts with
    | .ok (cs, rest) => .ok (some cs, rest)
    | .error e => .error e
  | ts => .error (wrongType .sequence ts)

/-- Reads a truth value. -/
def readBoolean : List Json.Token → Reading Bool
  | .boolean b :: ts => .ok (b, ts)
  | ts => .error (wrongType .boolean ts)

theorem length_readComponents {cs : Option (List Component)} {ts rest : List Json.Token}
    (h : readComponents ts = .ok (cs, rest)) : rest.length < ts.length := by
  unfold readComponents at h
  split at h
  · simp only [Except.ok.injEq, Prod.mk.injEq] at h
    simp [← h.2]
  · split at h
    · rename_i hn
      simp only [Except.ok.injEq, Prod.mk.injEq] at h
      rw [← h.2]
      exact Nat.lt_succ_of_lt (length_readNames hn)
    · simp at h
  · simp at h

theorem length_readBoolean {b : Bool} {ts rest : List Json.Token}
    (h : readBoolean ts = .ok (b, rest)) : rest.length < ts.length := by
  unfold readBoolean at h
  split at h
  · simp only [Except.ok.injEq, Prod.mk.injEq] at h
    simp [← h.2]
  · simp at h

/-- A field that holds a value of its own type. -/
def Field.slot {α β : Type} (name : String) (get : α → Option β) (set : α → β → α)
    (read : List Json.Token → Reading β)
    (shrinks : ∀ {b ts rest}, read ts = .ok (b, rest) → rest.length < ts.length) : Field α where
  name := name
  given a := (get a).isSome
  read a ts :=
    match read ts with
    | .ok (b, rest) => .ok (set a b, rest)
    | .error e => .error e
  shrinks := by
    intro a a' ts rest h
    split at h
    · rename_i hr
      simp only [Except.ok.injEq, Prod.mk.injEq] at h
      rw [← h.2]
      exact shrinks hr
    · simp at h

/-- The part of a console layout that has been read. -/
structure ConsoleDraft where
  showLevel : Option Bool := none
  showComponent : Option Bool := none
  showTimestamp : Option Bool := none
  showThread : Option Bool := none
  color : Option Bool := none
  deriving DecidableEq, Repr

/-- The layout with the default for every field that was not given. -/
def ConsoleDraft.layout (d : ConsoleDraft) : ConsoleLayout :=
  { showLevel := d.showLevel.getD true
    showComponent := d.showComponent.getD true
    showTimestamp := d.showTimestamp.getD true
    showThread := d.showThread.getD true
    color := d.color.getD false }

/-- The fields of the console. -/
def consoleFields : List (Field ConsoleDraft) :=
  [ .slot "show_level" (·.showLevel) (fun d b => { d with showLevel := some b }) readBoolean
      length_readBoolean,
    .slot "show_component" (·.showComponent) (fun d b => { d with showComponent := some b }) readBoolean
      length_readBoolean,
    .slot "show_timestamp" (·.showTimestamp) (fun d b => { d with showTimestamp := some b }) readBoolean
      length_readBoolean,
    .slot "show_thread" (·.showThread) (fun d b => { d with showThread := some b }) readBoolean
      length_readBoolean,
    .slot "color" (·.color) (fun d b => { d with color := some b }) readBoolean length_readBoolean]

/-- Reads the layout of the console. -/
def readConsole (ts : List Json.Token) : Reading ConsoleLayout :=
  match readRecord .console consoleFields {} ts with
  | .ok (d, rest) => .ok (d.layout, rest)
  | .error e => .error e

theorem length_readConsole {l : ConsoleLayout} {ts rest : List Json.Token}
    (h : readConsole ts = .ok (l, rest)) : rest.length < ts.length := by
  unfold readConsole at h
  split at h
  · rename_i hr
    simp only [Except.ok.injEq, Prod.mk.injEq] at h
    rw [← h.2]
    exact length_readRecord hr
  · simp at h

/-- The part of a document that has been read. -/
structure Draft where
  level : Option Severity := none
  components : Option (Option (List Component)) := none
  console : Option ConsoleLayout := none
  deriving DecidableEq, Repr

/-- The settings with the default for every field that was not given. -/
def Draft.settings (d : Draft) : Settings :=
  { level := d.level.getD .trace
    components := d.components.getD none
    console := d.console.getD {} }

/-- The fields of a document. -/
def documentFields : List (Field Draft) :=
  [ .slot "level" (·.level) (fun d s => { d with level := some s }) (readName severityNames)
      length_readName,
    .slot "components" (·.components) (fun d cs => { d with components := some cs }) readComponents
      length_readComponents,
    .slot "console" (·.console) (fun d l => { d with console := some l }) readConsole
      length_readConsole]

/-- Reads the settings that a sequence of tokens writes down. -/
def ofTokens (ts : List Json.Token) : Except Fault Settings :=
  match readRecord .settings documentFields {} ts with
  | .ok (d, []) => .ok d.settings
  | .ok (_, _ :: _) => .error .malformed
  | .error e => .error e

/-- Reads a configuration document. -/
def read (text : String) : Except Fault Settings := ofTokens (Json.tokens text.toList)

end GatedLog.Settings
