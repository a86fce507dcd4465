import Mathlib.Data.List.TakeWhile
import GatedLog.Proofs.Machine.Moves
import GatedLog.Transcript

/-!
# What the backends of the library put out

The backends of the library have five outlets: handles, buffers, events, calls back and the
terminal. `World.output` is what can be read from them, and `BackendKind.output` says what a backend
puts there for a list of messages; what it does with a message is just that (`output_receive`).
-/

namespace GatedLog

/-- What can be read from the outlets. -/
@[ext]
structure Output where
  captured : HandleId → List Captured := fun _ => []
  octets : String → List UInt8 := fun _ => []
  events : List Event := []
  calls : List (Hook × ForeignRecord) := []
  lines : List String := []

namespace Output

instance : Append Output where
  append a b :=
    { captured := fun h => a.captured h ++ b.captured h
      octets := fun id => a.octets id ++ b.octets id
      events := a.events ++ b.events
      calls := a.calls ++ b.calls
      lines := a.lines ++ b.lines }

theorem append_def (a b : Output) : a ++ b =
    { captured := fun h => a.captured h ++ b.captured h
      octets := fun id => a.octets id ++ b.octets id
      events := a.events ++ b.events
      calls := a.calls ++ b.calls
      lines := a.lines ++ b.lines } := rfl

@[simp] theorem append_empty (a : Output) : a ++ ({} : Output) = a := by
  simp [append_def]

@[simp] theorem empty_append (a : Output) : ({} : Output) ++ a = a := rfl

/-- Lines of a console, in a buffer or on the terminal. -/
def printed : Option String → List String → Output
  | none, lines => { lines := lines }
  | some id, lines => { octets := fun j => if j = id then lines.flatMap Text.Utf8.encode else [] }

@[simp] theorem printed_nil (buffer : Option String) : printed buffer [] = {} := by
  cases buffer <;> simp [printed]

theorem printed_append (buffer : Option String) (ks ls : List String) :
    printed buffer (ks ++ ls) = printed buffer ks ++ printed buffer ls := by
  cases buffer with
  | none => simp [printed, append_def]
  | some id =>
    simp only [printed, append_def, List.flatMap_append, List.append_nil, mk.injEq, and_true,
      true_and]
    funext j
    split <;> rfl

end Output

namespace Happening

/-- The event that is emitted. -/
def event? : Happening → Option Event
  | emitted e => some e
  | _ => none

/-- The callback that is called, and its record. -/
def call? : Happening → Option (Hook × ForeignRecord)
  | called hook r => some (hook, r)
  | _ => none

/-- Nothing is put out on the way, and no message is handed to a backend. -/
def isSilent : Happening → Bool
  | emitted _ => false
  | called _ _ => false
  | printed _ => false
  | delivered _ _ _ => false
  | _ => true

end Happening

/-- What a callback is told of a message. -/
def Message.foreign (m : Message) : ForeignRecord :=
  { text := some (Text.Utf8.encode (Text.untilNul m.text))
    level := m.severity.code
    component := m.component.code }

/-- What a memory backend keeps of a message. -/
def Message.captured (m : Message) : Captured := ⟨m.severity, m.component, m.text⟩

/-- No heading stands in front of the text. -/
def ConsoleLayout.isBare (l : ConsoleLayout) : Bool :=
  !l.showLevel && !l.showComponent && !l.showTimestamp && !l.showThread

theorem ConsoleLayout.line_of_isBare {l : ConsoleLayout} (h : l.isBare = true) (colors : Bool)
    (stamp : Stamp) (s : Severity) (c : Component) (text : String) :
    l.line colors stamp s c text = "    " ++ text ++ "\n" := by
  simp only [isBare, Bool.and_eq_true, Bool.not_eq_true'] at h
  obtain ⟨⟨⟨hl, hc⟩, ht⟩, hn⟩ := h
  simp [line, headings, levelHeading, componentHeading, timeHeading, threadHeading, hl, hc, ht, hn]

/-- What a backend of the library puts out for messages, all of them worth reporting. -/
def BackendKind.output (w : World) : BackendKind → List Message → Output
  | memory h, ms => { captured := fun g => if g = h then ms.map Message.captured else [] }
  | tracing, ms => { events := ms.map fun m => .statement m.severity m.component m.text }
  | forwarding (some hook), ms => { calls := ms.map fun m => (hook, m.foreign) }
  | console layout buffer, ms =>
    .printed buffer (ms.map fun m => layout.line w.colors w.stamp m.severity m.component m.text)
  | _, _ => {}

namespace BackendKind

@[simp] theorem output_nil (w : World) (k : BackendKind) : k.output w [] = {} := by
  cases k with
  | forwarding hook => cases hook <;> rfl
  | _ => simp [output]

theorem output_append (w : World) (k : BackendKind) (ms ns : List Message) :
    k.output w (ms ++ ns) = k.output w ms ++ k.output w ns := by
  cases k with
  | memory h =>
    simp only [output, Output.append_def, List.append_nil, List.map_append, Output.mk.injEq,
      and_true]
    funext g
    split <;> rfl
  | forwarding hook => cases hook <;> simp [output, Output.append_def]
  | tracing => simp [output, Output.append_def]
  | console layout buffer => simp [output, Output.printed_append]
  | custom tag onWrite onFlush onDestroy onName => rfl

theorem output_console_of_isBare {l : ConsoleLayout} (h : l.isBare = true) (w : World)
    (buffer : Option String) (ms : List Message) :
    (console l buffer).output w ms =
      .printed buffer (ms.map fun m => "    " ++ m.text ++ "\n") := by
  simp [output, ConsoleLayout.line_of_isBare h]

end BackendKind

/-! ### Texts up to their first NUL -/

/-- No octet of a character is zero but that of NUL. -/
theorem ne_zero_of_mem_utf8EncodeChar {c : Char} (hc : c ≠ '\x00') {b : UInt8}
    (hb : b ∈ String.utf8EncodeChar c) : b ≠ 0 := by
  rintro rfl
  obtain ⟨-, hn⟩ := Text.Utf8.toNat_of_mem_utf8EncodeChar hb (by decide)
  exact hc (Char.ext (UInt32.toNat_inj.mp hn.symm))

theorem takeWhile_encode (cs : List Char) :
    (cs.flatMap String.utf8EncodeChar).takeWhile (· != 0) =
      (cs.takeWhile (· != '\x00')).flatMap String.utf8EncodeChar := by
  induction cs with
  | nil => rfl
  | cons c cs ih =>
    by_cases hc : c = '\x00'
    · subst hc
      rfl
    · have hall : ∀ b ∈ String.utf8EncodeChar c, (b != 0) = true := fun b hb => by
        simpa using ne_zero_of_mem_utf8EncodeChar hc hb
      have hfirst : (c != '\x00') = true := by simpa using hc
      rw [List.flatMap_cons, List.takeWhile_append_of_pos hall, ih,
        List.takeWhile_cons_of_pos (p := (· != '\x00')) hfirst, List.flatMap_cons]

/-- What can be seen of an encoded text is what stands in front of its first NUL. -/
theorem visible_encode (s : String) :
    ForeignRecord.visible (Text.Utf8.encode s) = Text.Utf8.encode (Text.untilNul s) := by
  rw [ForeignRecord.visible, Text.Utf8.encode, takeWhile_encode, Text.Utf8.encode, Text.untilNul,
    String.toList_ofList]

/-- There is always a foreign text of what stands in front of the first NUL. -/
theorem ForeignRecord.terminated?_untilNul (s : String) :
    ForeignRecord.terminated? (Text.Utf8.encode (Text.untilNul s)) =
      some (Text.Utf8.encode (Text.untilNul s)) := by
  refine if_neg fun h => ?_
  rw [List.contains_iff_mem, ← visible_encode, ForeignRecord.visible] at h
  simpa using List.mem_takeWhile_imp h

theorem World.recordOf_eq (m : Message) : World.recordOf m = m.foreign := by
  rw [World.recordOf, ForeignRecord.ofText, ForeignRecord.terminated?_untilNul, Message.foreign]
  rfl

theorem Writer.healthy_write (x : Writer) (octets : List UInt8) :
    (x.write octets).healthy = x.healthy := by
  unfold Writer.write
  split <;> rfl

namespace World

/-- What can be read from the outlets after some happenings. -/
def output (w : World) (hs : List Happening) : Output :=
  { captured := w.captured
    octets := fun id => (w.writer id).kept
    events := hs.filterMap Happening.event?
    calls := hs.filterMap Happening.call?
    lines := hs.filterMap Happening.line? }

/-- Whether the outlet of a backend works: its handle is there, its callback runs no operations, its
writer takes everything. A backend of the program's own has no outlet. -/
def Ready (w : World) : BackendKind → Prop
  | .memory h => h < w.captures.length
  | .forwarding none => False
  | .forwarding (some hook) => hook = .caller → w.callerScript = []
  | .tracing => True
  | .console _ none => True
  | .console _ (some id) => (w.writer id).healthy = true
  | .custom _ _ _ _ _ => False

variable {w v : World} {k : BackendKind}

/-- Reading the outlets again after more has happened. -/
theorem output_trans {u : World} {hs ks : List Happening} {a b : Output}
    (h : v.output hs = w.output [] ++ a) (h' : u.output ks = v.output [] ++ b) :
    u.output (hs ++ ks) = w.output [] ++ (a ++ b) := by
  simp only [output, Output.append_def, Output.mk.injEq, List.filterMap_nil, List.nil_append]
    at h h' ⊢
  obtain ⟨hc, ho, he, hf, hl⟩ := h
  obtain ⟨hc', ho', he', hf', hl'⟩ := h'
  refine ⟨?_, ?_, ?_, ?_, ?_⟩
  · rw [hc', hc]
    simp only [List.append_assoc]
  · funext id
    rw [congrFun ho' id, congrFun ho id, List.append_assoc]
  · rw [List.filterMap_append, he, he']
  · rw [List.filterMap_append, hf, hf']
  · rw [List.filterMap_append, hl, hl']

/-- Nothing is put out where neither handles nor buffers change and nothing can be heard. -/
theorem output_of_silent {hs : List Happening} (hc : v.captures = w.captures)
    (hb : v.buffers = w.buffers) (hq : ∀ e ∈ hs, e.isSilent = true) :
    v.output hs = w.output [] := by
  have hcaptured : v.captured = w.captured := by
    funext h
    rw [captured, hc, captured]
  have hwriter : v.writer = w.writer := by
    funext id
    rw [writer, hb, writer]
  have quiet : ∀ {β : Type} (f : Happening → Option β),
      (∀ e : Happening, e.isSilent = true → f e = none) → hs.filterMap f = [] := fun f hf =>
    List.filterMap_eq_nil_iff.mpr fun e he => hf e (hq e he)
  rw [output, hcaptured, hwriter, quiet Happening.event? (fun e he => by cases e <;> trivial),
    quiet Happening.call? (fun e he => by cases e <;> trivial),
    quiet Happening.line? (fun e he => by cases e <;> trivial)]
  rfl

theorem captured_capture {h : HandleId} (hh : h < w.captures.length) (r : Captured) (g : HandleId) :
    (w.capture h r).captured g = w.captured g ++ if g = h then [r] else [] := by
  rw [captured, capture, captured]
  by_cases hg : g = h
  · subst hg
    simp [hh]
  · simp [hg, Ne.symm hg]

theorem kept_setWriter_write {id : String} (hw : (w.writer id).healthy = true)
    (octets : List UInt8) (j : String) :
    ((w.setWriter id ((w.writer id).write octets)).writer j).kept =
      (w.writer j).kept ++ if j = id then octets else [] := by
  by_cases hj : j = id
  · subst hj
    rw [writer, setWriter, Table.get?_put_self, if_pos rfl]
    exact Writer.kept_write hw octets
  · rw [writer, setWriter, Table.get?_put_ne _ _ hj, if_neg hj, List.append_nil, writer]

theorem output_record (hk : w.Ready k) (m : Message) :
    (w.record m k).world.output (w.record m k).happenings = w.output [] ++ k.output w [m] := by
  -- what is put out elsewhere stays as it is
  have same : ∀ {α : Type} (l : List α), l = l ++ [] := fun l => (List.append_nil l).symm
  cases k with
  | memory h =>
    exact Output.ext (funext (captured_capture hk _)) (funext fun id => same _) rfl rfl rfl
  | forwarding hook =>
    cases hook with
    | none => cases hk
    | some hook =>
      rw [record, call, recordOf_eq]
      cases hook <;> exact Output.ext (funext fun g => same _) (funext fun id => same _) rfl rfl rfl
  | tracing => exact Output.ext (funext fun g => same _) (funext fun id => same _) rfl rfl rfl
  | console layout buffer =>
    cases buffer with
    | none => exact Output.ext (funext fun g => same _) (funext fun id => same _) rfl rfl rfl
    | some id =>
      refine Output.ext (funext fun g => same _) (funext fun j => ?_) rfl rfl rfl
      refine (kept_setWriter_write hk _ j).trans ?_
      simp [output, BackendKind.output, Output.printed, Output.append_def]
  | custom tag onWrite onFlush onDestroy onName => cases hk

/-- What a backend of the library does with a message is to put it out, if it is worth reporting. -/
theorem output_receive (hk : w.Ready k) (m : Message) :
    (w.receive m k).world.output (w.receive m k).happenings =
      w.output [] ++ k.output w ([m].filter (·.worth)) := by
  cases k with
  | custom tag onWrite onFlush onDestroy onName => cases hk
  | _ =>
    cases hw : m.worth with
    | false => simp [receive, hw]
    | true => simpa [receive, hw] using output_record hk m

theorem ready_record (hk : w.Ready k) (m : Message) :
    (w.record m k).world.Ready k ∧ (w.record m k).ops = [] := by
  cases k with
  | memory h => exact ⟨by simpa [record, capture, Ready] using hk, rfl⟩
  | forwarding hook =>
    cases hook with
    | none => cases hk
    | some hook => cases hook <;> first | exact ⟨hk, rfl⟩ | exact ⟨hk, hk rfl⟩
  | tracing => exact ⟨trivial, rfl⟩
  | console layout buffer =>
    cases buffer with
    | none => exact ⟨trivial, rfl⟩
    | some id =>
      refine ⟨?_, rfl⟩
      show (((w.setWriter id _).writer id).healthy) = true
      rw [writer, setWriter, Table.get?_put_self]
      exact (Writer.healthy_write _ _).trans hk
  | custom tag onWrite onFlush onDestroy onName => cases hk

/-- The outlet of a backend works as before, and nothing is left to run. -/
theorem ready_receive (hk : w.Ready k) (m : Message) :
    (w.receive m k).world.Ready k ∧ (w.receive m k).ops = [] := by
  cases k with
  | custom tag onWrite onFlush onDestroy onName => cases hk
  | _ =>
    cases hw : m.worth with
    | false => simpa [receive, hw] using hk
    | true => simpa [receive, hw] using ready_record hk m

/-! ### Backends that are entered and left -/

/-- Other contexts and another list of running ones. -/
def reseat (w : World) (contexts : List Context) (running : List ContextId) : World :=
  { w with contexts := contexts, thread := { w.thread with running := running } }

theorem enter_eq_reseat (w : World) (c : ContextId) :
    w.enter c = w.reseat (w.setLock c true).contexts
      (if w.thread.tracking then c :: w.thread.running else w.thread.running) := by
  unfold enter
  split <;> rfl

theorem leave_reseat (w : World) (contexts : List Context) (running : List ContextId)
    (c : ContextId) (counted : Bool) : (w.reseat contexts running).leave c counted =
      w.reseat (contexts.modify c fun x => { x with locked := false })
        (if counted then running.tail else running) := by
  cases counted <;> rfl

/-- Backends look neither at the contexts nor at the list of running ones. -/
theorem receive_reseat (w : World) (contexts : List Context) (running : List ContextId)
    (m : Message) (k : BackendKind) : (w.reseat contexts running).receive m k =
      { w.receive m k with world := (w.receive m k).world.reseat contexts running } := by
  cases hw : m.worth <;> cases k with
  | forwarding hook =>
    cases hook with
    | none => simp [receive, record, hw]
    | some hook => cases hook <;> simp [receive, record, call, hw] <;> rfl
  | console layout buffer => cases buffer <;> simp [receive, record, print, hw] <;> rfl
  | _ => simp [receive, record, hw] <;> rfl

/-- Entering and leaving a context that is not locked comes to nothing. -/
theorem reseat_of_enter {v : World} {c : ContextId} (hc : (w.context c).locked = false)
    (hcontexts : v.contexts = w.contexts) (hthread : v.thread = w.thread) :
    (v.reseat (w.setLock c true).contexts
      (if w.thread.tracking then c :: w.thread.running else w.thread.running)).leave c
        w.thread.tracking = v := by
  have hmodify : (w.setLock c true).contexts.modify c (fun x => { x with locked := false }) =
      w.contexts := by
    refine List.ext_getElem? fun i => ?_
    simp only [setLock, modifyContext, List.getElem?_modify]
    split
    · next h =>
      subst h
      rw [context] at hc
      rcases hx : w.contexts[c]? with _ | ⟨i, locked⟩
      · rfl
      · rw [hx] at hc
        obtain rfl : locked = false := hc
        rfl
    · cases w.contexts[i]? <;> rfl
  have hrunning : (if w.thread.tracking then
      (if w.thread.tracking then c :: w.thread.running else w.thread.running).tail
    else if w.thread.tracking then c :: w.thread.running else w.thread.running) =
      w.thread.running := by
    cases w.thread.tracking <;> rfl
  rw [leave_reseat, hmodify, hrunning, ← hcontexts, ← hthread]
  rfl

theorem receive_enter (w : World) (c : ContextId) (m : Message) (k : BackendKind) :
    ((w.enter c).receive m k).happenings = (w.receive m k).happenings ∧
      ((w.enter c).receive m k).ops = (w.receive m k).ops := by
  rw [enter_eq_reseat, receive_reseat]
  exact ⟨rfl, rfl⟩

theorem leave_receive_enter {c : ContextId} (hc : (w.context c).locked = false) (m : Message) :
    ((w.enter c).receive m k).world.leave c w.thread.tracking = (w.receive m k).world := by
  rw [enter_eq_reseat, receive_reseat]
  have h := (outward_receive w m k).alike
  exact reseat_of_enter hc h.contexts h.thread

theorem leave_enter {c : ContextId} (hc : (w.context c).locked = false) :
    (w.enter c).leave c w.thread.tracking = w := by
  rw [enter_eq_reseat]
  exact reseat_of_enter hc rfl rfl

/-- A backend of the library that is flushed leaves everything alone. -/
theorem flushed_of_ready (hk : w.Ready k) (v : World) : (v.flushed k).world = v ∧
    (v.flushed k).ops = [] ∧ ∀ e ∈ (v.flushed k).happenings, e.isSilent = true := by
  cases k with
  | console layout buffer => cases buffer <;> simp [flushed, Happening.isSilent]
  | custom tag onWrite onFlush onDestroy onName => cases hk
  | _ => simp [flushed]

end World

end GatedLog
