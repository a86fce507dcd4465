import GatedLog.Proofs.Lines
import GatedLog.Proofs.Machine.Stores

/-!
# What consoles print into buffers

A console prints a line for every message that it is handed and that is worth reporting, into its
buffer if it has one. While the writer of a buffer is healthy, what was drained from the buffer and
what is left in it are the octets of these lines, in the order of the messages (`prints_lines`).

A text is printed as it is, newlines included. A message makes up one line only if there is none in
its text, and a text can look like the lines of other messages (`not_one_line_each`).
-/

namespace GatedLog

/-- Whether a backend prints into the buffer. -/
def BackendKind.printsInto (id : String) : BackendKind → Bool
  | console _ (some buffer) => buffer == id
  | _ => false

/-- What a backend prints into the buffer for a message that is worth reporting. -/
def BackendKind.linesInto (id : String) (w : World) (m : Message) : BackendKind → List String
  | console layout (some buffer) =>
    if buffer == id then [layout.line w.colors w.stamp m.severity m.component m.text] else []
  | _ => []

/-- The lines belong to the messages. -/
theorem BackendKind.forall₂_linesInto (w : World) (id : String) (m : Message) (k : BackendKind) :
    List.Forall₂ Message.LineOf (if k.printsInto id then [m] else []) (k.linesInto id w m) := by
  cases k with
  | console layout buffer =>
    cases buffer with
    | none => exact .nil
    | some buffer =>
      have hline : m.LineOf (layout.line w.colors w.stamp m.severity m.component m.text) :=
        ⟨layout, w.colors, w.stamp, w.clock.oneLine, rfl⟩
      have hp : (console layout (some buffer)).printsInto id = (buffer == id) := rfl
      rw [hp, linesInto]
      cases buffer == id with
      | false => exact .nil
      | true => exact .cons hline .nil
  | _ => exact .nil

namespace World

variable {w : World}

theorem writer_setWriter (w : World) (buffer : String) (x : Writer) (id : String) :
    (w.setWriter buffer x).writer id = if id = buffer then x else w.writer id := by
  by_cases hb : id = buffer
  · rw [hb, writer, setWriter, Table.get?_put_self, if_pos rfl]
    rfl
  · rw [writer, setWriter, Table.get?_put_ne _ _ hb, if_neg hb, writer]

/-- What a message leaves in a buffer whose writer is healthy. -/
theorem kept_receive {id : String} (hw : (w.writer id).healthy = true) (m : Message)
    (k : BackendKind) : ((w.receive m k).world.writer id).kept = (w.writer id).kept ++
      (if m.worth then k.linesInto id w m else []).flatMap Text.Utf8.encode := by
  -- whatever does not print into a buffer leaves all of them alone
  have other : (∀ layout buffer, k ≠ .console layout (some buffer)) →
      ((w.receive m k).world.writer id).kept = (w.writer id).kept := fun hk => by
    rw [writer, (ownStore_receive w m k).buffers hk, writer]
  cases hworth : m.worth with
  | false =>
    rw [receive_of_not_worth hworth]
    exact (List.append_nil _).symm
  | true =>
    rw [if_pos rfl]
    cases k with
    | console layout buffer =>
      cases buffer with
      | none => exact (other (by simp)).trans (List.append_nil _).symm
      | some buffer =>
        have hprint : (w.receive m (.console layout (some buffer))).world =
            w.setWriter buffer ((w.writer buffer).write (Text.Utf8.encode
              (layout.line w.colors w.stamp m.severity m.component m.text))) := by
          simp only [receive, hworth, if_true]
          rfl
        rw [hprint, BackendKind.linesInto]
        by_cases hb : buffer = id
        · subst hb
          rw [kept_setWriter_write hw, if_pos rfl, if_pos (beq_self_eq_true buffer)]
          simp
        · have hne : (buffer == id) = false := by simpa using hb
          rw [hne, writer_setWriter, if_neg (Ne.symm hb)]
          exact (List.append_nil _).symm
    | _ => exact (other (by simp)).trans (List.append_nil _).symm

end World

namespace State

/-- What a step drains from a buffer. -/
def drained (id : String) (s : State) : List UInt8 :=
  match s.storeOp? with
  | some (.drain buffer) => if buffer = id then (s.world.writer id).kept else []
  | _ => []

/-- What is drained from a buffer in so many steps. -/
def drainedIn (id : String) : Nat → State → List UInt8
  | 0, _ => []
  | n + 1, s => s.drained id ++ drainedIn id n s.step.1

/-- What a step prints into a buffer. -/
def linesInto (id : String) (s : State) : List String :=
  s.handed.flatMap fun d => if d.2.worth then d.1.kind.linesInto id s.world d.2 else []

/-- What is printed into a buffer in so many steps. -/
def linesIn (id : String) : Nat → State → List String
  | 0, _ => []
  | n + 1, s => s.linesInto id ++ linesIn id n s.step.1

/-- The writer of a buffer is healthy when the messages of so many steps come. -/
def HealthyFor (id : String) (n : Nat) (s : State) : Prop :=
  ∀ k < n, ((run k s).1.world.writer id).healthy = true

variable {s : State} {id : String}

theorem HealthyFor.head {n : Nat} (h : HealthyFor id (n + 1) s) :
    (s.world.writer id).healthy = true := h 0 (Nat.succ_pos n)

theorem HealthyFor.tail {n : Nat} (h : HealthyFor id (n + 1) s) : HealthyFor id n s.step.1 :=
  fun k hk => by
    have hnext := h (k + 1) (Nat.succ_lt_succ hk)
    rwa [run_succ] at hnext

theorem drained_of_none (hn : s.storeOp? = none) (id : String) : s.drained id = [] := by
  rw [drained, hn]

/-- An operation takes out of the buffers what is no longer there. -/
theorem drained_of_operated {op : StoreOp} (hn : s.storeOp? = some op)
    (hw : s.step.1.world = (s.world.applyStore op).1) (id : String) :
    s.drained id ++ (s.step.1.world.writer id).kept = (s.world.writer id).kept := by
  unfold drained
  rw [hn, hw]
  -- most operations have nothing to do with buffers
  have other : (s.world.applyStore op).1.buffers = s.world.buffers →
      ((s.world.applyStore op).1.writer id).kept = (s.world.writer id).kept := by
    intro h
    rw [World.writer, h, World.writer]
  cases op with
  | drain buffer =>
    simp only [World.applyStore, World.writer_setWriter]
    by_cases hb : buffer = id
    · rw [if_pos hb, if_pos hb.symm]
      exact List.append_nil _
    · rw [if_neg hb, if_neg (Ne.symm hb)]
      rfl
  | setWriter buffer limit chunk fails =>
    simp only [World.applyStore, World.writer_setWriter]
    by_cases hb : buffer = id
    · rw [if_pos hb.symm, hb]
      rfl
    · rw [if_neg (Ne.symm hb)]
      rfl
  | _ => exact other ((World.confined_applyStore ..).buffers (by simp) (by simp))

/-- In one step. -/
theorem drained_append (hs : s.Housed) (hw : (s.world.writer id).healthy = true) :
    s.drained id ++ (s.step.1.world.writer id).kept =
      (s.world.writer id).kept ++ (s.linesInto id).flatMap Text.Utf8.encode := by
  cases (step_storage hs).1 with
  | kept hn hh hworld =>
    rw [drained_of_none hn, linesInto, hh, World.writer, hworld.buffers]
    exact (List.append_nil _).symm
  | operated op hn hh hworld hanswer =>
    rw [drained_of_operated hn hworld, linesInto, hh]
    exact (List.append_nil _).symm
  | received b m v hn hh hb hv hstamp hworld =>
    have hwriter : v.writer = s.world.writer := by
      funext j
      rw [World.writer, hv.buffers, World.writer]
    have hlines : b.kind.linesInto id v m = b.kind.linesInto id s.world m := by
      cases b.kind with
      | console layout buffer =>
        cases buffer with
        | none => rfl
        | some buffer => rw [BackendKind.linesInto, BackendKind.linesInto, hv.colors, hstamp]
      | _ => rfl
    have hreceive := World.kept_receive (hwriter ▸ hw) m b.kind
    rw [drained_of_none hn, List.nil_append, hworld, hreceive, hwriter, hlines, linesInto, hh,
      List.flatMap_singleton]

/-- In any number of steps. -/
theorem drainedIn_append (n : Nat) (hs : s.Housed) (hw : HealthyFor id n s) :
    drainedIn id n s ++ ((run n s).1.world.writer id).kept =
      (s.world.writer id).kept ++ (linesIn id n s).flatMap Text.Utf8.encode := by
  induction n generalizing s with
  | zero => exact (List.append_nil _).symm
  | succ n ih =>
    rw [run_succ, drainedIn, List.append_assoc, ih (step_storage hs).2 hw.tail,
      ← List.append_assoc, drained_append hs hw.head, linesIn, List.flatMap_append,
      List.append_assoc]

/-! ### Whose lines they are -/

/-- The lines of a step belong to the messages that are delivered in it. -/
theorem forall₂_linesInto (hs : s.Housed) (id : String) :
    List.Forall₂ Message.LineOf (deliveredTo (·.printsInto id) s.step.2) (s.linesInto id) := by
  rw [hs.deliveredTo_eq fun _ => rfl, linesInto]
  induction s.handed with
  | nil => exact .nil
  | cons d ds ih =>
    obtain ⟨b, m⟩ := d
    rw [← List.singleton_append, statementsFor_append, statementsFor_singleton,
      List.flatMap_append, List.flatMap_singleton]
    refine List.rel_append ?_ ih
    cases m.worth with
    | false => simp
    | true =>
      rw [Bool.and_true, if_pos rfl]
      exact BackendKind.forall₂_linesInto s.world id m b.kind

/-- The lines of a run belong to the messages that are delivered in it. -/
theorem forall₂_linesIn (n : Nat) (hs : s.Housed) (id : String) :
    List.Forall₂ Message.LineOf (deliveredTo (·.printsInto id) (run n s).2) (linesIn id n s) := by
  induction n generalizing s with
  | zero => exact .nil
  | succ n ih =>
    rw [run_succ, deliveredTo_append, linesIn]
    exact List.rel_append (forall₂_linesInto hs id) (ih (step_storage hs).2)

/-- The octets that have come into a buffer since the start of a program: those that were drained and
those that are left. -/
def printed (program : Program) (n : Nat) (id : String) : List UInt8 :=
  drainedIn id n (start program) ++ ((run n (start program)).1.world.writer id).kept

/-- What consoles print into the buffers, in the first `n` steps of a program. -/
structure PrintsLines (program : Program) (n : Nat) : Prop where
  /-- Each message that is delivered to a console of a buffer, and is worth reporting, has a line,
  which is made up of the headings, its text and a newline. -/
  belongs : ∀ id, List.Forall₂ Message.LineOf (deliveredTo (·.printsInto id) (run n (start program)).2)
    (linesIn id n (start program))
  /-- The buffer gets these lines in their order, and nothing else, while its writer is healthy. -/
  content : ∀ id, HealthyFor id n (start program) →
    printed program n id = (linesIn id n (start program)).flatMap Text.Utf8.encode
  /-- So there is a newline for each message, and one for each newline in its text. -/
  newlines : ∀ id, HealthyFor id n (start program) → (printed program n id).count Text.newline =
    ((deliveredTo (·.printsInto id) (run n (start program)).2).map Message.lineCount).sum
  /-- The buffer consists of as many lines as there are messages exactly if no text contains a
  newline, -/
  lines : ∀ id, HealthyFor id n (start program) →
    ((∃ ls, Text.Lines (printed program n id) ls ∧
        ls.length = (deliveredTo (·.printsInto id) (run n (start program)).2).length) ↔
      ∀ m ∈ deliveredTo (·.printsInto id) (run n (start program)).2, '\n' ∉ m.text.toList)
  /-- and then each line belongs to its message. -/
  bodies : ∀ id, HealthyFor id n (start program) →
    (∀ m ∈ deliveredTo (·.printsInto id) (run n (start program)).2, '\n' ∉ m.text.toList) →
    ∃ ls, Text.Lines (printed program n id) ls ∧
      List.Forall₂ Message.BodyOf (deliveredTo (·.printsInto id) (run n (start program)).2) ls
  /-- Statements that end at a console are worth reporting. -/
  worth : ∀ c b m, .dropped m ∈ (run n (start program)).1.step.2 →
    .delivered c b m ∈ (run n (start program)).1.step.2 → m.worth = true

/-- **What consoles print**, in every run of every program. -/
theorem prints_lines (program : Program) (n : Nat) : PrintsLines program n := by
  have hhoused := housed_start program
  have hlines := fun id => forall₂_linesIn n hhoused id
  have hcontent : ∀ id, HealthyFor id n (start program) →
      printed program n id = (linesIn id n (start program)).flatMap Text.Utf8.encode := fun id h => by
    rw [printed, drainedIn_append n hhoused h]
    rfl
  refine ⟨hlines, hcontent, fun id h => ?_, fun id h => ?_, fun id h hn => ?_,
    fun c b m => worth_of_dropped⟩
  · rw [hcontent id h]
    exact Message.count_newline (hlines id)
  · rw [hcontent id h]
    exact Message.lines_iff (hlines id)
  · rw [hcontent id h]
    exact Message.exists_lines (hlines id) hn

/-- A statement whose text contains a newline goes to a console. -/
def forging : Program where
  ops := [.create "c" (some (.console { showTimestamp := false, showThread := false } (some "b"))) {},
    .log (.named "c") .info .rpc [.text "one\ntwo"]]

/-- A message does not always make up one line. -/
theorem not_one_line_each : ¬ ∀ program n id, HealthyFor id n (start program) →
    ∃ ls, Text.Lines (printed program n id) ls ∧
      ls.length = (deliveredTo (·.printsInto id) (run n (start program)).2).length := by
  intro h
  have hhealthy : HealthyFor "b" 6 (start forging) := by
    unfold HealthyFor
    decide +kernel
  obtain ⟨ls, hls, hlen⟩ := h forging 6 "b" hhealthy
  have hone : (deliveredTo (·.printsInto "b") (run 6 (start forging)).2).length = 1 := by
    decide +kernel
  have htwo : (printed forging 6 "b").count Text.newline = 2 := by decide +kernel
  rw [hls.length_eq, hone, htwo] at hlen
  cases hlen

end State

end GatedLog
