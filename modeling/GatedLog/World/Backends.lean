import GatedLog.Console.Line
import GatedLog.World.Basic

/-!
# Backends at work

How backends are made, and what each kind does when a message reaches it, when it is flushed, when
it is asked for its name and when it is destroyed: it changes the world, something happens, and there
may be operations that it runs next.
-/

namespace GatedLog

/-- What a backend does. -/
structure Reaction where
  world : World
  happenings : List Happening := []
  ops : List Op := []

namespace World

/-- The handle of a name, made if there is none. -/
def handle (w : World) (name : String) : HandleId × World :=
  match w.handles.get? name with
  | some h => (h, w)
  | none =>
    (w.captures.length,
      { w with captures := w.captures ++ [[]], handles := w.handles.put name w.captures.length })

/-- A new handle, with a name if one is given. -/
def freshHandle (w : World) (name : Option String) : HandleId × World :=
  (w.captures.length,
    { w with
      captures := w.captures ++ [[]]
      handles := match name with
        | none => w.handles
        | some n => w.handles.put n w.captures.length })

/-- A new backend of a given kind. -/
def newBackend (w : World) (k : BackendKind) : Backend × World :=
  (⟨w.backends, k⟩, { w with backends := w.backends + 1 })

/-- Makes a backend. -/
def make (w : World) : BackendSpec → Backend × World
  | .memory (some name) _ => (w.handle name).2.newBackend (.memory (w.handle name).1)
  | .memory none name => (w.freshHandle name).2.newBackend (.memory (w.freshHandle name).1)
  | .forwarding hook => w.newBackend (.forwarding hook)
  | .tracing => w.newBackend .tracing
  | .console layout buffer => w.newBackend (.console layout buffer)
  | .custom tag onWrite onFlush onDestroy onName =>
    w.newBackend (.custom tag onWrite onFlush onDestroy onName)

/-- When and on which thread something is printed. -/
def stamp (w : World) : Stamp := ⟨w.clock.text, w.thread.number⟩

/-- Adds to what a handle holds. -/
def capture (w : World) (h : HandleId) (r : Captured) : World :=
  { w with captures := w.captures.modify h (r :: ·) }

/-- The writer of a buffer. -/
def writer (w : World) (id : String) : Writer := (w.buffers.get? id).getD {}

/-- Changes the writer of a buffer. -/
def setWriter (w : World) (id : String) (x : Writer) : World :=
  { w with buffers := w.buffers.put id x }

/-- Prints a line, into a buffer or on the terminal. -/
def print (w : World) (line : String) : Option String → Reaction
  | none => { world := w, happenings := [.printed line] }
  | some id => { world := w.setWriter id ((w.writer id).write (Text.Utf8.encode line)) }

/-- The record that a callback sees of a message: its text ends at its first NUL. -/
def recordOf (m : Message) : ForeignRecord :=
  { text := some (ForeignRecord.ofText m.text)
    level := m.severity.code
    component := m.component.code }

/-- The name under which the copy of a record is kept. -/
def copyName (n : Nat) : String := "k" ++ String.ofList (Text.decimalNat n)

/-- Keeps a copy of a foreign record. -/
def keepCopy (w : World) (r : ForeignRecord) : World :=
  { w with foreign := w.foreign.put (copyName w.copies) r.copy, copies := w.copies + 1 }

/-- Calls back with a message; the calling callback has operations to run. -/
def call (w : World) (m : Message) (hook : Hook) : Reaction :=
  { world := if hook = .keeper then w.keepCopy (recordOf m) else w
    happenings := [.called hook (recordOf m)]
    ops := if hook = .caller then w.callerScript else [] }

/-- What a backend of the library does with a message that is worth reporting. -/
def record (w : World) (m : Message) : BackendKind → Reaction
  | .memory h => { world := w.capture h ⟨m.severity, m.component, m.text⟩ }
  | .tracing =>
    { world := w, happenings := [.emitted (.statement m.severity m.component m.text)] }
  | .console layout buffer =>
    w.print (layout.line w.colors w.stamp m.severity m.component m.text) buffer
  | .forwarding (some hook) => w.call m hook
  | .forwarding none => { world := w }
  | .custom _ _ _ _ _ => { world := w }

/-- What a backend does with a message. Only one of the program takes a message that is not
worth reporting. -/
def receive (w : World) (m : Message) (k : BackendKind) : Reaction :=
  match k with
  | .custom _ onWrite _ _ _ => { world := w, ops := onWrite }
  | k => if m.worth then w.record m k else { world := w }

/-- What a backend does when it is flushed. -/
def flushed (w : World) : BackendKind → Reaction
  | .custom _ _ onFlush _ _ => { world := w, ops := onFlush }
  | .console _ (some id) => { world := w, happenings := [.bufferFlushed id] }
  | _ => { world := w }

/-- The operations that a backend runs when it is destroyed. -/
def lastOps : BackendKind → List Op
  | .custom _ _ _ onDestroy _ => onDestroy
  | _ => []

/-- The operations that a backend runs when its context asks it for its name. -/
def nameOps : BackendKind → List Op
  | .custom _ _ _ _ onName => onName
  | _ => []

/-- The operations that an operation on a context has the backend run. -/
def asked (w : World) (c : ContextId) : ContextOp → List Op
  | .name => ((w.installed c).map fun i => nameOps i.backend.kind).getD []
  | _ => []

end World

end GatedLog
