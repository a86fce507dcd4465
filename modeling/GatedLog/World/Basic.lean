import GatedLog.Happening
import GatedLog.Table
import GatedLog.Writer

/-!
# Worlds

The state of a run between two steps, except for what is still to be done: the contexts with their
backends and locks, the thread that runs, and everything that is addressed by name.

A context is locked while its backend runs or is asked for its name. A thread that meets a context
whose backend it is running itself is refused; one that meets a context locked otherwise waits, unless
its own state is gone, when it is refused as well.
-/

namespace GatedLog

/-- A backend behind a gate. -/
structure Installed where
  gate : Gate
  backend : Backend

/-- A context: at most one backend, and whether it is locked. -/
structure Context where
  installed : Option Installed := none
  locked : Bool := false
  deriving Inhabited

/-- A thread: the contexts whose backends it is running, innermost first, unless its own state is
gone. -/
structure Thread where
  number : Nat
  running : List ContextId := []
  tracking : Bool := true
  deriving DecidableEq, Repr, Inhabited

/-- How a thread gets at a context. -/
inductive Access where
  | granted
  | refused
  /-- The thread waits for another one. -/
  | blocked
  deriving DecidableEq, Repr

/-- The time as consoles write it, which is on one line. -/
structure Clock where
  text : String
  oneLine : '\n' ∉ text.toList

/-- The beginning of the year 1970. -/
def Clock.epoch : Clock := ⟨"Thu Jan  1 00:00:00 1970", by decide⟩

/-- The state of a run between two steps. -/
structure World where
  contexts : List Context
  names : Table String ContextId := {}
  thread : Thread := { number := 1 }
  threads : Nat := 1
  backends : Nat
  held : Table String Message := {}
  messages : Nat := 0
  handles : Table String HandleId := {}
  /-- What the handles hold, the latest first. -/
  captures : List (List Captured) := []
  buffers : Table String Writer := {}
  foreign : Table String ForeignRecord := {}
  copies : Nat := 0
  forwarders : Table String Backend := {}
  callerScript : List Op := []
  colors : Bool := false
  clock : Clock := .epoch

namespace World

/-- The identity of the global context. -/
def global : ContextId := 0

/-- The world at the start of a run: the global context prints on the terminal. -/
def initial (clock : Clock) : World :=
  { contexts := [{ installed := some ⟨Gate.unrestricted, ⟨0, .console {} none⟩⟩ }]
    backends := 1
    clock := clock }

/-- The context that is addressed. -/
def lookUp (w : World) : ContextName → ContextId
  | .global => global
  | .named name => (w.names.get? name).getD global

/-- A context; one that was never made is empty. -/
def context (w : World) (c : ContextId) : Context := w.contexts[c]?.getD {}

/-- What is installed in a context. -/
def installed (w : World) (c : ContextId) : Option Installed := (w.context c).installed

/-- Changes a context. -/
def modifyContext (w : World) (c : ContextId) (f : Context → Context) : World :=
  { w with contexts := w.contexts.modify c f }

/-- Makes a context and gives it a name; an older one of that name goes on without it. -/
def addContext (w : World) (name : String) (i : Option Installed) : World :=
  { w with
    contexts := w.contexts ++ [{ installed := i }]
    names := w.names.put name w.contexts.length }

/-- How the running thread gets at a context. -/
def access (w : World) (c : ContextId) : Access :=
  if w.thread.tracking then
    if c ∈ w.thread.running then .refused else if (w.context c).locked then .blocked else .granted
  else if (w.context c).locked then .refused else .granted

/-- What is installed in a context, as far as the running thread gets at it. -/
def visible (w : World) (c : ContextId) : Option Installed :=
  if w.access c = .granted then w.installed c else none

/-- Whether a statement would be worth reporting. -/
def shouldLog (w : World) (c : ContextId) (s : Severity) (k : Component) : Bool :=
  (w.visible c).any fun i => i.gate.allows s k

/-- Adjusts the gate of a context that the thread gets at and that has a backend. -/
def configure (w : World) (c : ContextId) (f : Gate → Gate) : World :=
  if w.access c = .granted then
    w.modifyContext c fun x =>
      { x with installed := x.installed.map fun i => { i with gate := f i.gate } }
  else w

/-- Puts a backend, or none, in place of what is installed. -/
def replace (w : World) (c : ContextId) (next : Option Installed) : World :=
  w.modifyContext c fun x => { x with installed := next }

/-- Locks or unlocks a context. -/
def setLock (w : World) (c : ContextId) (on : Bool) : World :=
  w.modifyContext c fun x => { x with locked := on }

/-- Counts a context among those that the thread is running. -/
def pushRunning (w : World) (c : ContextId) : World :=
  { w with thread := { w.thread with running := c :: w.thread.running } }

/-- Forgets the context that was counted last. -/
def popRunning (w : World) : World :=
  { w with thread := { w.thread with running := w.thread.running.tail } }

/-- Starts to run the backend of a context: it is locked and, if the thread keeps track, counted. -/
def enter (w : World) (c : ContextId) : World :=
  if w.thread.tracking then (w.setLock c true).pushRunning c else w.setLock c true

/-- Ends the run of a backend that was entered with or without being counted. -/
def leave (w : World) (c : ContextId) (counted : Bool) : World :=
  if counted then (w.setLock c false).popRunning else w.setLock c false

/-- A new message, still empty. -/
def newMessage (w : World) (c : ContextId) (s : Severity) (k : Component) : Message :=
  { serial := w.messages, context := c, severity := s, component := k, worth := w.shouldLog c s k }

/-- Counts a message that has been made. -/
def countMessage (w : World) : World := { w with messages := w.messages + 1 }

/-- Keeps a message open. -/
def hold (w : World) (id : String) (m : Message) : World := { w with held := w.held.put id m }

/-- A new thread takes over. -/
def startThread (w : World) : World :=
  { w with thread := { number := w.threads + 1 }, threads := w.threads + 1 }

/-- The thread that was waiting goes on. -/
def resumeThread (w : World) (t : Thread) : World := { w with thread := t }

/-- The thread's own state is gone. -/
def loseTrack (w : World) : World :=
  { w with thread := { w.thread with running := [], tracking := false } }

/-! ### What the operations leave alone -/

theorem context_modifyContext (w : World) (c d : ContextId) (f : Context → Context) :
    (w.modifyContext c f).context d =
      if c = d ∧ d < w.contexts.length then f (w.context d) else w.context d := by
  simp only [context, modifyContext, List.getElem?_modify]
  by_cases hc : c = d
  · by_cases hd : d < w.contexts.length
    · simp [hc, hd]
    · simp [hc, hd]
  · simp [hc]

theorem installed_setLock (w : World) (c d : ContextId) (on : Bool) :
    (w.setLock c on).installed d = w.installed d := by
  simp only [installed, setLock, context_modifyContext]
  split <;> rfl

theorem visible_of_not_granted {w : World} {c : ContextId} (h : w.access c ≠ .granted) :
    w.visible c = none := by
  simp [visible, h]

theorem configure_of_not_granted {w : World} {c : ContextId} (h : w.access c ≠ .granted)
    (f : Gate → Gate) : w.configure c f = w := by
  simp [configure, h]

end World

end GatedLog
