import GatedLog.World.Store

/-!
# States of the machine

A run is a sequence of small steps. The agenda of a state says what is still to be done, the next
task first: it is the call stack of the run, and a task `leave` on it stands for a backend that is
running, a task `unlock` for one that is asked for its name. An operation replaces itself by tasks;
its answer is kept until the task below takes it.
A step returns what happens in it.
-/

namespace GatedLog

/-- Where the backend of a builder goes. -/
inductive Target where
  | create (ctx : String)
  | install (c : ContextId)
  deriving DecidableEq, Repr

/-- Something still to be done. -/
inductive Task where
  /-- The operations of the program. -/
  | program (ops : List Op)
  /-- The operation of the program has ended. -/
  | report
  /-- The operations of a script. -/
  | script (ops : List Op)
  /-- The operation of the script has ended. -/
  | note
  /-- The operations of a thread, and the answers so far, the latest first. -/
  | collect (ops : List Op) (answers : List Answer)
  /-- The operation of the thread has ended. -/
  | gather (ops : List Op) (answers : List Answer)
  | begin (o : Op)
  | respond (a : Answer)
  /-- The end of a message. -/
  | drop (m : Message)
  /-- Hands a message to a context. -/
  | write (c : ContextId) (m : Message)
  | flush (c : ContextId)
  /-- The backend of a context, counted by the thread or not, has run. -/
  | leave (c : ContextId) (counted : Bool)
  /-- The backend of a context has told its name. -/
  | unlock (c : ContextId)
  | swap (c : ContextId) (next : Option Installed)
  | destroy (b : Backend)
  | emit (e : Event)
  /-- The steps of a builder, the backend chosen so far, the gate, and the gates after each step. -/
  | build (steps : List BuildStep) (chosen : Option Backend) (g : Gate) (gates : List Gate)
      (target : Target)
  /-- Hands a message to a backend outside any context. -/
  | forward (b : Backend) (m : Message)
  | fork (ops : List Op)
  /-- Logs so many numbered messages on a new thread. -/
  | crew (c : ContextId) (s : Severity) (k : Component) (thread count : Nat)
  /-- Logs so many numbered messages, the first with the given number. -/
  | numbered (c : ContextId) (s : Severity) (k : Component) (thread first count : Nat)
  | forkExit (ops exit : List Op)
  /-- The thread's own state, if it has any, goes before the rest of its operations. -/
  | exit (ops : List Op)
  | pair (alive : List Answer)
  /-- The thread has ended, and the one that waited goes on. -/
  | join (waiting : Thread)
  /-- A destructor has run in the course of unwinding. -/
  | resume (text : String)

/-- How a run is going. -/
inductive Condition where
  | running
  | unwinding (text : String)
  /-- A thread waits for a lock that it will never get. -/
  | blocked
  /-- A destructor panicked in the course of unwinding. -/
  | aborted
  deriving DecidableEq, Repr

/-- A state of the machine. -/
structure State where
  world : World
  agenda : List Task
  answer : Answer := .nothing
  condition : Condition := .running
  /-- For every thread that was started and has not ended, innermost first, whether it has ever got
  at a context. Only then is there a list of running contexts that can go when the thread ends. -/
  registered : List Bool := []

/-- The state after a step, and what happened in it. -/
abbrev Outcome := State × List Happening

namespace State

/-- Puts tasks in front of the agenda. -/
def push (s : State) (ts : List Task) : State := { s with agenda := ts ++ s.agenda }

/-- Changes the world. -/
def withWorld (s : State) (w : World) : State := { s with world := w }

/-- Keeps an answer for the task below. -/
def respond (s : State) (a : Answer) : State := { s with answer := a }

/-- A step in which nothing happens that could be observed. -/
def quietly (s : State) : Outcome := (s, [])

/-- A thread starts that has not got at any context. -/
def enlist (s : State) : State := { s with registered := false :: s.registered }

/-- The thread has got at a context. -/
def register (s : State) : State :=
  { s with registered := s.registered.modifyHead fun _ => true }

/-- The thread has ended. -/
def discharge (s : State) : State := { s with registered := s.registered.tail }

/-- The world in which the last operations of a thread run: its own state is gone, if it ever had
any. Otherwise they are the first that get at a context, and it is made for them. -/
def departing (s : State) : World :=
  if s.registered.headD false then s.world.loseTrack else s.world

@[simp] theorem register_register (s : State) : s.register.register = s.register := by
  simp only [register, List.modifyHead_modifyHead]
  rfl

@[simp] theorem world_register (s : State) : s.register.world = s.world := rfl

@[simp] theorem agenda_register (s : State) : s.register.agenda = s.agenda := rfl

@[simp] theorem answer_register (s : State) : s.register.answer = s.answer := rfl

@[simp] theorem condition_register (s : State) : s.register.condition = s.condition := rfl

@[simp] theorem world_enlist (s : State) : s.enlist.world = s.world := rfl

@[simp] theorem agenda_enlist (s : State) : s.enlist.agenda = s.agenda := rfl

@[simp] theorem world_discharge (s : State) : s.discharge.world = s.world := rfl

@[simp] theorem agenda_discharge (s : State) : s.discharge.agenda = s.agenda := rfl

/-- Goes on in one of two ways, or not at all if the thread has to wait for the context. A thread
that is refused is registered already: it runs the backend of that context, or its own state is
gone. -/
def accessing (s : State) (c : ContextId) (granted refused : Outcome) : Outcome :=
  match s.world.access c with
  | .granted => (granted.1.register, granted.2)
  | .refused => refused
  | .blocked => ({ s with condition := .blocked }, [])

/-- The backend of a context runs: it reacts, its operations follow, and it is left. -/
def running (s : State) (c : ContextId) (first : Happening) (r : Reaction) : Outcome :=
  ((s.register.withWorld r.world).push [.script r.ops, .leave c s.world.thread.tracking],
    first :: r.happenings)

@[simp] theorem register_running (s : State) (c : ContextId) (first : Happening) (r : Reaction) :
    (s.running c first r).1.register = (s.running c first r).1 := by
  simp only [running, register, withWorld, push, List.modifyHead_modifyHead]
  rfl

/-- Hands a message to the backend of a context. -/
def write (s : State) (c : ContextId) (m : Message) : Outcome :=
  s.accessing c
    (match s.world.installed c with
      | none => s.quietly
      | some i =>
        s.running c (.delivered c i.backend m) ((s.world.enter c).receive m i.backend.kind))
    s.quietly

/-- Ends a message: one that is worth reporting is handed to its context. -/
def drop (s : State) (m : Message) : Outcome :=
  let handed := if m.worth then s.write m.context m else s.quietly
  (handed.1, .dropped m :: handed.2)

/-- Flushes the backend of a context. -/
def flush (s : State) (c : ContextId) : Outcome :=
  s.accessing c
    (match s.world.installed c with
      | none => s.quietly
      | some i => s.running c (.flushed c i.backend) ((s.world.enter c).flushed i.backend.kind))
    s.quietly

/-- Destroys a backend; its last operations run. -/
def destroy (s : State) (b : Backend) : Outcome :=
  (s.push [.script (World.lastOps b.kind)], [.destroyed b])

/-- The tasks that destroy a backend, if there is one. -/
def destroying (b : Option Backend) : List Task := (b.map Task.destroy).toList

/-- The event of a swap that was done. -/
def swapped : Option Installed → Event
  | none => .removed
  | some i => .installed i.backend.name

/-- The event of a swap that was refused. -/
def notSwapped : Option Installed → Event
  | none => .removalIgnored
  | some i => .installIgnored i.backend.name

/-- Puts a backend, or none, into a context: what was there is destroyed and then the event emitted.
A context that is running its backend destroys the new one instead. -/
def swap (s : State) (c : ContextId) (next : Option Installed) : Outcome :=
  s.accessing c
    ((s.withWorld (s.world.replace c next)).push
      (destroying ((s.world.installed c).map (·.backend)) ++ [.emit (swapped next)])).quietly
    (s.push (destroying (next.map (·.backend)) ++ [.emit (notSwapped next)])).quietly

end State

end GatedLog
