import GatedLog.Console.Layout
import GatedLog.Gate
import GatedLog.Part

/-!
# Operations

What a program does with the facility. Contexts, messages, handles and the like are addressed by
name; there is one context more, the global one, and a name that no context was given means it.
Backends may be a program's own: then operations of theirs run whenever they are written to, flushed
or destroyed, or asked for their name by the context that they are installed in.
-/

namespace GatedLog

/-- How an operation addresses a context. -/
inductive ContextName where
  | global
  | named (name : String)
  deriving DecidableEq, Repr, Inhabited

/-- A callback outside the library; two of them only listen. -/
inductive Hook where
  | firstListener
  | secondListener
  /-- Keeps a copy of every record. -/
  | keeper
  /-- Runs operations of its own. -/
  | caller
  deriving DecidableEq, Repr

/-- The name of a callback. -/
def Hook.name : Hook → String
  | firstListener => "A"
  | secondListener => "B"
  | keeper => "K"
  | caller => "S"

/-- Operations that look at a context or adjust its gate. Only to tell its name may a backend run
operations. -/
inductive ContextOp where
  | shouldLog (s : Severity) (c : Component)
  | gate
  | name
  | enable (c : Component)
  | disable (c : Component)
  | setThreshold (s : Severity)
  | setGate (g : Gate)
  deriving DecidableEq, Repr

/-- Operations on what lies around the contexts; neither a context nor a backend takes part. -/
inductive StoreOp where
  | inspect (id : String)
  | describe (id : String)
  | records (handle : String)
  | take (handle : String)
  | clear (handle : String)
  | counts (handle : String)
  /-- Reads and empties a buffer. -/
  | drain (buffer : String)
  | setWriter (buffer : String) (limit chunk : Option Nat) (fails : Bool)
  | setColors (on : Bool)
  | newRecord (id : String) (text : Option (List UInt8)) (level component : Option Int32)
  | copyRecord (id : String) (source : Option String)
  | readRecord (id : String)
  | freeRecord (id : Option String)
  | newForwarder (id : String) (hook : Option Hook)
  | setForwarder (id : String) (hook : Option Hook)
  deriving DecidableEq, Repr

mutual

/-- A backend to be made. -/
inductive BackendSpec where
  /-- Captures what it receives, in a named handle or in a fresh one that may be given a name. -/
  | memory (handle storeAs : Option String)
  | forwarding (hook : Option Hook)
  | tracing
  /-- Prints lines, into a buffer or on the terminal. -/
  | console (layout : ConsoleLayout) (buffer : Option String)
  /-- A backend of the program's own. It runs `onName` when its context asks it for its name, which it
  does under the lock. Whoever is about to install it asks for the name first, without any lock, and is
  told at once: what else the backend might do then the program can do itself. -/
  | custom (tag : String) (onWrite onFlush onDestroy onName : List Op)

/-- A step of a builder: it chooses a backend, or changes the gate, or both. -/
inductive BuildStep where
  | backend (spec : BackendSpec)
  | level (s : Severity)
  | enable (c : Component)
  | disable (c : Component)
  | only (cs : List Component)
  /-- Values of the environment variables. -/
  | environment (level components : Option String)
  /-- The octets of the environment variables. -/
  | environmentOctets (level components : Option (List UInt8))
  /-- A configuration document. -/
  | settings (document : String)

/-- What a program does. -/
inductive Op where
  | onContext (ctx : ContextName) (o : ContextOp)
  | onStore (o : StoreOp)
  /-- Makes a context, empty or with a backend. -/
  | create (ctx : String) (spec : Option BackendSpec) (gate : Gate)
  | build (ctx : String) (steps : List BuildStep)
  | buildInto (ctx : ContextName) (steps : List BuildStep)
  | install (ctx : ContextName) (spec : BackendSpec) (gate : Gate)
  | remove (ctx : ContextName)
  | flush (ctx : ContextName)
  /-- Makes a message, adds values and drops it. -/
  | log (ctx : ContextName) (s : Severity) (c : Component) (parts : List Part)
  /-- Makes a message that stays open. -/
  | hold (id : String) (ctx : ContextName) (s : Severity) (c : Component) (parts : List Part)
  /-- Adds values to an open message. -/
  | add (id : String) (parts : List Part)
  /-- Hands an open message to a context. -/
  | write (ctx : ContextName) (id : String)
  /-- Drops an open message. -/
  | finish (id : String)
  /-- Logs a label and a number, evaluated only if the message is worth reporting. -/
  | logLabelled (ctx : ContextName) (s : Severity) (c : Component) (label : String) (n : Int)
  | setFunction (hook : Option Hook)
  | enableCode (code : Int32)
  | disableCode (code : Int32)
  | levelCode (code : Int32)
  /-- Sets what the calling callback runs. -/
  | setCallerScript (ops : List Op)
  /-- Writes an open message to a forwarding backend outside any context. -/
  | forward (id message : String)
  | installForwarder (id : String) (ctx : ContextName)
  /-- Runs operations on a new thread and waits for it. -/
  | thread (ops : List Op)
  /-- Runs operations on a new thread, and more of them when its own state, if it has any, is gone. -/
  | threadExit (ops exit : List Op)
  /-- Logs from several threads. -/
  | parallel (ctx : ContextName) (threads each : Nat) (s : Severity) (c : Component)
  | panic (text : String)

end

/-- A backend of the program's own that tells its name at once. -/
def BackendSpec.scripted (tag : String) (onWrite onFlush onDestroy : List Op) : BackendSpec :=
  .custom tag onWrite onFlush onDestroy []

instance : Inhabited BackendSpec := ⟨.tracing⟩

instance : Inhabited BuildStep := ⟨.backend .tracing⟩

instance : Inhabited Op := ⟨.panic ""⟩

end GatedLog
