import GatedLog.Answer

/-!
# Happenings

Everything that happens in a run: what the backends receive and when they are destroyed, the events
that are emitted, the calls that are made, and the answers.
-/

namespace GatedLog

/-- The identity of what a memory backend captures into. -/
abbrev HandleId := Nat

/-- What a backend does with what it receives. -/
inductive BackendKind where
  | memory (handle : HandleId)
  | forwarding (hook : Option Hook)
  | tracing
  | console (layout : ConsoleLayout) (buffer : Option String)
  | custom (tag : String) (onWrite onFlush onDestroy onName : List Op)

/-- A backend; no two backends of a run have the same serial number. -/
structure Backend where
  serial : Nat
  kind : BackendKind

/-- The name of a backend. -/
def Backend.name (b : Backend) : String :=
  match b.kind with
  | .memory _ => "memory"
  | .forwarding _ => "forwarding"
  | .tracing => "tracing"
  | .console _ _ => "console"
  | .custom tag _ _ _ _ => tag

/-- A field of an event. -/
inductive FieldValue where
  | text (s : String)
  | number (n : Nat)
  deriving DecidableEq, Repr

/-- An event: five that the facility emits about itself, and one for every statement that a tracing
backend receives. -/
inductive Event where
  | installed (backend : String)
  | installIgnored (backend : String)
  | removed
  | removalIgnored
  | configured (g : Gate)
  | callRejected (function : String) (why : Rejection)
  | statement (s : Severity) (c : Component) (text : String)
  deriving DecidableEq, Repr

namespace Event

/-- The level of an event: what was ignored or rejected is a warning. -/
def level : Event → Severity
  | installed _ => .debug
  | installIgnored _ => .warning
  | removed => .debug
  | removalIgnored => .warning
  | configured _ => .debug
  | callRejected _ _ => .warning
  | statement s _ _ => s

/-- The part of the facility that an event comes from. -/
def target : Event → String
  | configured _ => "hdfspp_log::builder"
  | callRejected _ _ => "hdfspp_log::ffi"
  | statement _ _ _ => "hdfspp"
  | _ => "hdfspp_log::context"

/-- The fields of an event. -/
def fields : Event → List (String × FieldValue)
  | installed b => [("backend", .text b), ("message", .text "installed log backend")]
  | installIgnored b =>
    [("backend", .text b),
      ("message", .text "ignored backend install from inside the running backend")]
  | removed => [("message", .text "removed log backend")]
  | removalIgnored =>
    [("message", .text "ignored backend removal from inside the running backend")]
  | configured g =>
    [("message", .text "logging configured from environment"), ("threshold", .text g.threshold.name),
      ("mask", .number g.mask.bits.toNat)]
  | callRejected f why =>
    [("message", .text "rejected logging configuration call"), ("function", .text f),
      ("error", .text why.message)]
  | statement _ c text => [("component", .text c.name), ("message", .text text)]

end Event

/-- Something that happens in a run. -/
inductive Happening where
  | emitted (e : Event)
  | called (hook : Hook) (r : ForeignRecord)
  /-- A context hands a message to its backend. -/
  | delivered (c : ContextId) (b : Backend) (m : Message)
  /-- A context flushes its backend. -/
  | flushed (c : ContextId) (b : Backend)
  | destroyed (b : Backend)
  | bufferFlushed (buffer : String)
  /-- A message is made, still empty. -/
  | made (m : Message)
  /-- Values are added to the message of a serial number. -/
  | added (message : Nat) (ps : List Part)
  /-- A value is rendered for the message of a serial number. -/
  | rendered (message : Nat) (p : Part)
  /-- A message comes to its end. -/
  | dropped (m : Message)
  /-- A line appears on the terminal. -/
  | printed (line : String)
  /-- An operation of a script ends. -/
  | noted (a : Answer)
  /-- An operation of the program ends. -/
  | answered (a : Answer)

end GatedLog
