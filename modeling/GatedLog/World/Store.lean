import GatedLog.Console.Redaction
import GatedLog.World.Backends

/-!
# Operations without backends

Operations that look at a context or adjust its gate, and operations on what lies around the
contexts. Each is one change of the world with an answer; nothing else happens.
-/

namespace GatedLog.World

/-- Looks at a context or adjusts its gate. -/
def applyContext (w : World) (c : ContextId) : ContextOp → World × Answer
  | .shouldLog s k => (w, .truth (w.shouldLog c s k))
  | .gate => (w, .gate ((w.visible c).map (·.gate)))
  | .name => (w, .name ((w.visible c).map (·.backend.name)))
  | .enable k => (w.configure c (·.enable k), .nothing)
  | .disable k => (w.configure c (·.disable k), .nothing)
  | .setThreshold s => (w.configure c (·.setThreshold s), .nothing)
  | .setGate g => (w.configure c fun _ => g, .nothing)

/-- What a handle holds. -/
def captured (w : World) (h : HandleId) : List Captured := (w.captures[h]?.getD []).reverse

/-- Empties a handle. -/
def clearHandle (w : World) (h : HandleId) : World :=
  { w with captures := w.captures.modify h fun _ => [] }

/-- The octets of a buffer without what differs from run to run. -/
def redactOctets (octets : List UInt8) : List UInt8 :=
  match Text.Utf8.decode? octets with
  | some s => Text.Utf8.encode (Redaction.redact s)
  | none => octets

/-- Gives a foreign record a name. -/
def putRecord (w : World) (id : String) (r : ForeignRecord) : World :=
  { w with foreign := w.foreign.put id r }

/-- Gives a forwarding backend a name. -/
def putForwarder (w : World) (id : String) (b : Backend) : World :=
  { w with forwarders := w.forwarders.put id b }

/-- Operates on the handle of a name. -/
def onHandle (w : World) (name : String) (f : World → HandleId → World × Answer) : World × Answer :=
  f (w.handle name).2 (w.handle name).1

/-- Copies a record under a name. -/
def copyRecord (w : World) (id : String) : Option ForeignRecord → World × Answer
  | none => (w, .copied none)
  | some r => (w.putRecord id r.copy, .copied (some r.copy))

/-- Operates on what lies around the contexts. -/
def applyStore (w : World) : StoreOp → World × Answer
  | .inspect id => (w, ((w.held.get? id).map Answer.message).getD .nothing)
  | .describe id => (w, ((w.held.get? id).map fun m => Answer.words m.describe).getD .nothing)
  | .records name => w.onHandle name fun w h => (w, .captured (w.captured h))
  | .take name => w.onHandle name fun w h => (w.clearHandle h, .captured (w.captured h))
  | .clear name => w.onHandle name fun w h => (w.clearHandle h, .nothing)
  | .counts name => w.onHandle name fun w h => (w, .counts (Counts.of (w.captured h)))
  | .drain id => (w.setWriter id (w.writer id).empty, .octets (redactOctets (w.writer id).kept))
  | .setWriter id limit chunk fails =>
    (w.setWriter id ((w.writer id).configure limit chunk fails), .nothing)
  | .setColors on => ({ w with colors := on }, .nothing)
  | .newRecord id text level component =>
    (w.putRecord id ⟨text, level.getD 0, component.getD 0⟩,
      .foreign ⟨text, level.getD 0, component.getD 0⟩)
  | .copyRecord id source => w.copyRecord id (source.bind w.foreign.get?)
  | .readRecord id => (w, ((w.foreign.get? id).map Answer.foreign).getD .nothing)
  | .freeRecord none => (w, .nothing)
  | .freeRecord (some id) => ({ w with foreign := w.foreign.erase id }, .nothing)
  | .newForwarder id hook =>
    ((w.newBackend (.forwarding hook)).2.putForwarder id (w.newBackend (.forwarding hook)).1,
      .hook hook)
  | .setForwarder id hook =>
    match w.forwarders.get? id with
    | none => (w, .nothing)
    | some b => (w.putForwarder id { b with kind := .forwarding hook }, .hook hook)

end GatedLog.World
