import GatedLog.Proofs.Machine.Delivery
import GatedLog.Proofs.Machine.Outlets
import GatedLog.Proofs.Machine.Trades

/-!
# Desks

What statements, changes of the gate and flushes on one context come to, without a word about its
backend. A desk keeps what these commands depend on, the gate and the open messages, and says which
messages are handed to the backend, whatever it is.

`Staffed p w d` ties a desk to a context of the machine that has a backend, and `Handed` says that
some messages have been handed to it in the meantime and what it has put out.
-/

namespace GatedLog

/-- A statement, a look at the gate or a change of it, or a flush, all on one context. -/
inductive Command where
  | log (s : Severity) (k : Component) (parts : List Part)
  | logLabelled (s : Severity) (k : Component) (label : String) (n : Int)
  /-- Makes a message that stays open. -/
  | hold (id : String) (s : Severity) (k : Component) (parts : List Part)
  /-- Adds values to an open message. -/
  | add (id : String) (parts : List Part)
  /-- Hands an open message to the context. -/
  | write (id : String)
  /-- Drops an open message. -/
  | finish (id : String)
  | onGate (o : ContextOp)
  | flush

/-- The operation on the context of a name. -/
def Command.op (ctx : ContextName) : Command → Op
  | log s k parts => .log ctx s k parts
  | logLabelled s k label n => .logLabelled ctx s k label n
  | hold id s k parts => .hold id ctx s k parts
  | add id parts => .add id parts
  | write id => .write ctx id
  | finish id => .finish id
  | onGate o => .onContext ctx o
  | flush => .flush ctx

/-- What commands on one context depend on: its gate, the open messages, and how many messages have
been made. -/
structure Desk where
  gate : Gate
  held : Table String Message
  messages : Nat

namespace Desk

/-- A new message with its values. -/
def draft (d : Desk) (c : ContextId) (s : Severity) (k : Component) (parts : List Part) : Message :=
  { serial := d.messages, context := c, severity := s, component := k,
    worth := d.gate.allows s k : Message }.appendAll parts

/-- A message that ends is handed over if it is worth reporting. -/
def ended (m : Message) : List Message := [m].filter (·.worth)

/-- The desk after a command, and the messages that are handed over. -/
def perform (d : Desk) (c : ContextId) : Command → Desk × List Message
  | .log s k parts => ({ d with messages := d.messages + 1 }, ended (d.draft c s k parts))
  | .logLabelled s k label n =>
    ({ d with messages := d.messages + 1 }, ended (d.draft c s k [.labelled label n]))
  | .hold id s k parts =>
    -- an open message of that name makes way, and ends
    ({ d with held := d.held.put id (d.draft c s k parts), messages := d.messages + 1 },
      (d.held.get? id).toList.flatMap ended)
  | .add id parts =>
    match d.held.get? id with
    | none => (d, [])
    | some m => ({ d with held := d.held.put id (m.appendAll parts) }, [])
  | .write id => (d, (d.held.get? id).toList)
  | .finish id =>
    match d.held.get? id with
    | none => (d, [])
    | some m => ({ d with held := d.held.erase id }, ended m)
  | .onGate o => ({ d with gate := o.retune d.gate }, [])
  | .flush => (d, [])

/-- The desk after commands, and the messages that are handed over. -/
def serve (d : Desk) (c : ContextId) : List Command → Desk × List Message
  | [] => (d, [])
  | o :: os =>
    (((d.perform c o).1.serve c os).1, (d.perform c o).2 ++ ((d.perform c o).1.serve c os).2)

end Desk

/-- A context under the name that addresses it, and its backend. -/
structure Post where
  name : ContextName
  id : ContextId
  backend : Backend

/-- The context has the backend and the desk. -/
structure Manned (p : Post) (w : World) (d : Desk) : Prop where
  lookUp : w.lookUp p.name = p.id
  granted : w.access p.id = .granted
  installed : w.installed p.id = some ⟨d.gate, p.backend⟩
  held : w.held = d.held
  messages : w.messages = d.messages
  own : ∀ m ∈ d.held.values, m.context = p.id

/-- The context has the backend, which is in order, and the desk. -/
structure Staffed (p : Post) (w : World) (d : Desk) : Prop where
  lookUp : w.lookUp p.name = p.id
  granted : w.access p.id = .granted
  installed : w.installed p.id = some ⟨d.gate, p.backend⟩
  ready : w.Ready p.backend.kind
  held : w.held = d.held
  messages : w.messages = d.messages
  own : ∀ m ∈ d.held.values, m.context = p.id

/-- Meanwhile these messages and nothing else are handed to the backend, which puts out those of
them that are worth reporting. -/
structure Handed (p : Post) (w v : World) (hs : List Happening) (ms : List Message) : Prop where
  delivered : deliveries hs = ms.map fun m => (p.id, p.backend, m)
  output : v.output hs = w.output [] ++ p.backend.kind.output w (ms.filter (·.worth))
  stamp : v.stamp = w.stamp
  colors : v.colors = w.colors

section Handing

variable {p : Post} {w v u : World} {hs ks : List Happening} {ms ns : List Message}

theorem World.access_congr {c : ContextId} (ht : v.thread = w.thread)
    (hl : (v.context c).locked = (w.context c).locked) : v.access c = w.access c := by
  unfold World.access
  rw [ht, hl]

theorem Desk.context_draft (d : Desk) (c : ContextId) (s : Severity) (k : Component)
    (parts : List Part) : (d.draft c s k parts).context = c := by
  rw [draft, Message.appendAll_eq]

theorem deliveries_of_silent (h : ∀ e ∈ hs, e.isSilent = true) : deliveries hs = [] := by
  refine List.filterMap_eq_nil_iff.mpr fun e he => ?_
  have := h e he
  cases e <;> first | rfl | cases this

theorem BackendKind.output_congr (ht : v.stamp = w.stamp) (hc : v.colors = w.colors)
    (k : BackendKind) (ms : List Message) : k.output v ms = k.output w ms := by
  cases k with
  | console layout buffer => rw [output, output, ht, hc]
  | forwarding hook => cases hook <;> rfl
  | _ => rfl

theorem Handed.of_silent (hc : v.captures = w.captures) (hb : v.buffers = w.buffers)
    (ht : v.stamp = w.stamp) (hl : v.colors = w.colors) (hq : ∀ e ∈ hs, e.isSilent = true) :
    Handed p w v hs [] where
  delivered := deliveries_of_silent hq
  output := by
    rw [World.output_of_silent hc hb hq, List.filter_nil, BackendKind.output_nil,
      Output.append_empty]
  stamp := ht
  colors := hl

/-- Nothing happens, and the outlets stay as they are. -/
theorem Handed.quiet (hc : v.captures = w.captures) (hb : v.buffers = w.buffers)
    (ht : v.stamp = w.stamp) (hl : v.colors = w.colors) : Handed p w v [] [] :=
  .of_silent hc hb ht hl fun _ h => absurd h List.not_mem_nil

theorem Handed.refl (w : World) : Handed p w w [] [] := .quiet rfl rfl rfl rfl

theorem Handed.trans (h : Handed p w v hs ms) (h' : Handed p v u ks ns) :
    Handed p w u (hs ++ ks) (ms ++ ns) where
  delivered := by
    rw [deliveries, List.filterMap_append, List.map_append, ← h.delivered, ← h'.delivered]
    rfl
  output := by
    rw [List.filter_append, BackendKind.output_append]
    refine World.output_trans h.output ?_
    rw [h'.output, BackendKind.output_congr h.stamp h.colors]
  stamp := h'.stamp.trans h.stamp
  colors := h'.colors.trans h.colors

/-- A backend that receives a message. -/
theorem Handed.receive (hk : w.Ready p.backend.kind) (m : Message) :
    Handed p w (w.receive m p.backend.kind).world
      (.delivered p.id p.backend m :: (w.receive m p.backend.kind).happenings) [m] where
  delivered := by
    have hminor : deliveries (w.receive m p.backend.kind).happenings = [] :=
      deliveries_of_minor (w.outward_receive m p.backend.kind).minor
    exact congrArg _ hminor
  output := World.output_receive hk m
  stamp := by
    obtain ⟨_, _, _, _, h⟩ := (w.outward_receive m p.backend.kind).world
    rw [h]
    rfl
  colors := by
    obtain ⟨_, _, _, _, h⟩ := (w.outward_receive m p.backend.kind).world
    rw [h]
    rfl

/-- A backend that has received a message can receive the next one. -/
theorem Staffed.receive {d : Desk} (h : Staffed p w d) (m : Message) :
    Staffed p (w.receive m p.backend.kind).world d := by
  have halike := (w.outward_receive m p.backend.kind).alike
  refine ⟨?_, (halike.access _).trans h.granted, (halike.installed _).trans h.installed,
    (World.ready_receive h.ready m).1, halike.held.trans h.held, halike.messages.trans h.messages,
    h.own⟩
  obtain ⟨_, _, _, _, hw⟩ := (w.outward_receive m p.backend.kind).world
  rw [hw]
  exact h.lookUp

section Moves

variable {d : Desk} {id : String} {m : Message}

theorem Staffed.manned (h : Staffed p w d) : Manned p w d :=
  ⟨h.lookUp, h.granted, h.installed, h.held, h.messages, h.own⟩

theorem Manned.staffed (h : Manned p w d) (hr : w.Ready p.backend.kind) : Staffed p w d :=
  ⟨h.lookUp, h.granted, h.installed, hr, h.held, h.messages, h.own⟩

theorem Manned.count (h : Manned p w d) :
    Manned p w.countMessage { d with messages := d.messages + 1 } :=
  ⟨h.lookUp, h.granted, h.installed, h.held, congrArg (· + 1) h.messages, h.own⟩

/-- The desk may count the messages anew. -/
theorem Manned.recount (h : Manned p w d) : Manned p w { d with messages := w.messages } :=
  ⟨h.lookUp, h.granted, h.installed, h.held, rfl, h.own⟩

theorem Manned.hold (h : Manned p w d) (hm : m.context = p.id) :
    Manned p (w.hold id m) { d with held := d.held.put id m } := by
  refine ⟨h.lookUp, h.granted, h.installed, congrArg (·.put id m) h.held, h.messages, ?_⟩
  intro m' hm'
  rcases Table.mem_values_put hm' with rfl | hm'
  · exact hm
  · exact h.own m' hm'

theorem Manned.erase (h : Manned p w d) (id : String) :
    Manned p { w with held := w.held.erase id } { d with held := d.held.erase id } :=
  ⟨h.lookUp, h.granted, h.installed, congrArg (·.erase id) h.held, h.messages,
    fun m hm => h.own m (Table.mem_values_erase hm)⟩

theorem Manned.configure (h : Manned p w d) (f : Gate → Gate) :
    Manned p (w.configure p.id f) { d with gate := f d.gate } := by
  have hc := World.lt_length_of_installed h.installed
  have hw : w.configure p.id f = w.modifyContext p.id fun x =>
      { x with installed := x.installed.map fun i => { i with gate := f i.gate } } :=
    if_pos h.granted
  have haccess : (w.configure p.id f).access p.id = w.access p.id :=
    World.access_congr (by rw [hw]; rfl) (World.locked_configure w p.id p.id f)
  have hinstalled : (w.configure p.id f).installed p.id = some ⟨f d.gate, p.backend⟩ := by
    have hi := h.installed
    rw [World.installed] at hi
    rw [hw, World.installed, World.context_modifyContext, if_pos ⟨rfl, hc⟩]
    simp only [hi, Option.map_some]
  rw [hw] at haccess hinstalled ⊢
  exact ⟨h.lookUp, haccess.trans h.granted, hinstalled, h.held, h.messages, h.own⟩

theorem Staffed.count (h : Staffed p w d) :
    Staffed p w.countMessage { d with messages := d.messages + 1 } :=
  h.manned.count.staffed h.ready

theorem Staffed.hold (h : Staffed p w d) (hm : m.context = p.id) :
    Staffed p (w.hold id m) { d with held := d.held.put id m } :=
  (h.manned.hold hm).staffed h.ready

theorem Staffed.erase (h : Staffed p w d) (id : String) :
    Staffed p { w with held := w.held.erase id } { d with held := d.held.erase id } :=
  (h.manned.erase id).staffed h.ready

theorem Staffed.configure (h : Staffed p w d) (f : Gate → Gate) :
    Staffed p (w.configure p.id f) { d with gate := f d.gate } := by
  refine (h.manned.configure f).staffed ?_
  unfold World.configure
  split <;> exact h.ready

theorem Handed.configure (p : Post) (w : World) (c : ContextId) (f : Gate → Gate) :
    Handed p w (w.configure c f) [] [] := by
  unfold World.configure
  split
  · exact .quiet rfl rfl rfl rfl
  · exact .refl w

end Moves

end Handing

end GatedLog
