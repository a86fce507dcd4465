import GatedLog.Proofs.Machine.Agenda

/-!
# What a step can do

`Move s t o` lists what performing the task `t` can come to: how the contexts, the thread and the
messages change, which tasks come in front of the agenda, and what happens. Every step of the
machine is such a move (`step_move`); the invariants of the runs are derived from the moves and no
longer from the definitions of the operations.
-/

namespace GatedLog

/-- Not the beginning or the end of a message, nor what is added to it or rendered for it, nor its way
to a backend, nor a flush. -/
def Happening.isMinor : Happening → Bool
  | made _ => false
  | added _ _ => false
  | rendered _ _ => false
  | dropped _ => false
  | delivered _ _ _ => false
  | flushed _ _ => false
  | _ => true

/-- What a backend of the library does can be noticed outside: a statement or a line appears, a
callback is called, a buffer is flushed. -/
def Happening.isOutward : Happening → Bool
  | emitted (.statement _ _ _) => true
  | called _ _ => true
  | printed _ => true
  | bufferFlushed _ => true
  | _ => false

theorem Happening.isMinor_of_isOutward {e : Happening} (h : e.isOutward = true) :
    e.isMinor = true := by
  cases e <;> first | rfl | cases h

/-- The context and the backend whose run begins. -/
def Happening.begins? : Happening → Option (ContextId × Backend)
  | delivered c b _ => some (c, b)
  | flushed c b => some (c, b)
  | _ => none

/-- What an operation on a context answers to a thread that does not get at it. -/
def ContextOp.denied : ContextOp → Answer
  | .shouldLog _ _ => .truth false
  | .gate => .gate none
  | .name => .name none
  | _ => .nothing

namespace World

/-- Two worlds with the same contexts, the same thread and the same messages. -/
structure Alike (w v : World) : Prop where
  contexts : v.contexts = w.contexts
  thread : v.thread = w.thread
  held : v.held = w.held
  messages : v.messages = w.messages

namespace Alike

variable {w v u : World}

theorem refl (w : World) : Alike w w := ⟨rfl, rfl, rfl, rfl⟩

theorem trans (h : Alike w v) (h' : Alike v u) : Alike w u :=
  ⟨h'.contexts.trans h.contexts, h'.thread.trans h.thread, h'.held.trans h.held,
    h'.messages.trans h.messages⟩

theorem context (h : Alike w v) (c : ContextId) : v.context c = w.context c := by
  rw [World.context, h.contexts, World.context]

theorem installed (h : Alike w v) (c : ContextId) : v.installed c = w.installed c := by
  rw [World.installed, h.context, World.installed]

theorem access (h : Alike w v) (c : ContextId) : v.access c = w.access c := by
  unfold World.access
  rw [h.thread, h.context]

end Alike

/-! ### What backends of the library do -/

/-- Other contents of the handles, the buffers and the foreign records. -/
def refill (w : World) (captures : List (List Captured)) (buffers : Table String Writer)
    (foreign : Table String ForeignRecord) (copies : Nat) : World :=
  { w with captures := captures, buffers := buffers, foreign := foreign, copies := copies }

/-- A reaction that changes these contents at most, and tells the outside at most. -/
structure Outward (w : World) (r : Reaction) : Prop where
  world : ∃ captures buffers foreign copies, r.world = w.refill captures buffers foreign copies
  happenings : ∀ e ∈ r.happenings, e.isOutward = true

theorem Outward.none (w : World) (ops : List Op) : Outward w { world := w, ops := ops } :=
  ⟨⟨_, _, _, _, rfl⟩, fun _ h => absurd h List.not_mem_nil⟩

theorem Outward.telling {w v : World} {e : Happening} {ops : List Op}
    (hv : ∃ captures buffers foreign copies, v = w.refill captures buffers foreign copies)
    (he : e.isOutward = true) : Outward w { world := v, happenings := [e], ops := ops } :=
  ⟨hv, List.forall_mem_singleton.mpr he⟩

theorem outward_record (w : World) (m : Message) (k : BackendKind) : Outward w (w.record m k) := by
  have silent : ∀ e ∈ ([] : List Happening), e.isOutward = true := fun _ h =>
    absurd h List.not_mem_nil
  cases k with
  | memory h => exact ⟨⟨_, _, _, _, rfl⟩, silent⟩
  | tracing => exact .telling ⟨_, _, _, _, rfl⟩ rfl
  | forwarding hook =>
    cases hook with
    | none => exact .none w []
    | some hook => cases hook <;> exact .telling ⟨_, _, _, _, rfl⟩ rfl
  | console layout buffer =>
    cases buffer with
    | none => exact .telling ⟨_, _, _, _, rfl⟩ rfl
    | some id => exact ⟨⟨_, _, _, _, rfl⟩, silent⟩
  | custom tag onWrite onFlush onDestroy onName => exact .none w []

theorem outward_receive (w : World) (m : Message) (k : BackendKind) :
    Outward w (w.receive m k) := by
  unfold receive
  split
  · exact .none w _
  · split
    · exact outward_record w m _
    · exact .none w []

theorem outward_flushed (w : World) (k : BackendKind) : Outward w (w.flushed k) := by
  unfold flushed
  split
  · exact .none w _
  · exact .telling ⟨_, _, _, _, rfl⟩ rfl
  · exact .none w []

theorem Outward.alike {w : World} {r : Reaction} (h : Outward w r) : Alike w r.world := by
  obtain ⟨_, _, _, _, hw⟩ := h.world
  rw [hw]
  exact ⟨rfl, rfl, rfl, rfl⟩

theorem Outward.minor {w : World} {r : Reaction} (h : Outward w r) :
    ∀ e ∈ r.happenings, e.isMinor = true := fun e he =>
  Happening.isMinor_of_isOutward (h.happenings e he)

/-! ### Functions that leave contexts, thread and messages alone -/

theorem alike_handle (w : World) (name : String) : Alike w (w.handle name).2 := by
  unfold handle
  split
  · exact .refl w
  · exact ⟨rfl, rfl, rfl, rfl⟩

theorem alike_newBackend (w : World) (k : BackendKind) : Alike w (w.newBackend k).2 :=
  ⟨rfl, rfl, rfl, rfl⟩

theorem alike_make (w : World) (spec : BackendSpec) : Alike w (w.make spec).2 := by
  cases spec with
  | memory handle name =>
    cases handle with
    | none => exact ⟨rfl, rfl, rfl, rfl⟩
    | some h => exact (alike_handle w h).trans (alike_newBackend _ _)
  | _ => exact ⟨rfl, rfl, rfl, rfl⟩

theorem alike_onHandle {w : World} {name : String} {f : World → HandleId → World × Answer}
    (hf : ∀ w h, Alike w (f w h).1) : Alike w (w.onHandle name f).1 :=
  (alike_handle w name).trans (hf _ _)

theorem alike_applyStore (w : World) (o : StoreOp) : Alike w (w.applyStore o).1 := by
  cases o with
  | records name => exact alike_onHandle fun w h => .refl w
  | take name => exact alike_onHandle fun w h => ⟨rfl, rfl, rfl, rfl⟩
  | clear name => exact alike_onHandle fun w h => ⟨rfl, rfl, rfl, rfl⟩
  | counts name => exact alike_onHandle fun w h => .refl w
  | copyRecord id source =>
    simp only [applyStore]
    cases source.bind w.foreign.get? <;> exact ⟨rfl, rfl, rfl, rfl⟩
  | freeRecord id => cases id <;> exact ⟨rfl, rfl, rfl, rfl⟩
  | setForwarder id hook =>
    simp only [applyStore]
    cases w.forwarders.get? id <;> exact ⟨rfl, rfl, rfl, rfl⟩
  | _ => exact ⟨rfl, rfl, rfl, rfl⟩

/-! ### Contexts that a thread does not get at -/

theorem shouldLog_of_not_granted {w : World} {c : ContextId} (h : w.access c ≠ .granted)
    (s : Severity) (k : Component) : w.shouldLog c s k = false := by
  simp [shouldLog, visible_of_not_granted h]

theorem applyContext_of_not_granted {w : World} {c : ContextId} (h : w.access c ≠ .granted)
    (o : ContextOp) : w.applyContext c o = (w, o.denied) := by
  cases o <;> simp [applyContext, ContextOp.denied, shouldLog_of_not_granted h,
    visible_of_not_granted h, configure_of_not_granted h]

/-! ### Backends that are asked for their names -/

/-- A backend that runs no operations for its name can be asked for it like for anything else. -/
theorem asked_of_installed {w : World} {c : ContextId} {i : Installed} {o : ContextOp}
    (hi : w.installed c = some i) (hn : o = .name → nameOps i.backend.kind = []) :
    w.asked c o = [] := by
  cases o with
  | name =>
    rw [asked, hi]
    exact hn rfl
  | _ => rfl

/-- An operation on a context has a backend run operations only if it asks for its name. -/
theorem asked_cases (w : World) (c : ContextId) (o : ContextOp) :
    w.asked c o = [] ∨ (w.applyContext c o).1 = w ∧ ∃ i op ops,
      w.installed c = some i ∧ nameOps i.backend.kind = op :: ops ∧ w.asked c o = op :: ops := by
  cases o with
  | name =>
    rw [asked]
    cases hi : w.installed c with
    | none => exact .inl rfl
    | some i =>
      cases hn : nameOps i.backend.kind with
      | nil => exact .inl hn
      | cons op ops => exact .inr ⟨rfl, i, op, ops, rfl, hn, hn⟩
  | _ => exact .inl rfl

end World

namespace State

/-- The tasks `ps` have come in front of the agenda, and the world is like `w`. The thread may have
got at a context. -/
structure Leads (s : State) (w : World) (ps : List Task) (o : Outcome) : Prop where
  agenda : o.1.agenda = ps ++ s.agenda
  alike : World.Alike w o.1.world
  registered : o.1.registered = s.registered ∨ o.1.registered = s.register.registered

theorem Leads.register {s : State} {w : World} {ps : List Task} {o : Outcome}
    (h : s.Leads w ps o) : s.Leads w ps (o.1.register, o.2) := by
  refine ⟨h.agenda, h.alike, .inr ?_⟩
  rcases h.registered with hl | hl
  · exact congrArg (List.modifyHead _) hl
  · exact (congrArg (List.modifyHead _) hl).trans (congrArg State.registered s.register_register)

/-- How the backend of a context starts to run: the task, and what happens first. -/
inductive Entry (b : Backend) : ContextId → Task → List Happening → Prop
  | write (c : ContextId) (m : Message) : Entry b c (.write c m) [.delivered c b m]
  | flush (c : ContextId) : Entry b c (.flush c) [.flushed c b]
  | drop (m : Message) (hm : m.worth = true) :
    Entry b m.context (.drop m) [.dropped m, .delivered m.context b m]

/-- What performing a task comes to. -/
inductive Move (s : State) (t : Task) (o : Outcome) : Prop
  /-- Nothing that concerns contexts, threads or messages. -/
  | routine (ps : List Task) (ht : t.isPlain = true) (hp : ∀ p ∈ ps, p.isOrdinary = true)
    (h : s.Leads s.world ps o) (hq : ∀ e ∈ o.2, e.isMinor = true)
  | configured (c : ContextId) (f : Gate → Gate) (ht : t.isPlain = true)
    (hc : s.world.access c = .granted) (h : s.Leads (s.world.configure c f) [] o) (hq : o.2 = [])
  | created (name : String) (i : Option Installed) (ht : t.isPlain = true)
    (h : s.Leads (s.world.addContext name i) [] o) (hq : o.2 = [])
  | swapped (c : ContextId) (next : Option Installed) (ps : List Task) (ht : t = .swap c next)
    (hc : s.world.access c = .granted) (hp : ∀ p ∈ ps, p.isOrdinary = true)
    (h : s.Leads (s.world.replace c next) ps o) (hq : o.2 = [])
  | entered (c : ContextId) (i : Installed) (first rest : List Happening) (ops : List Op)
    (ht : Entry i.backend c t first) (hc : s.world.access c = .granted)
    (hi : s.world.installed c = some i)
    (h : s.Leads (s.world.enter c) [.script ops, .leave c s.world.thread.tracking] o)
    (hq : o.2 = first ++ rest) (hr : ∀ e ∈ rest, e.isMinor = true)
    (hg : o.1.registered = s.register.registered)
  | left (c : ContextId) (counted : Bool) (ht : t = .leave c counted)
    (h : s.Leads (s.world.leave c counted) [] o) (hq : o.2 = [])
  /-- A backend is asked for its name. -/
  | asked (c : ContextId) (i : Installed) (op : Op) (ops : List Op) (a : Answer)
    (ht : t.isPlain = true) (hc : s.world.access c = .granted)
    (hi : s.world.installed c = some i) (hn : World.nameOps i.backend.kind = op :: ops)
    (h : s.Leads (s.world.setLock c true) [.script (op :: ops), .unlock c, .respond a] o)
    (hq : o.2 = [])
  | unlocked (c : ContextId) (ht : t = .unlock c) (h : s.Leads (s.world.setLock c false) [] o)
    (hq : o.2 = [])
  | forked (p : Task) (exit : Option (List Op)) (ht : t.isPlain = true) (hp : p.isOrdinary = true)
    (h : s.enlist.Leads s.world.startThread
      (p :: ((exit.map Task.exit).toList ++ [.join s.world.thread])) o) (hq : o.2 = [])
  | lost (ops : List Op) (ps : List Task) (ht : t = .exit ops) (hp : ∀ p ∈ ps, p.isOrdinary = true)
    (h : s.Leads s.world.loseTrack ps o) (hq : o.2 = []) (hg : s.registered.headD false = true)
  | joined (u : Thread) (ht : t = .join u) (h : s.discharge.Leads (s.world.resumeThread u) [] o)
    (hq : o.2 = [])
  | opened (c : ContextId) (sev : Severity) (k : Component) (parts : List Part) (ps : List Task)
    (ht : t.isPlain = true) (hc : s.world.access c ≠ .blocked)
    (hp : ∀ p ∈ ps, p.isOrdinary = true)
    (h : s.Leads s.world.countMessage
      (.drop ((s.world.newMessage c sev k).appendAll parts) :: ps) o)
    (hr : o.1.condition = .running)
    (hq : o.2 = .made (s.world.newMessage c sev k) :: additions (s.world.newMessage c sev k) parts)
  | kept (id : String) (c : ContextId) (sev : Severity) (k : Component) (parts : List Part)
    (a : Answer) (ht : t.isPlain = true) (hc : s.world.access c ≠ .blocked)
    (h : s.Leads (s.world.countMessage.hold id ((s.world.newMessage c sev k).appendAll parts))
      (((s.world.held.get? id).map Task.drop).toList ++ [.respond a]) o)
    (hr : o.1.condition = .running)
    (hq : o.2 = .made (s.world.newMessage c sev k) :: additions (s.world.newMessage c sev k) parts)
  | extended (id : String) (m : Message) (parts : List Part) (ht : t.isPlain = true)
    (hm : s.world.held.get? id = some m)
    (h : s.Leads (s.world.hold id (m.appendAll parts)) [] o) (hq : o.2 = additions m parts)
  | closed (id : String) (m : Message) (a : Answer) (ht : t.isPlain = true)
    (hm : s.world.held.get? id = some m)
    (h : s.Leads { s.world with held := s.world.held.erase id } [.drop m, .respond a] o)
    (hr : o.1.condition = .running) (hq : o.2 = [])
  /-- The end of a message that reaches no backend. -/
  | ended (m : Message) (ht : t = .drop m)
    (hm : m.worth = false ∨ s.world.access m.context ≠ .granted ∨
      s.world.installed m.context = none)
    (h : s.Leads s.world [] o) (hq : o.2 = [.dropped m])

namespace Move

variable {s : State} {t : Task} {o : Outcome}

/-- Tasks in front of the agenda, and a world like the one before. -/
theorem pushing (ps : List Task) {w : World} {a : Answer} {k : Condition} {hs : List Happening}
    (ht : t.isPlain = true) (hp : ∀ p ∈ ps, p.isOrdinary = true) (hw : World.Alike s.world w)
    (hq : ∀ e ∈ hs, e.isMinor = true) :
    Move s t (⟨w, ps ++ s.agenda, a, k, s.registered⟩, hs) :=
  .routine ps ht hp ⟨rfl, hw, .inl rfl⟩ hq

/-- No task and nothing that happens. -/
theorem idle {w : World} {a : Answer} {k : Condition} (ht : t.isPlain = true)
    (hw : World.Alike s.world w) : Move s t (⟨w, s.agenda, a, k, s.registered⟩, []) :=
  .routine [] ht (by simp) ⟨rfl, hw, .inl rfl⟩ (by simp)

/-- A thread may have got at a context in any move. -/
theorem register (h : Move s t o) : Move s t (o.1.register, o.2) := by
  cases h with
  | routine ps ht hp h hq => exact .routine ps ht hp h.register hq
  | configured c f ht hc h hq => exact .configured c f ht hc h.register hq
  | created name i ht h hq => exact .created name i ht h.register hq
  | swapped c next ps ht hc hp h hq => exact .swapped c next ps ht hc hp h.register hq
  | entered c i first rest ops ht hc hi h hq hr hg =>
    exact .entered c i first rest ops ht hc hi h.register hq hr
      ((congrArg (List.modifyHead _) hg).trans (congrArg State.registered s.register_register))
  | left c counted ht h hq => exact .left c counted ht h.register hq
  | asked c i op ops a ht hc hi hn h hq => exact .asked c i op ops a ht hc hi hn h.register hq
  | unlocked c ht h hq => exact .unlocked c ht h.register hq
  | forked p exit ht hp h hq => exact .forked p exit ht hp h.register hq
  | lost ops ps ht hp h hq hg => exact .lost ops ps ht hp h.register hq hg
  | joined u ht h hq => exact .joined u ht h.register hq
  | opened c sev k parts ps ht hc hp h hr hq =>
    exact .opened c sev k parts ps ht hc hp h.register hr hq
  | kept id c sev k parts a ht hc h hr hq => exact .kept id c sev k parts a ht hc h.register hr hq
  | extended id m parts ht hm h hq => exact .extended id m parts ht hm h.register hq
  | closed id m a ht hm h hr hq => exact .closed id m a ht hm h.register hr hq
  | ended m ht hm h hq => exact .ended m ht hm h.register hq

/-- A thread that has to wait for a context stops where it is. -/
theorem accessing {c : ContextId} {granted refused : Outcome} (ht : t.isPlain = true)
    (hg : s.world.access c = .granted → Move s t granted)
    (hr : s.world.access c = .refused → Move s t refused) :
    Move s t (s.accessing c granted refused) := by
  unfold State.accessing
  cases h : s.world.access c with
  | granted => exact (hg h).register
  | refused => exact hr h
  | blocked => exact idle ht (.refl _)

end Move

/-! ### The moves of the operations -/

section Moves

variable {s : State} {t : Task}

theorem onContext_move (ht : t.isPlain = true) (c : ContextId) (o : ContextOp)
    (answer : Answer → Answer) : Move s t (s.onContext c o answer) := by
  refine .accessing ht (fun hc => ?_) fun hc => ?_
  · rcases s.world.asked_cases c o with ha | ⟨hw, i, op, ops, hi, hn, ha⟩
    · rw [ha, asking]
      cases o with
      | enable k => exact .configured c (·.enable k) ht hc ⟨rfl, .refl _, .inl rfl⟩ rfl
      | disable k => exact .configured c (·.disable k) ht hc ⟨rfl, .refl _, .inl rfl⟩ rfl
      | setThreshold sev =>
        exact .configured c (·.setThreshold sev) ht hc ⟨rfl, .refl _, .inl rfl⟩ rfl
      | setGate g => exact .configured c (fun _ => g) ht hc ⟨rfl, .refl _, .inl rfl⟩ rfl
      | _ => exact .idle ht (.refl _)
    · rw [ha, hw]
      exact .asked c i op ops _ ht hc hi hn ⟨rfl, .refl _, .inl rfl⟩ rfl
  · rw [World.applyContext_of_not_granted (by simp [hc])]
    exact .idle ht (.refl _)

theorem installing_move (ht : t.isPlain = true) (c : ContextId) {made : Backend × World} (g : Gate)
    (hw : World.Alike s.world made.2) : Move s t (s.installing c made g) :=
  .pushing [_, _] ht (by simp [Task.isOrdinary]) hw (by simp)

theorem making_move (ht : t.isPlain = true) (c : ContextId) (sev : Severity) (k : Component)
    (parts : List Part) {next : State → Message → State}
    (h : s.world.access c ≠ .blocked → ∀ hs,
      hs = .made (s.world.newMessage c sev k) :: additions (s.world.newMessage c sev k) parts →
      Move s t (next (s.withWorld s.world.countMessage)
        ((s.world.newMessage c sev k).appendAll parts), hs)) :
    Move s t (s.making c sev k parts next) :=
  .accessing ht (fun hc => h (fun hb => nomatch hc.symm.trans hb) _ rfl)
    fun hc => h (fun hb => nomatch hc.symm.trans hb) _ rfl

theorem withHeld_move (ht : t.isPlain = true) (id : String) {next : Message → Outcome}
    (h : ∀ m, s.world.held.get? id = some m → Move s t (next m)) : Move s t (s.withHeld id next) := by
  unfold withHeld
  cases hm : s.world.held.get? id with
  | none => exact .idle ht (.refl _)
  | some m => exact h m hm

theorem withForwarder_move (ht : t.isPlain = true) (id : String) {next : Backend → Outcome}
    (h : ∀ b, Move s t (next b)) : Move s t (s.withForwarder id next) := by
  unfold withForwarder
  cases s.world.forwarders.get? id with
  | none => exact .idle ht (.refl _)
  | some b => exact h b

theorem byCode_move (ht : t.isPlain = true) (function : String) (o : Except Rejection ContextOp) :
    Move s t (s.byCode function o) := by
  cases o with
  | error why => exact .pushing [] ht (by simp) (.refl _) (by simp [Happening.isMinor])
  | ok o => exact onContext_move ht World.global o fun _ => .status 0

theorem isOrdinary_of_mem_destroying {b : Option Backend} {p : Task} (hp : p ∈ destroying b) :
    p.isOrdinary = true := by
  cases b <;> simp_all [destroying, Task.isOrdinary]

theorem isOrdinary_of_mem_crews {c : ContextId} {threads each : Nat} {sev : Severity}
    {k : Component} {p : Task} (hp : p ∈ crews c threads each sev k) : p.isOrdinary = true := by
  obtain ⟨n, -, rfl⟩ := List.mem_map.mp hp
  rfl

theorem begin_move {s : State} (hr : s.condition = .running) (o : Op) :
    Move s (.begin o) (s.begin o) := by
  have ht : (Task.begin o).isPlain = true := rfl
  cases o with
  | onContext ctx o => exact onContext_move ht _ o id
  | onStore o => exact .idle ht (World.alike_applyStore _ o)
  | create ctx spec g =>
    cases spec with
    | none => exact .created ctx none ht ⟨rfl, .refl _, .inl rfl⟩ rfl
    | some spec =>
      have hw := World.alike_make s.world spec
      exact .created ctx _ ht ⟨rfl, ⟨congrArg (· ++ _) hw.contexts, hw.thread, hw.held, hw.messages⟩, .inl rfl⟩ rfl
  | build ctx steps => exact .pushing [_] ht (by simp [Task.isOrdinary]) (.refl _) (by simp)
  | buildInto ctx steps =>
    exact .pushing [_] ht (by simp [Task.isOrdinary]) (.refl _) (by simp)
  | install ctx spec g => exact installing_move ht _ g (World.alike_make _ spec)
  | remove ctx => exact .pushing [_, _] ht (by simp [Task.isOrdinary]) (.refl _) (by simp)
  | flush ctx => exact .pushing [_, _] ht (by simp [Task.isOrdinary]) (.refl _) (by simp)
  | log ctx sev k parts =>
    rw [State.begin]
    refine making_move ht _ sev k parts fun hc hs hq => ?_
    exact .opened _ sev k parts [_] ht hc (by simp [Task.isOrdinary]) ⟨rfl, .refl _, .inl rfl⟩ hr hq
  | hold id ctx sev k parts =>
    rw [State.begin]
    refine making_move ht _ sev k parts fun hc hs hq => ?_
    exact .kept id _ sev k parts _ ht hc ⟨rfl, .refl _, .inl rfl⟩ hr hq
  | add id parts => exact withHeld_move ht id fun m hm => .extended id m parts ht hm ⟨rfl, .refl _, .inl rfl⟩ rfl
  | write ctx id =>
    exact withHeld_move ht id fun m _ =>
      .pushing [_, _] ht (by simp [Task.isOrdinary]) (.refl _) (by simp)
  | finish id => exact withHeld_move ht id fun m hm => .closed id m _ ht hm ⟨rfl, .refl _, .inl rfl⟩ hr rfl
  | logLabelled ctx sev k label n =>
    rw [State.begin]
    refine making_move ht _ sev k _ fun hc hs hq => ?_
    exact .opened _ sev k _ [_] ht hc (by simp [Task.isOrdinary]) ⟨rfl, .refl _, .inl rfl⟩ hr hq
  | setFunction hook => exact installing_move ht _ _ (World.alike_make _ _)
  | enableCode code => exact byCode_move ht _ _
  | disableCode code => exact byCode_move ht _ _
  | levelCode code => exact byCode_move ht _ _
  | setCallerScript ops => exact .idle ht ⟨rfl, rfl, rfl, rfl⟩
  | forward id message =>
    exact withForwarder_move ht id fun b => withHeld_move ht message fun m _ =>
      .pushing [_, _] ht (by simp [Task.isOrdinary]) (.refl _) (by simp)
  | installForwarder id ctx =>
    exact withForwarder_move ht id fun b => installing_move ht _ _ ⟨rfl, rfl, rfl, rfl⟩
  | thread ops => exact .pushing [_] ht (by simp [Task.isOrdinary]) (.refl _) (by simp)
  | threadExit ops exit =>
    exact .pushing [_] ht (by simp [Task.isOrdinary]) (.refl _) (by simp)
  | parallel ctx threads each sev k =>
    refine .pushing _ ht (fun p hp => ?_) (.refl _) (by simp)
    rcases List.mem_append.mp hp with h | h
    · exact isOrdinary_of_mem_crews h
    · simp_all [Task.isOrdinary]
  | panic text => exact .idle ht (.refl _)

theorem alike_of_chose {w v : World} {g g' : Gate} {b : Backend} {step : BuildStep}
    (h : buildStep w g step = .chose v b g') : World.Alike w v := by
  cases step with
  | backend spec =>
    obtain ⟨rfl, -, -⟩ := Built.chose.inj h
    exact World.alike_make w spec
  | settings document =>
    simp only [buildStep] at h
    split at h
    · obtain ⟨rfl, -, -⟩ := Built.chose.inj h
      exact World.alike_make w _
    · cases h
  | environment level components =>
    simp only [buildStep] at h
    cases he : Environment.apply g level components <;> rw [he] at h <;> cases h
  | environmentOctets level components =>
    simp only [buildStep] at h
    cases he : Environment.applyOctets g level components <;> rw [he] at h <;> cases h
  | _ => cases h

theorem build_move {s : State} (chosen : Option Backend) (g : Gate) (gates : List Gate)
    (target : Target) (steps : List BuildStep) :
    Move s (.build steps chosen g gates target) (s.build chosen g gates target steps) := by
  have ht : (Task.build steps chosen g gates target).isPlain = true := rfl
  cases steps with
  | nil =>
    have hw : World.Alike s.world (chosenBackend s.world chosen).2 := by
      cases chosen
      · exact World.alike_make _ _
      · exact .refl _
    cases target with
    | create ctx =>
      exact .created ctx _ ht ⟨rfl, ⟨congrArg (· ++ _) hw.contexts, hw.thread, hw.held, hw.messages⟩, .inl rfl⟩ rfl
    | install c => exact .pushing [_, _] ht (by simp [Task.isOrdinary]) hw (by simp)
  | cons step steps =>
    -- whatever the step comes to, the backend chosen before is destroyed or kept for the next step
    have hp : ∀ q : Task, q.isOrdinary = true → ∀ p ∈ destroying chosen ++ [q], p.isOrdinary = true := by
      intro q hq p hp
      rcases List.mem_append.mp hp with h | h
      · exact isOrdinary_of_mem_destroying h
      · rwa [List.mem_singleton.mp h]
    simp only [State.build]
    split
    · next w b g' h => exact .pushing _ ht (hp _ rfl) (alike_of_chose h) (by simp)
    · exact .pushing [_] ht (by simp [Task.isOrdinary]) (.refl _) (by simp)
    · exact .pushing [_] ht (by simp [Task.isOrdinary]) (.refl _) (by simp [Happening.isMinor])
    · exact .pushing _ ht (hp _ rfl) (.refl _) (by simp)

theorem write_move (c : ContextId) (m : Message) : Move s (.write c m) (s.write c m) := by
  refine .accessing rfl (fun hc => ?_) fun _ => .idle rfl (.refl _)
  split
  · exact .idle rfl (.refl _)
  · next i hi =>
    exact .entered c i [.delivered c i.backend m] _ _ (.write c m) hc hi
      ⟨rfl, (World.outward_receive _ m _).alike, .inr rfl⟩ rfl (World.outward_receive _ m _).minor rfl

theorem flush_move (c : ContextId) : Move s (.flush c) (s.flush c) := by
  refine .accessing rfl (fun hc => ?_) fun _ => .idle rfl (.refl _)
  split
  · exact .idle rfl (.refl _)
  · next i hi =>
    exact .entered c i [.flushed c i.backend] _ _ (.flush c) hc hi
      ⟨rfl, (World.outward_flushed _ _).alike, .inr rfl⟩ rfl (World.outward_flushed _ _).minor rfl

theorem drop_move (m : Message) : Move s (.drop m) (s.drop m) := by
  unfold State.drop
  cases hw : m.worth with
  | false => exact .ended m rfl (.inl hw) ⟨rfl, .refl _, .inl rfl⟩ rfl
  | true =>
    simp only [if_true, State.write, State.accessing]
    cases hc : s.world.access m.context with
    | blocked => exact .ended m rfl (.inr (.inl (by simp [hc]))) ⟨rfl, .refl _, .inl rfl⟩ rfl
    | refused => exact .ended m rfl (.inr (.inl (by simp [hc]))) ⟨rfl, .refl _, .inl rfl⟩ rfl
    | granted =>
      cases hi : s.world.installed m.context with
      | none => exact .ended m rfl (.inr (.inr hi)) ⟨rfl, .refl _, .inr rfl⟩ rfl
      | some i =>
        have hg := congrArg State.registered s.register_register
        exact .entered m.context i [.dropped m, .delivered m.context i.backend m] _ _ (.drop m hw)
          hc hi ⟨rfl, (World.outward_receive _ m _).alike, .inr hg⟩ rfl
          (World.outward_receive _ m _).minor hg

theorem swap_move (c : ContextId) (next : Option Installed) :
    Move s (.swap c next) (s.swap c next) := by
  have hp : ∀ (b : Option Backend) (e : Event), ∀ p ∈ destroying b ++ [.emit e],
      p.isOrdinary = true := by
    intro b e p hp
    rcases List.mem_append.mp hp with h | h
    · exact isOrdinary_of_mem_destroying h
    · rw [List.mem_singleton.mp h]; rfl
  refine .accessing rfl (fun hc => ?_) fun _ => .pushing _ rfl (hp _ _) (.refl _) (by simp)
  exact .swapped c next _ rfl hc (hp _ _) ⟨rfl, .refl _, .inl rfl⟩ rfl

theorem perform_move {s : State} (hr : s.condition = .running) (t : Task) :
    Move s t (s.perform t) := by
  cases t with
  | program ops =>
    cases ops with
    | nil => exact .idle rfl (.refl _)
    | cons o os => exact .pushing [_, _, _] rfl (by simp [Task.isOrdinary]) (.refl _) (by simp)
  | report => exact .pushing [] rfl (by simp) (.refl _) (by simp [Happening.isMinor])
  | script ops =>
    cases ops with
    | nil => exact .idle rfl (.refl _)
    | cons o os => exact .pushing [_, _, _] rfl (by simp [Task.isOrdinary]) (.refl _) (by simp)
  | note => exact .pushing [] rfl (by simp) (.refl _) (by simp [Happening.isMinor])
  | collect ops answers =>
    cases ops with
    | nil => exact .idle rfl (.refl _)
    | cons o os => exact .pushing [_, _] rfl (by simp [Task.isOrdinary]) (.refl _) (by simp)
  | gather ops answers =>
    exact .pushing [_] rfl (by simp [Task.isOrdinary]) (.refl _) (by simp)
  | «begin» o => exact begin_move hr o
  | respond a => exact .idle rfl (.refl _)
  | drop m => exact drop_move m
  | write c m => exact write_move c m
  | flush c => exact flush_move c
  | leave c counted => exact .left c counted rfl ⟨rfl, .refl _, .inl rfl⟩ rfl
  | unlock c => exact .unlocked c rfl ⟨rfl, .refl _, .inl rfl⟩ rfl
  | swap c next => exact swap_move c next
  | destroy b =>
    exact .pushing [_] rfl (by simp [Task.isOrdinary]) (.refl _) (by simp [Happening.isMinor])
  | emit e => exact .pushing [] rfl (by simp) (.refl _) (by simp [Happening.isMinor])
  | build steps chosen g gates target => exact build_move chosen g gates target steps
  | forward b m =>
    exact .pushing [_] rfl (by simp [Task.isOrdinary]) (World.outward_receive _ m _).alike
      (World.outward_receive _ m _).minor
  | fork ops => exact .forked _ none rfl rfl ⟨rfl, .refl _, .inl rfl⟩ rfl
  | crew c sev k thread count => exact .forked _ none rfl rfl ⟨rfl, .refl _, .inl rfl⟩ rfl
  | numbered c sev k thread first count =>
    cases count with
    | zero => exact .idle rfl (.refl _)
    | succ rest =>
      rw [perform]
      refine making_move rfl c sev k _ fun hc hs hq => ?_
      exact .opened c sev k _ [_] rfl hc (by simp [Task.isOrdinary]) ⟨rfl, .refl _, .inl rfl⟩ hr hq
  | forkExit ops exit => exact .forked _ (some exit) rfl rfl ⟨rfl, .refl _, .inl rfl⟩ rfl
  | exit ops =>
    simp only [perform]
    split
    · unfold departing
      split
      · next hg =>
        exact .lost ops [_, _] rfl (by simp [Task.isOrdinary]) ⟨rfl, .refl _, .inl rfl⟩ rfl hg
      · exact .pushing [_, _] rfl (by simp [Task.isOrdinary]) (.refl _) (by simp)
    · exact .idle rfl (.refl _)
  | pair alive =>
    simp only [perform]
    split <;> exact .idle rfl (.refl _)
  | join waiting => exact .joined waiting rfl ⟨rfl, .refl _, .inl rfl⟩ rfl
  | resume text => exact .idle rfl (.refl _)

theorem giveUp_move {s : State} {t : Task} (ht : t.isPlain = true) (text : String)
    (b : Option Backend) : Move s t (s.giveUp text b) := by
  cases b with
  | none => exact .idle ht (.refl _)
  | some b => exact .pushing [_, _] ht (by simp [Task.isOrdinary]) (.refl _) (by simp)

theorem unwind_move (s : State) (text : String) (t : Task) : Move s t (s.unwind text t) := by
  cases t with
  | leave c counted => exact .left c counted rfl ⟨rfl, .refl _, .inl rfl⟩ rfl
  | unlock c => exact .unlocked c rfl ⟨rfl, .refl _, .inl rfl⟩ rfl
  | join waiting => exact .joined waiting rfl ⟨rfl, .refl _, .inl rfl⟩ rfl
  | report => exact .pushing [] rfl (by simp) (.refl _) (by simp [Happening.isMinor])
  | resume text' => exact .idle rfl (.refl _)
  | _ =>
    simp only [unwind]
    exact giveUp_move rfl text _

end Moves

/-- Every step of a state that has not halted is a move. -/
theorem step_move {s : State} (h : s.halted = false) :
    ∃ t ts, s.agenda = t :: ts ∧ Move { s with agenda := ts } t s.step := by
  unfold halted at h
  split at h
  · next t ts hc ha =>
    refine ⟨t, ts, ha, ?_⟩
    simp only [step, hc, ha]
    exact perform_move rfl t
  · next text t ts hc ha =>
    refine ⟨t, ts, ha, ?_⟩
    simp only [step, hc, ha]
    exact unwind_move _ text t
  · cases h

/-- A step is a move, or it does nothing. -/
theorem step_cases (s : State) :
    s.step = (s, []) ∨ ∃ t ts, s.agenda = t :: ts ∧ Move { s with agenda := ts } t s.step := by
  by_cases h : s.halted = true
  · exact .inl (step_of_halted h)
  · exact .inr (step_move (Bool.eq_false_iff.mpr h))

/-- Where something happens there is a move. -/
theorem exists_move {s : State} {e : Happening} (he : e ∈ s.step.2) :
    ∃ t ts, s.agenda = t :: ts ∧ Move { s with agenda := ts } t s.step := by
  rcases s.step_cases with hs | hmove
  · rw [hs] at he
    exact absurd he List.not_mem_nil
  · exact hmove

/-! ### The beginning of a run -/

theorem mem_additions {m : Message} {parts : List Part} {e : Happening}
    (he : e ∈ additions m parts) : e = .added m.serial parts ∨ ∃ p, e = .rendered m.serial p := by
  rcases List.mem_cons.mp he with rfl | he
  · exact .inl rfl
  · obtain ⟨p, -, rfl⟩ := List.mem_map.mp he
    exact .inr ⟨p, rfl⟩

theorem begins?_of_mem_additions {m : Message} {parts : List Part} {e : Happening}
    (he : e ∈ additions m parts) : e.begins? = none := by
  rcases mem_additions he with rfl | ⟨p, rfl⟩ <;> rfl

/-- A backend begins to run only where something is handed to it and the thread gets at its context,
which is entered then. -/
theorem Move.entered_of_begins {s : State} {t : Task} {o : Outcome} (h : Move s t o)
    {e : Happening} (he : e ∈ o.2) {c : ContextId} {b : Backend} (hb : e.begins? = some (c, b)) :
    s.world.access c = .granted ∧ (∃ g, s.world.installed c = some ⟨g, b⟩) ∧
      (∃ first, Entry b c t first) ∧
      ∃ ops, s.Leads (s.world.enter c) [.script ops, .leave c s.world.thread.tracking] o := by
  have minor : ∀ {e : Happening}, e.isMinor = true → e.begins? ≠ some (c, b) := by
    intro e hm
    cases e <;> simp_all [Happening.isMinor, Happening.begins?]
  cases h with
  | entered d i first rest ops ht hc hi h hq hr =>
    have hfirst : e ∈ first := by
      rcases List.mem_append.mp (hq ▸ he) with h | h
      · exact h
      · exact absurd hb (minor (hr e h))
    have hcb : d = c ∧ i.backend = b := by
      cases ht <;> simp at hfirst
      · subst hfirst; simpa [Happening.begins?] using hb
      · subst hfirst; simpa [Happening.begins?] using hb
      · rcases hfirst with rfl | rfl
        · cases hb
        · simpa [Happening.begins?] using hb
    obtain ⟨rfl, rfl⟩ := hcb
    exact ⟨hc, ⟨i.gate, hi⟩, ⟨first, ht⟩, ops, h⟩
  | routine ps ht hp h hq => exact absurd hb (minor (hq e he))
  | opened d sev k parts ps ht hc hp h hr hq =>
    rcases List.mem_cons.mp (hq ▸ he) with rfl | he
    · cases hb
    · rw [begins?_of_mem_additions he] at hb
      cases hb
  | kept id d sev k parts a ht hc h hr hq =>
    rcases List.mem_cons.mp (hq ▸ he) with rfl | he
    · cases hb
    · rw [begins?_of_mem_additions he] at hb
      cases hb
  | extended id m parts ht hm h hq =>
    rw [begins?_of_mem_additions (hq ▸ he)] at hb
    cases hb
  | ended m ht hm h hq =>
    rw [hq, List.mem_singleton] at he
    subst he
    cases hb
  | _ => simp_all

end State

end GatedLog
