import GatedLog.Proofs.Machine.Callbacks
import GatedLog.Proofs.Table

/-!
# What a step does with the stores

What lies around the contexts, the handles, the buffers and the foreign records, changes in two ways
only: an operation on the stores is done, or a backend is handed a message (`step_storage`). Every
other step leaves it alone; new handles are empty.

A memory backend can count on its handle being there (`State.Housed`), and what stands outside the
contexts is a forwarding backend, so what goes to any other backend is delivered by a context
(`forwards_isForwarding`).
-/

namespace GatedLog

namespace BackendKind

/-- Among `n` handles is that of the backend, if it has one. -/
def Housed (n : Nat) : BackendKind → Prop
  | memory h => h < n
  | _ => True

/-- The backend calls back, if it does anything. -/
def IsForwarding (k : BackendKind) : Prop := ∃ hook, k = forwarding hook

theorem IsForwarding.housed {k : BackendKind} (h : k.IsForwarding) (n : Nat) : k.Housed n := by
  obtain ⟨hook, rfl⟩ := h
  trivial

theorem Housed.mono {k : BackendKind} {n n' : Nat} (h : k.Housed n) (hn : n ≤ n') :
    k.Housed n' := by
  cases k with
  | memory g => exact Nat.lt_of_lt_of_le h hn
  | _ => trivial

end BackendKind

/-- Among `n` handles are those of the backends that a task is about, and what is handed a message
outside the contexts is a forwarding backend. -/
def Task.Housed (n : Nat) : Task → Prop
  | swap _ next => ∀ i, next = some i → i.backend.kind.Housed n
  | destroy b => b.kind.Housed n
  | build _ chosen _ _ _ => ∀ b, chosen = some b → b.kind.Housed n
  | forward b _ => b.kind.IsForwarding
  | _ => True

theorem Task.Housed.mono {t : Task} {n n' : Nat} (h : t.Housed n) (hn : n ≤ n') :
    t.Housed n' := by
  cases t with
  | swap c next => exact fun i hi => (h i hi).mono hn
  | destroy b => exact BackendKind.Housed.mono h hn
  | build steps chosen g gates target => exact fun b hb => (h b hb).mono hn
  | forward b m => exact h
  | _ => trivial

/-! ### Statements for backends of some kind -/

/-- What is worth reporting among the messages that are handed to backends of some kind. -/
def statementsFor (p : BackendKind → Bool) (ds : List (Backend × Message)) : List Message :=
  (ds.filter fun d => p d.1.kind && d.2.worth).map (·.2)

/-- What is worth reporting among the messages that contexts deliver to backends of some kind, in the
order in which they are delivered. -/
def deliveredTo (p : BackendKind → Bool) (hs : List Happening) : List Message :=
  statementsFor p ((deliveries hs).map (·.2))

section Statements

variable {p : BackendKind → Bool}

theorem statementsFor_append (ds es : List (Backend × Message)) :
    statementsFor p (ds ++ es) = statementsFor p ds ++ statementsFor p es := by
  rw [statementsFor, List.filter_append, List.map_append]
  rfl

theorem statementsFor_singleton (b : Backend) (m : Message) :
    statementsFor p [(b, m)] = if p b.kind && m.worth then [m] else [] := by
  rw [statementsFor, List.filter_singleton]
  cases p b.kind && m.worth <;> rfl

theorem deliveredTo_append (hs is : List Happening) :
    deliveredTo p (hs ++ is) = deliveredTo p hs ++ deliveredTo p is := by
  rw [deliveredTo, deliveries, List.filterMap_append, List.map_append, statementsFor_append]
  rfl

end Statements

namespace World

/-- The handles of the installed backends are there, and those that have names, and outside the
contexts are forwarding backends only. -/
structure Housed (w : World) : Prop where
  fitted : ∀ x ∈ w.contexts, ∀ i, x.installed = some i → i.backend.kind.Housed w.captures.length
  named : ∀ name h, w.handles.get? name = some h → h < w.captures.length
  forwarders : ∀ b ∈ w.forwarders.values, b.kind.IsForwarding

/-- From the world `w` to the world `v` the stores stay as they are, but for new handles, which are
empty, and backends still find their handles. -/
structure Keeps (w v : World) : Prop where
  captured : v.captured = w.captured
  buffers : v.buffers = w.buffers
  foreign : v.foreign = w.foreign
  copies : v.copies = w.copies
  colors : v.colors = w.colors
  clock : v.clock = w.clock
  grown : w.captures.length ≤ v.captures.length
  housed : w.Housed → v.Housed

variable {w v u : World}

namespace Keeps

theorem refl (w : World) : w.Keeps w := ⟨rfl, rfl, rfl, rfl, rfl, rfl, Nat.le_refl _, id⟩

theorem trans (h : w.Keeps v) (h' : v.Keeps u) : w.Keeps u where
  captured := h'.captured.trans h.captured
  buffers := h'.buffers.trans h.buffers
  foreign := h'.foreign.trans h.foreign
  copies := h'.copies.trans h.copies
  colors := h'.colors.trans h.colors
  clock := h'.clock.trans h.clock
  grown := Nat.le_trans h.grown h'.grown
  housed := fun hw => h'.housed (h.housed hw)

/-- Nothing but the contexts has changed. -/
theorem of_contexts {contexts : List Context}
    (h : w.Housed → ∀ x ∈ contexts, ∀ i, x.installed = some i →
      i.backend.kind.Housed w.captures.length) : w.Keeps { w with contexts := contexts } :=
  ⟨rfl, rfl, rfl, rfl, rfl, rfl, Nat.le_refl _, fun hw =>
    ⟨h hw, hw.named, hw.forwarders⟩⟩

end Keeps

/-! ### Contexts -/

/-- The backend of a context that is changed is the one it had, or its handle is there. -/
theorem keeps_modifyContext (w : World) (c : ContextId) {f : Context → Context}
    (hf : ∀ x i, (f x).installed = some i → (∃ j, x.installed = some j ∧ j.backend = i.backend) ∨
      i.backend.kind.Housed w.captures.length) : w.Keeps (w.modifyContext c f) := by
  refine .of_contexts fun hw x hx i hi => ?_
  obtain ⟨d, hd⟩ := List.mem_iff_getElem?.mp hx
  rw [List.getElem?_modify] at hd
  obtain ⟨y, hy, rfl⟩ := Option.map_eq_some_iff.mp hd
  have hmem : y ∈ w.contexts := List.mem_of_getElem? hy
  split at hi
  · rcases hf y i hi with ⟨j, hj, hb⟩ | h
    · exact hb ▸ hw.fitted y hmem j hj
    · exact h
  · exact hw.fitted y hmem i hi

theorem keeps_setLock (w : World) (c : ContextId) (on : Bool) : w.Keeps (w.setLock c on) :=
  keeps_modifyContext w c fun _ i hi => .inl ⟨i, hi, rfl⟩

theorem keeps_enter (w : World) (c : ContextId) : w.Keeps (w.enter c) := by
  have h := keeps_setLock w c true
  unfold enter
  split
  · exact h.trans ⟨rfl, rfl, rfl, rfl, rfl, rfl, Nat.le_refl _, fun hw => ⟨hw.1, hw.2, hw.3⟩⟩
  · exact h

theorem keeps_leave (w : World) (c : ContextId) (counted : Bool) : w.Keeps (w.leave c counted) := by
  have h := keeps_setLock w c false
  unfold leave
  split
  · exact h.trans ⟨rfl, rfl, rfl, rfl, rfl, rfl, Nat.le_refl _, fun hw => ⟨hw.1, hw.2, hw.3⟩⟩
  · exact h

theorem keeps_configure (w : World) (c : ContextId) (f : Gate → Gate) :
    w.Keeps (w.configure c f) := by
  unfold configure
  split
  · refine keeps_modifyContext w c fun x i hi => .inl ?_
    obtain ⟨j, hj, rfl⟩ := Option.map_eq_some_iff.mp hi
    exact ⟨j, hj, rfl⟩
  · exact .refl w

theorem keeps_applyContext (w : World) (c : ContextId) (o : ContextOp) :
    w.Keeps (w.applyContext c o).1 := by
  rcases w.applyContext_cases c o with ⟨h, -⟩ | ⟨-, h⟩
  · rw [h]
    exact .refl w
  · rw [h]
    exact keeps_configure w c _

theorem keeps_replace (w : World) (c : ContextId) {next : Option Installed}
    (h : ∀ i, next = some i → i.backend.kind.Housed w.captures.length) :
    w.Keeps (w.replace c next) :=
  keeps_modifyContext w c fun _ i hi => .inr (h i hi)

theorem keeps_addContext (w : World) (name : String) {i : Option Installed}
    (h : ∀ j, i = some j → j.backend.kind.Housed w.captures.length) :
    w.Keeps (w.addContext name i) := by
  have hadd : w.Keeps { w with contexts := w.contexts ++ [{ installed := i }] } := by
    refine .of_contexts fun hw x hx j hj => ?_
    rcases List.mem_append.mp hx with hx | hx
    · exact hw.fitted x hx j hj
    · obtain rfl := List.mem_singleton.mp hx
      exact h j hj
  exact hadd.trans ⟨rfl, rfl, rfl, rfl, rfl, rfl, Nat.le_refl _, fun hw => ⟨hw.1, hw.2, hw.3⟩⟩

theorem Housed.of_installed (hw : w.Housed) {c : ContextId} {i : Installed}
    (hi : w.installed c = some i) : i.backend.kind.Housed w.captures.length := by
  unfold installed context at hi
  cases hx : w.contexts[c]? with
  | none =>
    rw [hx] at hi
    cases hi
  | some x =>
    rw [hx] at hi
    exact hw.fitted x (List.mem_of_getElem? hx) i hi

/-! ### Handles and new backends -/

/-- A handle that is added is empty. -/
theorem keeps_addHandle (w : World) {handles : Table String HandleId}
    (h : ∀ name g, handles.get? name = some g →
      w.handles.get? name = some g ∨ g = w.captures.length) :
    w.Keeps { w with captures := w.captures ++ [[]], handles := handles } := by
  have hlen : (w.captures ++ [[]]).length = w.captures.length + 1 := by simp
  refine ⟨funext fun g => ?_, rfl, rfl, rfl, rfl, rfl, by simp, fun hw =>
    ⟨fun x hx i hi => (hw.fitted x hx i hi).mono (by simp), fun name g hg => ?_, hw.forwarders⟩⟩
  · unfold captured
    rcases Nat.lt_trichotomy g w.captures.length with hg | rfl | hg
    · rw [List.getElem?_append_left hg]
    · simp
    · rw [List.getElem?_eq_none (hlen.trans_le hg), List.getElem?_eq_none (Nat.le_of_lt hg)]
  · show g < (w.captures ++ [[]]).length
    rw [hlen]
    rcases h name g hg with hg | rfl
    · exact Nat.lt_succ_of_lt (hw.named name g hg)
    · exact Nat.lt_succ_self _

theorem get?_put_handle {handles : Table String HandleId} {name other : String} {g h : HandleId}
    (hg : (handles.put name h).get? other = some g) : handles.get? other = some g ∨ g = h := by
  by_cases ho : other = name
  · subst ho
    rw [Table.get?_put_self] at hg
    exact .inr (Option.some.inj hg).symm
  · rw [Table.get?_put_ne _ _ ho] at hg
    exact .inl hg

theorem keeps_handle (w : World) (name : String) : w.Keeps (w.handle name).2 := by
  unfold handle
  split
  · exact .refl w
  · exact keeps_addHandle w fun _ _ => get?_put_handle

theorem keeps_freshHandle (w : World) (name : Option String) : w.Keeps (w.freshHandle name).2 := by
  refine keeps_addHandle w fun other g hg => ?_
  cases name with
  | none => exact .inl hg
  | some n => exact get?_put_handle hg

theorem handle_lt (hw : w.Housed) (name : String) :
    (w.handle name).1 < (w.handle name).2.captures.length := by
  unfold handle
  split
  · next h hh => exact hw.named name h hh
  · simp

theorem keeps_newBackend (w : World) (k : BackendKind) : w.Keeps (w.newBackend k).2 :=
  ⟨rfl, rfl, rfl, rfl, rfl, rfl, Nat.le_refl _, fun hw => ⟨hw.1, hw.2, hw.3⟩⟩

theorem keeps_make (w : World) (spec : BackendSpec) : w.Keeps (w.make spec).2 := by
  cases spec with
  | memory handle name =>
    cases handle with
    | none => exact (keeps_freshHandle w name).trans (keeps_newBackend _ _)
    | some h => exact (keeps_handle w h).trans (keeps_newBackend _ _)
  | _ => exact keeps_newBackend w _

/-- A backend that has just been made finds its handle. -/
theorem housed_make (hw : w.Housed) (spec : BackendSpec) :
    (w.make spec).1.kind.Housed (w.make spec).2.captures.length := by
  cases spec with
  | memory handle name =>
    cases handle with
    | none => simp [make, freshHandle, newBackend, BackendKind.Housed]
    | some h => exact handle_lt hw h
  | _ => trivial

/-! ### What changes the stores -/

/-- A message makes no handle and takes none away. -/
theorem length_captures_receive (w : World) (m : Message) (k : BackendKind) :
    (w.receive m k).world.captures.length = w.captures.length := by
  cases hw : m.worth with
  | false => rw [receive_of_not_worth hw]
  | true =>
    cases k with
    | memory h => simp [receive, record, capture, hw]
    | forwarding hook =>
      cases hook with
      | none => simp [receive, record, hw]
      | some hook =>
        cases hook <;> simp [receive, record, call, keepCopy, hw]
    | console layout buffer => cases buffer <;> simp [receive, record, print, setWriter, hw]
    | _ => simp [receive, record, hw]

theorem housed_receive (hw : w.Housed) (m : Message) (k : BackendKind) :
    (w.receive m k).world.Housed := by
  have hlen := length_captures_receive w m k
  obtain ⟨captures, buffers, foreign, copies, hv⟩ := (w.outward_receive m k).world
  rw [hv] at hlen ⊢
  have hlen : captures.length = w.captures.length := hlen
  exact ⟨fun x hx i hi => (hw.fitted x hx i hi).mono (Nat.le_of_eq hlen.symm),
    fun name h hh => hlen.symm ▸ hw.named name h hh, hw.forwarders⟩

/-- Handles are emptied but not taken away. -/
theorem housed_clearHandle (hw : w.Housed) (h : HandleId) : (w.clearHandle h).Housed := by
  have hlen : (w.captures.modify h fun _ => []).length = w.captures.length := by simp
  exact ⟨fun x hx i hi => (hw.fitted x hx i hi).mono (Nat.le_of_eq hlen.symm),
    fun name g hg => hlen.symm ▸ hw.named name g hg, hw.forwarders⟩

theorem housed_applyStore (hw : w.Housed) (o : StoreOp) : (w.applyStore o).1.Housed ∧
    w.captures.length ≤ (w.applyStore o).1.captures.length := by
  have emptied : ∀ name, ((w.handle name).2.clearHandle (w.handle name).1).Housed ∧
      w.captures.length ≤ ((w.handle name).2.clearHandle (w.handle name).1).captures.length :=
    fun name => ⟨housed_clearHandle ((keeps_handle w name).housed hw) _,
      (keeps_handle w name).grown.trans (by simp [clearHandle])⟩
  have same : w.Housed ∧ w.captures.length ≤ w.captures.length := ⟨hw, Nat.le_refl _⟩
  cases o with
  | records name => exact ⟨(keeps_handle w name).housed hw, (keeps_handle w name).grown⟩
  | take name => exact emptied name
  | clear name => exact emptied name
  | counts name => exact ⟨(keeps_handle w name).housed hw, (keeps_handle w name).grown⟩
  | copyRecord id source =>
    simp only [applyStore]
    cases source.bind w.foreign.get? with
    | none => exact same
    | some r => exact ⟨⟨hw.1, hw.2, hw.3⟩, Nat.le_refl _⟩
  | freeRecord id =>
    cases id with
    | none => exact same
    | some id => exact ⟨⟨hw.1, hw.2, hw.3⟩, Nat.le_refl _⟩
  | newForwarder id hook =>
    refine ⟨⟨hw.1, hw.2, fun b hb => ?_⟩, Nat.le_refl _⟩
    rcases Table.mem_values_put hb with rfl | hb
    · exact ⟨hook, rfl⟩
    · exact hw.3 b hb
  | setForwarder id hook =>
    simp only [applyStore]
    cases w.forwarders.get? id with
    | none => exact same
    | some b =>
      refine ⟨⟨hw.1, hw.2, fun b' hb' => ?_⟩, Nat.le_refl _⟩
      rcases Table.mem_values_put hb' with rfl | hb'
      · exact ⟨hook, rfl⟩
      · exact hw.3 b' hb'
  | inspect id => exact same
  | describe id => exact same
  | readRecord id => exact same
  | _ => exact ⟨⟨hw.1, hw.2, hw.3⟩, Nat.le_refl _⟩

/-- A backend leaves all stores alone but its own. -/
structure OwnStore (w : World) (k : BackendKind) (v : World) : Prop where
  captured : (∀ h, k ≠ .memory h) → v.captured = w.captured
  buffers : (∀ layout id, k ≠ .console layout (some id)) → v.buffers = w.buffers
  foreign : k ≠ .forwarding (some .keeper) → v.foreign = w.foreign

theorem ownStore_receive (w : World) (m : Message) (k : BackendKind) :
    w.OwnStore k (w.receive m k).world := by
  cases hw : m.worth with
  | false =>
    rw [receive_of_not_worth hw]
    exact ⟨fun _ => rfl, fun _ => rfl, fun _ => rfl⟩
  | true =>
    cases k with
    | custom tag onWrite onFlush onDestroy onName => exact ⟨fun _ => rfl, fun _ => rfl, fun _ => rfl⟩
    | memory h =>
      simp only [receive, hw, if_true]
      exact ⟨fun hn => absurd rfl (hn h), fun _ => rfl, fun _ => rfl⟩
    | forwarding hook =>
      simp only [receive, hw, if_true]
      cases hook with
      | none => exact ⟨fun _ => rfl, fun _ => rfl, fun _ => rfl⟩
      | some hook =>
        cases hook with
        | keeper => exact ⟨fun _ => rfl, fun _ => rfl, fun hn => absurd rfl hn⟩
        | _ => exact ⟨fun _ => rfl, fun _ => rfl, fun _ => rfl⟩
    | console layout buffer =>
      simp only [receive, hw, if_true]
      cases buffer with
      | none => exact ⟨fun _ => rfl, fun _ => rfl, fun _ => rfl⟩
      | some id => exact ⟨fun _ => rfl, fun hn => absurd rfl (hn layout id), fun _ => rfl⟩
    | tracing =>
      simp only [receive, hw, if_true]
      exact ⟨fun _ => rfl, fun _ => rfl, fun _ => rfl⟩

/-- An operation on the stores leaves all stores alone but the one that it is about. -/
structure Confined (w : World) (op : StoreOp) (v : World) : Prop where
  clock : v.clock = w.clock
  captured : (∀ name, op ≠ .take name) → (∀ name, op ≠ .clear name) → v.captured = w.captured
  buffers : (∀ id, op ≠ .drain id) → (∀ id limit chunk fails, op ≠ .setWriter id limit chunk fails) →
    v.buffers = w.buffers
  foreign : (∀ id text level component, op ≠ .newRecord id text level component) →
    (∀ id source, op ≠ .copyRecord id source) → (∀ id, op ≠ .freeRecord id) → v.foreign = w.foreign

theorem confined_applyStore (w : World) (op : StoreOp) : w.Confined op (w.applyStore op).1 := by
  have looked : ∀ name op, w.Confined op (w.handle name).2 := fun name op =>
    have h := keeps_handle w name
    ⟨h.clock, fun _ _ => h.captured, fun _ _ => h.buffers, fun _ _ _ => h.foreign⟩
  cases op with
  | records name => exact looked name _
  | counts name => exact looked name _
  | take name =>
    have h := looked name (.take name)
    exact ⟨h.clock, fun hn _ => absurd rfl (hn name), h.buffers, h.foreign⟩
  | clear name =>
    have h := looked name (.clear name)
    exact ⟨h.clock, fun _ hn => absurd rfl (hn name), h.buffers, h.foreign⟩
  | drain id => exact ⟨rfl, fun _ _ => rfl, fun hn _ => absurd rfl (hn id), fun _ _ _ => rfl⟩
  | setWriter id limit chunk fails =>
    exact ⟨rfl, fun _ _ => rfl, fun _ hn => absurd rfl (hn id limit chunk fails), fun _ _ _ => rfl⟩
  | newRecord id text level component =>
    exact ⟨rfl, fun _ _ => rfl, fun _ _ => rfl, fun hn _ _ => absurd rfl (hn id text level component)⟩
  | copyRecord id source =>
    simp only [applyStore]
    cases source.bind w.foreign.get? <;>
      exact ⟨rfl, fun _ _ => rfl, fun _ _ => rfl, fun _ hn _ => absurd rfl (hn id source)⟩
  | freeRecord id =>
    cases id <;> exact ⟨rfl, fun _ _ => rfl, fun _ _ => rfl, fun _ _ hn => absurd rfl (hn _)⟩
  | setForwarder id hook =>
    simp only [applyStore]
    cases w.forwarders.get? id <;> exact ⟨rfl, fun _ _ => rfl, fun _ _ => rfl, fun _ _ _ => rfl⟩
  | _ => exact ⟨rfl, fun _ _ => rfl, fun _ _ => rfl, fun _ _ _ => rfl⟩

end World

namespace State

/-- The stores stay as they are, and the tasks that come in front of the agenda find their handles. -/
structure Keeps (s : State) (o : Outcome) : Prop where
  world : s.world.Keeps o.1.world
  pushes : ∃ ps, o.1.agenda = ps ++ s.agenda ∧ ∀ p ∈ ps, p.Housed o.1.world.captures.length

/-! ### Steps that leave the stores alone -/

section Keeping

variable {s : State}

namespace Keeps

/-- Tasks in front of the agenda. -/
theorem pushing (ps : List Task) {w : World} {a : Answer} {k : Condition} {l : List Bool}
    {hs : List Happening} (hw : s.world.Keeps w) (hp : ∀ p ∈ ps, p.Housed w.captures.length) :
    s.Keeps (⟨w, ps ++ s.agenda, a, k, l⟩, hs) := ⟨hw, ps, rfl, hp⟩

/-- No task at all. -/
theorem staying {w : World} {a : Answer} {k : Condition} {l : List Bool} {hs : List Happening}
    (hw : s.world.Keeps w) : s.Keeps (⟨w, s.agenda, a, k, l⟩, hs) :=
  pushing [] hw (by simp)

/-- What concerns neither contexts nor handles nor backends outside the contexts. -/
theorem aside {held : Table String Message} {messages : Nat} {a : Answer} {k : Condition}
    {l : List Bool} {hs : List Happening} (ps : List Task)
    (hp : ∀ p ∈ ps, p.Housed s.world.captures.length) :
    s.Keeps (⟨{ s.world with held := held, messages := messages }, ps ++ s.agenda, a, k, l⟩, hs) :=
  pushing ps ⟨rfl, rfl, rfl, rfl, rfl, rfl, Nat.le_refl _, fun hw => ⟨hw.1, hw.2, hw.3⟩⟩ hp

theorem register {o : Outcome} (h : s.Keeps o) : s.Keeps (o.1.register, o.2) :=
  ⟨h.world, h.pushes⟩

theorem accessing {c : ContextId} {granted refused : Outcome} (hg : s.Keeps granted)
    (hr : s.Keeps refused) : s.Keeps (s.accessing c granted refused) := by
  unfold State.accessing
  cases s.world.access c with
  | granted => exact hg.register
  | refused => exact hr
  | blocked => exact staying (.refl _)

theorem withHeld (id : String) {next : Message → Outcome} (h : ∀ m, s.Keeps (next m)) :
    s.Keeps (s.withHeld id next) := by
  unfold State.withHeld
  cases s.world.held.get? id with
  | none => exact staying (.refl _)
  | some m => exact h m

theorem withForwarder (id : String) {next : Backend → Outcome}
    (h : ∀ b, s.world.forwarders.get? id = some b → s.Keeps (next b)) :
    s.Keeps (s.withForwarder id next) := by
  unfold State.withForwarder
  cases hb : s.world.forwarders.get? id with
  | none => exact staying (.refl _)
  | some b => exact h b hb

theorem onContext (c : ContextId) (o : ContextOp) (answer : Answer → Answer) :
    s.Keeps (s.onContext c o answer) := by
  have hw := World.keeps_applyContext s.world c o
  refine accessing ?_ (staying hw)
  cases s.world.asked c o with
  | nil => exact staying hw
  | cons op ops =>
    exact pushing [_, _, _] (hw.trans (World.keeps_setLock _ c true)) (by simp [Task.Housed])

theorem byCode (function : String) (o : Except Rejection ContextOp) :
    s.Keeps (s.byCode function o) := by
  cases o with
  | error why => exact staying (.refl _)
  | ok o => exact onContext World.global o fun _ => .status 0

theorem making (c : ContextId) (sev : Severity) (k : Component) (parts : List Part)
    {next : State → Message → State}
    (h : ∀ m hs, s.Keeps (next (s.withWorld s.world.countMessage) m, hs)) :
    s.Keeps (s.making c sev k parts next) :=
  accessing (h _ _) (h _ _)

/-- A new context around a backend that finds its handle. -/
theorem creating {ctx : String} {b : Backend} {g : Gate} {w : World} {a : Answer} {k : Condition}
    {l : List Bool} (hw : s.world.Keeps w) (hb : b.kind.Housed w.captures.length) :
    s.Keeps (⟨w.addContext ctx (some ⟨g, b⟩), s.agenda, a, k, l⟩, []) := by
  refine staying (hw.trans (World.keeps_addContext w ctx fun i hi => ?_))
  obtain rfl := Option.some.inj hi
  exact hb

/-- A backend that finds its handle is about to be installed. -/
theorem installing {c : ContextId} {b : Backend} {g : Gate} {w : World} {a a' : Answer}
    {k : Condition} {l : List Bool} (hw : s.world.Keeps w)
    (hb : b.kind.Housed w.captures.length) :
    s.Keeps (⟨w, [.swap c (some ⟨g, b⟩), .respond a'] ++ s.agenda, a, k, l⟩, []) := by
  refine pushing [_, _] hw (List.forall_mem_cons.mpr ⟨fun i hi => ?_,
    List.forall_mem_singleton.mpr trivial⟩)
  obtain rfl := Option.some.inj hi
  exact hb

end Keeps

/-- What a task owns finds its handle. -/
theorem housed_of_owned {t : Task} {n : Nat} (h : t.Housed n) {b : Backend}
    (hb : owned t = some b) : b.kind.Housed n := by
  cases t with
  | swap c next =>
    obtain ⟨i, hi, rfl⟩ := Option.map_eq_some_iff.mp hb
    exact h i hi
  | destroy b' =>
    obtain rfl := Option.some.inj hb
    exact h
  | build steps chosen g gates target => exact h b hb
  | _ => cases hb

/-- What is about to be destroyed, and what comes after it. -/
theorem housed_destroying {b : Option Backend} {q : Task} {n : Nat}
    (hb : ∀ b', b = some b' → b'.kind.Housed n) (hq : q.Housed n) :
    ∀ p ∈ destroying b ++ [q], p.Housed n := by
  intro p hp
  rcases List.mem_append.mp hp with hp | hp
  · obtain ⟨b', hb', rfl⟩ : ∃ b', b = some b' ∧ Task.destroy b' = p := by
      simpa [destroying] using hp
    exact hb b' hb'
  · rw [List.mem_singleton.mp hp]
    exact hq

/-- Most tasks are about no backend. -/
theorem housed_crews {c : ContextId} {threads each : Nat} {sev : Severity} {k : Component}
    {n : Nat} : ∀ p ∈ crews c threads each sev k ++ [.respond .nothing], p.Housed n := by
  intro p hp
  rcases List.mem_append.mp hp with hp | hp
  · obtain ⟨i, -, rfl⟩ := List.mem_map.mp hp
    trivial
  · rw [List.mem_singleton.mp hp]
    trivial

theorem begin_keeps (hs : s.world.Housed) {o : Op} (ho : ∀ op, o ≠ .onStore op) :
    s.Keeps (s.begin o) := by
  cases o with
  | onContext ctx o => exact .onContext _ o id
  | onStore op => exact absurd rfl (ho op)
  | create ctx spec g =>
    cases spec with
    | none => exact .staying (World.keeps_addContext _ ctx (by simp))
    | some spec => exact .creating (World.keeps_make _ spec) (World.housed_make hs spec)
  | build ctx steps => exact .pushing [_] (.refl _) (by simp [Task.Housed])
  | buildInto ctx steps => exact .pushing [_] (.refl _) (by simp [Task.Housed])
  | install ctx spec g => exact .installing (World.keeps_make _ spec) (World.housed_make hs spec)
  | remove ctx => exact .pushing [_, _] (.refl _) (by simp [Task.Housed])
  | flush ctx => exact .pushing [_, _] (.refl _) (by simp [Task.Housed])
  | log ctx sev k parts =>
    rw [State.begin]
    exact .making _ sev k parts fun m hs => .aside [_, _] (by simp [Task.Housed])
  | hold id ctx sev k parts =>
    rw [State.begin]
    refine .making _ sev k parts fun m hs => .aside _ fun p hp => ?_
    rcases List.mem_append.mp hp with hp | hp
    · obtain ⟨m', -, rfl⟩ := Option.map_eq_some_iff.mp (Option.mem_toList.mp hp)
      trivial
    · rw [List.mem_singleton.mp hp]
      trivial
  | add id parts => exact .withHeld id fun m => .aside [] (by simp)
  | write ctx id => exact .withHeld id fun m => .pushing [_, _] (.refl _) (by simp [Task.Housed])
  | finish id => exact .withHeld id fun m => .aside [_, _] (by simp [Task.Housed])
  | logLabelled ctx sev k label n =>
    rw [State.begin]
    exact .making _ sev k _ fun m hs => .aside [_, _] (by simp [Task.Housed])
  | setFunction hook =>
    exact .installing (World.keeps_make _ (.forwarding hook))
      (World.housed_make hs (.forwarding hook))
  | enableCode code => exact .byCode _ _
  | disableCode code => exact .byCode _ _
  | levelCode code => exact .byCode _ _
  | setCallerScript ops =>
    exact .staying ⟨rfl, rfl, rfl, rfl, rfl, rfl, Nat.le_refl _, fun hw => ⟨hw.1, hw.2, hw.3⟩⟩
  | forward id message =>
    refine .withForwarder id fun b hb => .withHeld message fun m => ?_
    exact .pushing [_, _] (.refl _) (List.forall_mem_cons.mpr
      ⟨hs.forwarders b (Table.mem_values_of_get? hb), List.forall_mem_singleton.mpr trivial⟩)
  | installForwarder id ctx =>
    refine .withForwarder id fun b hb => ?_
    have hkind := hs.forwarders b (Table.mem_values_of_get? hb)
    exact .installing ⟨rfl, rfl, rfl, rfl, rfl, rfl, Nat.le_refl _, fun hw =>
      ⟨hw.1, hw.2, fun b' hb' => hw.3 b' (Table.mem_values_erase hb')⟩⟩ (hkind.housed _)
  | thread ops => exact .pushing [_] (.refl _) (by simp [Task.Housed])
  | threadExit ops exit => exact .pushing [_] (.refl _) (by simp [Task.Housed])
  | parallel ctx threads each sev k => exact .pushing _ (.refl _) housed_crews
  | panic text => exact .staying (.refl _)

/-- A step of a builder chooses a backend that finds its handle. -/
theorem keeps_of_chose {w v : World} {g g' : Gate} {b : Backend} {step : BuildStep}
    (hw : w.Housed) (h : buildStep w g step = .chose v b g') :
    w.Keeps v ∧ b.kind.Housed v.captures.length := by
  have made : ∀ spec, (w.make spec).2 = v → (w.make spec).1 = b →
      w.Keeps v ∧ b.kind.Housed v.captures.length := by
    rintro spec rfl rfl
    exact ⟨World.keeps_make w spec, World.housed_make hw spec⟩
  cases step with
  | backend spec =>
    obtain ⟨hv, hb, -⟩ := Built.chose.inj h
    exact made spec hv hb
  | settings document =>
    simp only [buildStep] at h
    split at h
    · obtain ⟨hv, hb, -⟩ := Built.chose.inj h
      exact made _ hv hb
    · cases h
  | environment level components =>
    simp only [buildStep] at h
    cases he : Environment.apply g level components <;> rw [he] at h <;> cases h
  | environmentOctets level components =>
    simp only [buildStep] at h
    cases he : Environment.applyOctets g level components <;> rw [he] at h <;> cases h
  | _ => cases h

theorem build_keeps (hs : s.world.Housed) {chosen : Option Backend} (g : Gate) (gates : List Gate)
    (target : Target) (steps : List BuildStep)
    (hc : ∀ b, chosen = some b → b.kind.Housed s.world.captures.length) :
    s.Keeps (s.build chosen g gates target steps) := by
  cases steps with
  | nil =>
    obtain ⟨hw, hb⟩ : s.world.Keeps (chosenBackend s.world chosen).2 ∧
        (chosenBackend s.world chosen).1.kind.Housed
          (chosenBackend s.world chosen).2.captures.length := by
      cases chosen with
      | none => exact ⟨World.keeps_make _ (.console {} none), trivial⟩
      | some b => exact ⟨.refl _, hc b rfl⟩
    cases target with
    | create ctx => exact .creating hw hb
    | install c => exact .installing hw hb
  | cons step steps =>
    simp only [State.build]
    split
    · next w b g' h =>
      obtain ⟨hw, hb⟩ := keeps_of_chose hs h
      refine .pushing _ hw (housed_destroying (fun b' hb' => (hc b' hb').mono hw.grown) ?_)
      rintro b' hb'
      obtain rfl := Option.some.inj hb'
      exact hb
    · exact .pushing [_] (.refl _) (List.forall_mem_singleton.mpr hc)
    · exact .pushing [_] (.refl _) (List.forall_mem_singleton.mpr hc)
    · exact .pushing _ (.refl _) (housed_destroying hc trivial)

theorem flush_keeps (c : ContextId) : s.Keeps (s.flush c) := by
  refine .accessing ?_ (.staying (.refl _))
  cases s.world.installed c with
  | none => exact .staying (.refl _)
  | some i =>
    have hflushed : ((s.world.enter c).flushed i.backend.kind).world = s.world.enter c := by
      cases i.backend.kind with
      | console layout buffer => cases buffer <;> rfl
      | _ => rfl
    refine .pushing [_, _] ?_ (by simp [Task.Housed])
    rw [hflushed]
    exact World.keeps_enter s.world c

theorem swap_keeps (hs : s.world.Housed) (c : ContextId) {next : Option Installed}
    (hn : ∀ i, next = some i → i.backend.kind.Housed s.world.captures.length) :
    s.Keeps (s.swap c next) := by
  have hw := World.keeps_replace s.world c hn
  refine .accessing (.pushing _ hw (housed_destroying (fun b hb => ?_) trivial))
    (.pushing _ (.refl _) (housed_destroying (fun b hb => ?_) trivial))
  · obtain ⟨i, hi, rfl⟩ := Option.map_eq_some_iff.mp hb
    exact (hs.of_installed hi).mono hw.grown
  · obtain ⟨i, hi, rfl⟩ := Option.map_eq_some_iff.mp hb
    exact hn i hi

/-- Most tasks leave the stores alone. -/
theorem perform_keeps (hs : s.world.Housed) {t : Task} (ht : t.Housed s.world.captures.length)
    (hstore : ∀ op, t ≠ .begin (.onStore op)) (hdrop : ∀ m, t ≠ .drop m)
    (hwrite : ∀ c m, t ≠ .write c m) (hforward : ∀ b m, t ≠ .forward b m) :
    s.Keeps (s.perform t) := by
  -- the thread that runs may be another one
  have turned : ∀ (thread : Thread) (threads : Nat),
      s.world.Keeps { s.world with thread := thread, threads := threads } := fun _ _ =>
    ⟨rfl, rfl, rfl, rfl, rfl, rfl, Nat.le_refl _, fun hw => ⟨hw.1, hw.2, hw.3⟩⟩
  cases t with
  | program ops =>
    cases ops with
    | nil => exact .staying (.refl _)
    | cons o os => exact .pushing [_, _, _] (.refl _) (by simp [Task.Housed])
  | report => exact .staying (.refl _)
  | script ops =>
    cases ops with
    | nil => exact .staying (.refl _)
    | cons o os => exact .pushing [_, _, _] (.refl _) (by simp [Task.Housed])
  | note => exact .staying (.refl _)
  | collect ops answers =>
    cases ops with
    | nil => exact .staying (.refl _)
    | cons o os => exact .pushing [_, _] (.refl _) (by simp [Task.Housed])
  | gather ops answers => exact .pushing [_] (.refl _) (by simp [Task.Housed])
  | «begin» o => exact begin_keeps hs fun op ho => hstore op (congrArg Task.begin ho)
  | respond a => exact .staying (.refl _)
  | drop m => exact absurd rfl (hdrop m)
  | write c m => exact absurd rfl (hwrite c m)
  | flush c => exact flush_keeps c
  | leave c counted => exact .staying (World.keeps_leave _ c counted)
  | unlock c => exact .staying (World.keeps_setLock _ c false)
  | swap c next => exact swap_keeps hs c ht
  | destroy b => exact .pushing [_] (.refl _) (by simp [Task.Housed])
  | emit e => exact .staying (.refl _)
  | build steps chosen g gates target => exact build_keeps hs g gates target steps ht
  | forward b m => exact absurd rfl (hforward b m)
  | fork ops => exact .pushing [_, _] (turned _ _) (by simp [Task.Housed])
  | crew c sev k thread count => exact .pushing [_, _] (turned _ _) (by simp [Task.Housed])
  | numbered c sev k thread first count =>
    cases count with
    | zero => exact .staying (.refl _)
    | succ rest =>
      rw [perform]
      exact .making c sev k _ fun m hs => .aside [_, _] (by simp [Task.Housed])
  | forkExit ops exit => exact .pushing [_, _, _] (turned _ _) (by simp [Task.Housed])
  | exit ops =>
    simp only [perform]
    split
    · refine .pushing [_, _] ?_ (by simp [Task.Housed])
      unfold departing
      split
      · exact turned _ _
      · exact .refl _
    · exact .staying (.refl _)
  | pair alive =>
    simp only [perform]
    split <;> exact .staying (.refl _)
  | join waiting => exact .staying (turned waiting s.world.threads)
  | resume text => exact .staying (.refl _)

/-- Whatever is given up leaves the stores alone. -/
theorem unwind_keeps (text : String) {t : Task} (ht : t.Housed s.world.captures.length) :
    s.Keeps (s.unwind text t) := by
  have give : s.Keeps (s.giveUp text (owned t)) := by
    cases ho : owned t with
    | none => exact .staying (.refl _)
    | some b =>
      exact .pushing [_, _] (.refl _) (List.forall_mem_cons.mpr
        ⟨housed_of_owned ht ho, List.forall_mem_singleton.mpr trivial⟩)
  cases t with
  | leave c counted => exact .staying (World.keeps_leave _ c counted)
  | unlock c => exact .staying (World.keeps_setLock _ c false)
  | join waiting =>
    exact .staying ⟨rfl, rfl, rfl, rfl, rfl, rfl, Nat.le_refl _, fun hw => ⟨hw.1, hw.2, hw.3⟩⟩
  | report => exact .staying (.refl _)
  | resume text' => exact .staying (.refl _)
  | _ => exact give

end Keeping

/-! ### Steps that change the stores -/

/-- The operation on the stores that is done next. -/
def storeOp? (s : State) : Option StoreOp :=
  match s.condition, s.agenda with
  | .running, .begin (.onStore op) :: _ => some op
  | _, _ => none

/-- What a step comes to, as far as the stores are concerned. -/
inductive Storage (s : State) : Prop
  /-- They stay as they are. -/
  | kept (hn : s.storeOp? = none) (hh : s.handed = []) (hw : s.world.Keeps s.step.1.world)
  /-- An operation on them is done. -/
  | operated (op : StoreOp) (hn : s.storeOp? = some op) (hh : s.handed = [])
    (hw : s.step.1.world = (s.world.applyStore op).1)
    (hanswer : s.step.1.answer = (s.world.applyStore op).2)
  /-- A backend is handed a message. -/
  | received (b : Backend) (m : Message) (v : World) (hn : s.storeOp? = none)
    (hh : s.handed = [(b, m)]) (hb : b.kind.Housed s.world.captures.length)
    (hv : s.world.Keeps v) (hstamp : v.stamp = s.world.stamp)
    (hw : s.step.1.world = (v.receive m b.kind).world)

/-- Every backend finds its handle. -/
structure Housed (s : State) : Prop where
  world : s.world.Housed
  agenda : ∀ t ∈ s.agenda, t.Housed s.world.captures.length

variable {s : State}

/-- What a step does when an operation on the stores is next. -/
theorem step_of_storeOp {op : StoreOp} (hn : s.storeOp? = some op) :
    s.step.1.world = (s.world.applyStore op).1 ∧ s.step.1.answer = (s.world.applyStore op).2 := by
  unfold storeOp? at hn
  split at hn
  · next op' ts hc ha =>
    obtain rfl := Option.some.inj hn
    rw [step_of_running hc ha]
    exact ⟨rfl, rfl⟩
  · cases hn

theorem housed_start (program : Program) : Housed (start program) where
  world := {
    fitted := by
      intro x hx i hi
      obtain rfl := List.mem_singleton.mp hx
      obtain rfl := Option.some.inj hi
      trivial
    named := fun name h hh => nomatch hh
    forwarders := fun b hb => nomatch hb }
  agenda := fun t ht => by
    obtain rfl := List.mem_singleton.mp ht
    trivial

/-- What goes on with a sound world and sound tasks in front of the agenda. -/
theorem Housed.of_pushes (ps : List Task) {ts : List Task} {o : Outcome}
    (hts : ∀ t ∈ ts, t ∈ s.agenda) (h : s.Housed) (hw : o.1.world.Housed)
    (hg : s.world.captures.length ≤ o.1.world.captures.length)
    (ha : o.1.agenda = ps ++ ts) (hp : ∀ p ∈ ps, p.Housed o.1.world.captures.length) :
    o.1.Housed := by
  refine ⟨hw, fun t ht => ?_⟩
  rcases List.mem_append.mp (ha ▸ ht) with ht | ht
  · exact hp t ht
  · exact (h.agenda t (hts t ht)).mono hg

/-- A message that is written reaches the backend of the context, if the thread gets at one. -/
theorem write_cases (s : State) (c : ContextId) (m : Message) :
    (s.Keeps (s.write c m) ∧ deliveries (s.write c m).2 = []) ∨
      ∃ i : Installed, s.world.installed c = some i ∧
        deliveries (s.write c m).2 = [(c, i.backend, m)] ∧
        (s.write c m).1.world = ((s.world.enter c).receive m i.backend.kind).world ∧
        ∃ ops counted, (s.write c m).1.agenda = [.script ops, .leave c counted] ++ s.agenda := by
  have hd := write_deliveries s c m
  unfold State.write State.accessing World.visible at *
  cases hc : s.world.access c with
  | granted =>
    cases hi : s.world.installed c with
    | none => exact .inl ⟨.staying (.refl _), rfl⟩
    | some i =>
      right
      rw [hc, hi] at hd
      exact ⟨i, rfl, hd, rfl, _, _, rfl⟩
  | refused => exact .inl ⟨.staying (.refl _), rfl⟩
  | blocked => exact .inl ⟨.staying (.refl _), rfl⟩

/-- A task that leaves the stores alone, and what the state comes to. -/
theorem Keeps.storage {t : Task} {ts : List Task} (h : s.Housed) (ha : s.agenda = t :: ts)
    (hs : ({ s with agenda := ts } : State).Keeps s.step) (hn : s.storeOp? = none)
    (hh : s.handed = []) : s.Storage ∧ s.step.1.Housed := by
  obtain ⟨hw, ps, hps, hp⟩ := hs
  exact ⟨.kept hn hh hw, .of_pushes _ (fun u hu => ha ▸ List.mem_cons_of_mem _ hu) h
    (hw.housed h.world) hw.grown hps hp⟩

/-- A context that hands over a message. -/
theorem write_storage {t : Task} {ts : List Task} (h : s.Housed) (ha : s.agenda = t :: ts)
    {c : ContextId} {m : Message} (hn : s.storeOp? = none) (hf : s.forwards = [])
    (hstep : s.step.1 = (({ s with agenda := ts } : State).write c m).1)
    (hd : deliveries s.step.2 = deliveries (({ s with agenda := ts } : State).write c m).2) :
    s.Storage ∧ s.step.1.Housed := by
  rcases ({ s with agenda := ts } : State).write_cases c m with
    ⟨⟨hw, hps⟩, hq⟩ | ⟨i, hi, hq, hw, ops, counted, hps⟩
  · rw [← hstep] at hw hps
    refine Keeps.storage h ha ⟨hw, hps⟩ hn ?_
    rw [handed, hd, hq, hf]
    rfl
  · rw [← hstep] at hw hps
    have henter := World.keeps_enter s.world c
    refine ⟨.received i.backend m (s.world.enter c) hn ?_ (h.world.of_installed hi) henter ?_ hw,
      ?_⟩
    · rw [handed, hd, hq, hf]
      rfl
    · unfold World.enter
      split <;> rfl
    · have hworld : s.step.1.world.Housed := hw ▸ World.housed_receive (henter.housed h.world) m _
      have hlen : s.world.captures.length ≤ s.step.1.world.captures.length := by
        rw [hw, World.length_captures_receive]
        exact henter.grown
      exact .of_pushes _ (fun u hu => ha ▸ List.mem_cons_of_mem _ hu) h hworld hlen hps
        (by simp [Task.Housed])

/-- Where nothing goes on the stores stay as they are. -/
theorem halted_storage (h : s.Housed) (hs : s.halted = true) (hn : s.storeOp? = none)
    (hf : s.forwards = []) : s.Storage ∧ s.step.1.Housed := by
  have hstep := step_of_halted hs
  refine ⟨.kept hn ?_ ?_, ?_⟩
  · rw [handed, hstep, hf]
    rfl
  · rw [hstep]
    exact .refl _
  · rw [hstep]
    exact h

section Running

variable {t : Task} {ts : List Task} {b : Backend} {m : Message} (h : s.Housed)
  (hc : s.condition = .running)

include h hc

/-- Most tasks hand nothing over and leave the stores alone. -/
theorem aside_storage (ha : s.agenda = t :: ts) (hstore : ∀ op, t ≠ .begin (.onStore op))
    (hdrop : ∀ m, t ≠ .drop m) (hwrite : ∀ c m, t ≠ .write c m)
    (hforward : ∀ b m, t ≠ .forward b m) : s.Storage ∧ s.step.1.Housed := by
  have hperform : s.step = ({ s with agenda := ts } : State).perform t := step_of_running hc ha
  have ht : t.Housed s.world.captures.length := h.agenda t (ha ▸ List.mem_cons_self ..)
  have hf : s.forwards = [] := by
    rw [forwards, hc, ha]
    split
    · next b m us _ he => exact absurd (List.cons.inj he).1 (hforward b m)
    · rfl
  refine Keeps.storage h ha ?_ ?_ ?_
  · rw [hperform]
    exact perform_keeps (s := { s with agenda := ts }) h.world ht hstore hdrop hwrite hforward
  · rw [storeOp?, hc, ha]
    split
    · next op us _ he => exact absurd (List.cons.inj he).1 (hstore op)
    · rfl
  · rw [handed, hf, hperform, deliveries_of_aside (perform_aside _ hdrop hwrite hforward)]
    rfl

theorem onStore_storage {op : StoreOp} (ha : s.agenda = .begin (.onStore op) :: ts) :
    s.Storage ∧ s.step.1.Housed := by
  have hperform : s.step = ({ s with agenda := ts } : State).perform (.begin (.onStore op)) :=
    step_of_running hc ha
  obtain ⟨hw, hlen⟩ := World.housed_applyStore h.world op
  refine ⟨.operated op (by rw [storeOp?, hc, ha]) ?_ (by rw [hperform]; rfl)
    (by rw [hperform]; rfl), ?_⟩
  · rw [handed, forwards, hc, ha, hperform]
    rfl
  · rw [hperform]
    exact .of_pushes [] (fun u hu => ha ▸ List.mem_cons_of_mem _ hu) h hw hlen rfl (by simp)

/-- A message that ends is written if it is worth reporting. -/
theorem drop_storage (ha : s.agenda = .drop m :: ts) : s.Storage ∧ s.step.1.Housed := by
  have hperform : s.step = ({ s with agenda := ts } : State).drop m := step_of_running hc ha
  have hn : s.storeOp? = none := by rw [storeOp?, hc, ha]
  have hf : s.forwards = [] := by rw [forwards, hc, ha]
  cases hw : m.worth with
  | false =>
    have hstep : s.step = ({ s with agenda := ts }, [.dropped m]) := by
      rw [hperform, State.drop, hw]
      rfl
    refine Keeps.storage h ha ?_ hn ?_
    · rw [hstep]
      exact .staying (.refl _)
    · rw [handed, hstep, hf]
      rfl
  | true =>
    have hstep : s.step = ((({ s with agenda := ts } : State).write m.context m).1,
        .dropped m :: (({ s with agenda := ts } : State).write m.context m).2) := by
      rw [hperform, State.drop, hw]
      rfl
    exact write_storage h ha hn hf (by rw [hstep]) (by rw [hstep]; rfl)

/-- A backend outside the contexts that is handed a message. -/
theorem forward_storage (ha : s.agenda = .forward b m :: ts) : s.Storage ∧ s.step.1.Housed := by
  have hperform : s.step = ({ s with agenda := ts } : State).perform (.forward b m) :=
    step_of_running hc ha
  have hb : b.kind.IsForwarding := h.agenda (.forward b m) (ha ▸ List.mem_cons_self ..)
  have hhanded : s.handed = [(b, m)] := by
    rw [handed, forwards, hc, ha, hperform]
    exact congrArg (·.map Prod.snd ++ [(b, m)])
      (deliveries_of_minor (s.world.outward_receive m b.kind).minor)
  have hw : s.step.1.world = (s.world.receive m b.kind).world := by
    rw [hperform]
    rfl
  refine ⟨.received b m s.world (by rw [storeOp?, hc, ha]) hhanded (hb.housed _) (.refl _) rfl hw,
    ?_⟩
  rw [hperform]
  exact .of_pushes [_] (fun u hu => ha ▸ List.mem_cons_of_mem _ hu) h
    (World.housed_receive h.world m _) (Nat.le_of_eq (World.length_captures_receive ..).symm)
    rfl (by simp [Task.Housed])

end Running

theorem unwind_storage (h : s.Housed) {text : String} (hc : s.condition = .unwinding text)
    {t : Task} {ts : List Task} (ha : s.agenda = t :: ts) : s.Storage ∧ s.step.1.Housed := by
  have hunwind : s.step = ({ s with agenda := ts } : State).unwind text t := by
    simp only [step, hc, ha]
  have hf : s.forwards = [] := by rw [forwards, hc]
  refine Keeps.storage h ha ?_ (by rw [storeOp?, hc]) ?_
  · rw [hunwind]
    exact unwind_keeps text (h.agenda t (ha ▸ List.mem_cons_self ..))
  · rw [handed, hf, hunwind, deliveries_of_aside (unwind_aside _ text t)]
    rfl

/-- What a step does with the stores, where every backend finds its handle; and it leaves that so. -/
theorem step_storage (h : s.Housed) : s.Storage ∧ s.step.1.Housed := by
  cases hc : s.condition with
  | running =>
    cases ha : s.agenda with
    | nil =>
      exact halted_storage h (halted_of_agenda ha) (by rw [storeOp?, ha, hc])
        (by rw [forwards, ha, hc])
    | cons t ts =>
      cases t with
      | «begin» o =>
        cases o with
        | onStore op => exact onStore_storage h hc ha
        | _ => exact aside_storage h hc ha (by simp) (by simp) (by simp) (by simp)
      | drop m => exact drop_storage h hc ha
      | write c m =>
        have hperform : s.step = ({ s with agenda := ts } : State).write c m :=
          step_of_running hc ha
        exact write_storage h ha (by rw [storeOp?, hc, ha]) (by rw [forwards, hc, ha])
          (by rw [hperform]) (by rw [hperform])
      | forward b m => exact forward_storage h hc ha
      | _ => exact aside_storage h hc ha (by simp) (by simp) (by simp) (by simp)
  | unwinding text =>
    cases ha : s.agenda with
    | nil =>
      exact halted_storage h (halted_of_agenda ha) (by rw [storeOp?, hc]) (by rw [forwards, hc])
    | cons t ts => exact unwind_storage h hc ha
  | blocked =>
    exact halted_storage h (halted_of_condition (.inl hc)) (by rw [storeOp?, hc])
      (by rw [forwards, hc])
  | aborted =>
    exact halted_storage h (halted_of_condition (.inr hc)) (by rw [storeOp?, hc])
      (by rw [forwards, hc])

theorem housed_run (program : Program) (n : Nat) : Housed (run n (start program)).1 :=
  run_induction (P := Housed) (fun _ h => (step_storage h).2) n (housed_start program)

/-- Outside the contexts only forwarding backends are handed anything. -/
theorem Housed.forwards_isForwarding (h : s.Housed) {b : Backend} {m : Message}
    (hf : (b, m) ∈ s.forwards) : b.kind.IsForwarding := by
  unfold forwards at hf
  split at hf
  · next b' m' ts hc ha =>
    obtain ⟨rfl, rfl⟩ := Prod.mk.inj (List.mem_singleton.mp hf)
    exact h.agenda (.forward b m) (ha ▸ List.mem_cons_self ..)
  · cases hf

/-- What is worth reporting of what goes to other backends is delivered by a context. -/
theorem Housed.deliveredTo_eq (h : s.Housed) {p : BackendKind → Bool}
    (hp : ∀ hook, p (.forwarding hook) = false) :
    deliveredTo p s.step.2 = statementsFor p s.handed := by
  have hnone : statementsFor p s.forwards = [] := by
    refine List.map_eq_nil_iff.mpr (List.filter_eq_nil_iff.mpr fun ⟨b, m⟩ hf => ?_)
    obtain ⟨hook, hk⟩ := h.forwards_isForwarding hf
    simp [hk, hp]
  rw [handed, statementsFor_append, hnone, List.append_nil]
  rfl

end State

end GatedLog
