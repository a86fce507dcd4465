import GatedLog.Proofs.Machine.Moves
import GatedLog.Proofs.Table

/-!
# What a step does with backends

A backend is owned by the context that it is installed in, or by the task that it was given to: a
builder that goes on, a swap that is next, or its destruction. `Trade s t o` lists what performing
the task `t` can come to as far as backends are concerned: where they come from, which task or
context has them afterwards and behind which gate, and which are destroyed. Every step of the
machine is such a trade (`step_trade`).
-/

namespace GatedLog

/-- Whether the gate is adjusted. -/
def ContextOp.adjusts : ContextOp → Bool
  | enable _ => true
  | disable _ => true
  | setThreshold _ => true
  | setGate _ => true
  | _ => false

/-- What a change of the gate makes of it. -/
def ContextOp.retune : ContextOp → Gate → Gate
  | enable k, g => g.enable k
  | disable k, g => g.disable k
  | setThreshold s, g => g.setThreshold s
  | setGate g, _ => g
  | _, g => g

/-- The context whose gate is adjusted. -/
def Op.adjusted? (w : World) : Op → Option ContextId
  | onContext ctx o => if o.adjusts then some (w.lookUp ctx) else none
  | enableCode _ => some World.global
  | disableCode _ => some World.global
  | levelCode _ => some World.global
  | _ => none

/-- Whether the event tells of a swap that was done or ignored. -/
def Event.isLifecycle : Event → Bool
  | installed _ => true
  | installIgnored _ => true
  | removed => true
  | removalIgnored => true
  | _ => false

namespace Task

/-- The context that a swap or a builder is aimed at. -/
def target? : Task → Option ContextId
  | swap c _ => some c
  | build _ _ _ _ (.install c) => some c
  | _ => none

end Task

namespace Happening

/-- The serial number of the backend that is destroyed. -/
def destroyed? : Happening → Option Nat
  | destroyed b => some b.serial
  | _ => none

/-- Neither the end of a backend nor the news of a swap. -/
def isMild : Happening → Bool
  | destroyed _ => false
  | emitted e => !e.isLifecycle
  | _ => true

end Happening

/-- The serial numbers of the backends that are destroyed, in their order. -/
def destroyedIn (hs : List Happening) : List Nat := hs.filterMap Happening.destroyed?

namespace World

/-- What is installed in the contexts. -/
def fitted (w : World) : List (Option Installed) := w.contexts.map (·.installed)

/-- The serial numbers of the forwarding backends that stand outside any context. -/
def outside (w : World) : List Nat := w.forwarders.values.map (·.serial)

/-- Two worlds with the same backends behind the same gates in the same contexts, and the same
backends besides. -/
structure Stocked (w v : World) : Prop where
  fitted : v.fitted = w.fitted
  names : v.names = w.names
  backends : v.backends = w.backends
  outside : v.outside.Perm w.outside

namespace Stocked

variable {w v u : World}

theorem refl (w : World) : Stocked w w := ⟨rfl, rfl, rfl, .refl _⟩

theorem trans (h : Stocked w v) (h' : Stocked v u) : Stocked w u :=
  ⟨h'.fitted.trans h.fitted, h'.names.trans h.names, h'.backends.trans h.backends,
    h'.outside.trans h.outside⟩

end Stocked

/-! ### Functions that leave backends alone -/

theorem fitted_modifyContext (w : World) (c : ContextId) {f : Context → Context}
    (hf : ∀ x, (f x).installed = x.installed) : (w.modifyContext c f).fitted = w.fitted := by
  unfold fitted modifyContext
  refine List.ext_getElem? fun i => ?_
  simp only [List.getElem?_map, List.getElem?_modify]
  split
  · cases w.contexts[i]? with
    | none => rfl
    | some x => exact congrArg some (hf x)
  · cases w.contexts[i]? <;> rfl

theorem stocked_modifyContext (w : World) (c : ContextId) {f : Context → Context}
    (hf : ∀ x, (f x).installed = x.installed) : Stocked w (w.modifyContext c f) :=
  ⟨fitted_modifyContext w c hf, rfl, rfl, .refl _⟩

theorem fitted_configure {w : World} {c : ContextId} (h : w.access c = .granted)
    (f : Gate → Gate) :
    (w.configure c f).fitted =
      w.fitted.modify c (·.map fun i => { i with gate := f i.gate }) := by
  rw [configure, if_pos h, fitted, fitted, modifyContext]
  refine List.ext_getElem? fun i => ?_
  simp only [List.getElem?_map, List.getElem?_modify]
  split <;> cases w.contexts[i]? <;> rfl

/-- An operation on a context leaves everything alone, or adjusts the gate. -/
theorem applyContext_cases (w : World) (c : ContextId) (o : ContextOp) :
    (w.applyContext c o).1 = w ∧ o.retune = id ∨
      o.adjusts = true ∧ (w.applyContext c o).1 = w.configure c o.retune := by
  cases o with
  | shouldLog s k => exact .inl ⟨rfl, rfl⟩
  | gate => exact .inl ⟨rfl, rfl⟩
  | name => exact .inl ⟨rfl, rfl⟩
  | _ => exact .inr ⟨rfl, rfl⟩

theorem stocked_setLock (w : World) (c : ContextId) (on : Bool) : Stocked w (w.setLock c on) :=
  stocked_modifyContext w c fun _ => rfl

theorem stocked_enter (w : World) (c : ContextId) : Stocked w (w.enter c) := by
  have h := stocked_setLock w c true
  unfold enter
  split
  · exact ⟨h.fitted, h.names, h.backends, h.outside⟩
  · exact h

theorem stocked_leave (w : World) (c : ContextId) (counted : Bool) :
    Stocked w (w.leave c counted) := by
  have h := stocked_setLock w c false
  unfold leave
  split
  · exact ⟨h.fitted, h.names, h.backends, h.outside⟩
  · exact h

theorem stocked_handle (w : World) (name : String) : Stocked w (w.handle name).2 := by
  unfold handle
  split
  · exact .refl w
  · exact ⟨rfl, rfl, rfl, .refl _⟩

theorem Outward.stocked {w : World} {r : Reaction} (h : Outward w r) : Stocked w r.world := by
  obtain ⟨_, _, _, _, hw⟩ := h.world
  rw [hw]
  exact ⟨rfl, rfl, rfl, .refl _⟩

theorem stocked_onHandle {w : World} {name : String} {f : World → HandleId → World × Answer}
    (hf : ∀ w h, Stocked w (f w h).1) : Stocked w (w.onHandle name f).1 :=
  (stocked_handle w name).trans (hf _ _)

theorem outside_putForwarder (w : World) {id : String} {b b' : Backend}
    (hb : w.forwarders.get? id = some b) (hs : b'.serial = b.serial) :
    (w.putForwarder id b').outside.Perm w.outside := by
  obtain ⟨rest, h₁, h₂⟩ := w.forwarders.exists_perm_put id b'
  rw [hb] at h₁
  have h₁ := h₁.map (·.serial)
  have h₂ := h₂.map (·.serial)
  rw [List.map_cons, hs] at h₂
  exact h₂.trans h₁.symm

/-- Operations around the contexts leave backends alone, or register a new forwarding backend. -/
theorem applyStore_cases (w : World) (o : StoreOp) : Stocked w (w.applyStore o).1 ∨
    (w.applyStore o).1.fitted = w.fitted ∧ (w.applyStore o).1.names = w.names ∧
      (w.applyStore o).1.backends = w.backends + 1 ∧
      (w.applyStore o).1.outside.Subperm (w.backends :: w.outside) ∧
      w.backends ∈ (w.applyStore o).1.outside := by
  cases o with
  | records name => exact .inl (stocked_onHandle fun w h => .refl w)
  | take name => exact .inl (stocked_onHandle fun w h => ⟨rfl, rfl, rfl, .refl _⟩)
  | clear name => exact .inl (stocked_onHandle fun w h => ⟨rfl, rfl, rfl, .refl _⟩)
  | counts name => exact .inl (stocked_onHandle fun w h => .refl w)
  | copyRecord id source =>
    simp only [applyStore]
    cases source.bind w.foreign.get? <;> exact .inl ⟨rfl, rfl, rfl, .refl _⟩
  | freeRecord id => cases id <;> exact .inl ⟨rfl, rfl, rfl, .refl _⟩
  | newForwarder id hook =>
    obtain ⟨rest, h₁, h₂⟩ := w.forwarders.exists_perm_put id ⟨w.backends, .forwarding hook⟩
    have h₁ := h₁.map (·.serial)
    have h₂ := h₂.map (·.serial)
    refine .inr ⟨rfl, rfl, rfl, ?_, ?_⟩
    · refine h₂.subperm.trans ((List.subperm_cons _).mpr ?_)
      rw [List.map_append] at h₁
      exact (List.sublist_append_right _ _).subperm.trans h₁.symm.subperm
    · exact h₂.mem_iff.mpr (List.mem_cons_self ..)
  | setForwarder id hook =>
    simp only [applyStore]
    cases hb : w.forwarders.get? id with
    | none => exact .inl (.refl w)
    | some b => exact .inl ⟨rfl, rfl, rfl, outside_putForwarder w hb rfl⟩
  | _ => exact .inl ⟨rfl, rfl, rfl, .refl _⟩

/-! ### New backends -/

/-- A backend that has just been made. -/
structure Made (w : World) (made : Backend × World) : Prop where
  serial : made.1.serial = w.backends
  backends : made.2.backends = w.backends + 1
  fitted : made.2.fitted = w.fitted
  names : made.2.names = w.names
  outside : made.2.outside = w.outside

theorem made_make (w : World) (spec : BackendSpec) : Made w (w.make spec) := by
  cases spec with
  | memory handle name =>
    cases handle with
    | none => exact ⟨rfl, rfl, rfl, rfl, rfl⟩
    | some h =>
      simp only [make, handle]
      split <;> exact ⟨rfl, rfl, rfl, rfl, rfl⟩
  | _ => exact ⟨rfl, rfl, rfl, rfl, rfl⟩

end World

/-! ### What backends do is mild -/

theorem World.Outward.mild {w : World} {r : Reaction} (h : w.Outward r) :
    ∀ e ∈ r.happenings, e.isMild = true := by
  intro e he
  have := h.happenings e he
  cases e with
  | emitted e => cases e <;> first | rfl | cases this
  | _ => first | rfl | cases this

theorem mild_of_mem_additions {m : Message} {ps : List Part} {e : Happening}
    (he : e ∈ State.additions m ps) : e.isMild = true := by
  rcases State.mem_additions he with rfl | ⟨p, rfl⟩ <;> rfl

namespace State

/-- The tasks `ps` have come in front of the agenda, and those that are aimed at a context have it
from the program or from the task. -/
structure Pushes (s : State) (t : Task) (ps : List Task) (o : Outcome) : Prop where
  agenda : o.1.agenda = ps ++ s.agenda
  aimed : ∀ p ∈ ps, ∀ c, p.target? = some c →
    (∃ ctx, s.world.lookUp ctx = c) ∨ t.target? = some c

/-- Where a backend comes from that finds a new owner: it has just been made, or stood outside any
context, or was the one of a builder. -/
inductive Source (s : State) (t : Task) (v : World) (b : Backend) : Prop
  | fresh (ht : owned t = none) (hb : b.serial = s.world.backends)
    (hv : v.backends = s.world.backends + 1) (ho : v.outside = s.world.outside)
  | taken (ht : owned t = none) (hv : v.backends = s.world.backends)
    (ho : (b.serial :: v.outside).Subperm s.world.outside)
  | chosen (ht : owned t = some b) (hv : v.backends = s.world.backends)
    (ho : v.outside = s.world.outside)

/-- Nothing that concerns backends. -/
structure Idle (s : State) (t : Task) (o : Outcome) : Prop where
  owned : owned t = none
  pushes : ∃ ps, (∀ p ∈ ps, State.owned p = none) ∧ s.Pushes t ps o
  stocked : World.Stocked s.world o.1.world
  quiet : ∀ e ∈ o.2, e.isMild = true

/-- What performing a task comes to, as far as backends are concerned. -/
inductive Trade (s : State) (t : Task) (o : Outcome) : Prop
  | idle (h : s.Idle t o)
  /-- The news of a swap. -/
  | announced (e : Event) (ht : t = .emit e) (hg : s.Pushes t [] o) (hw : o.1.world = s.world)
    (hr : o.1.condition = .running) (hq : o.2 = [.emitted e])
  /-- The gate of a context is adjusted. -/
  | adjusted (op : Op) (c : ContextId) (f : Gate → Gate) (ht : t = .begin op)
    (hc : op.adjusted? s.world = some c) (hg : s.Pushes t [] o)
    (hf : o.1.world.fitted = s.world.fitted.modify c (·.map fun i => { i with gate := f i.gate }))
    (hn : o.1.world.names = s.world.names) (hb : o.1.world.backends = s.world.backends)
    (ho : o.1.world.outside = s.world.outside) (hr : o.1.condition = .running) (hq : o.2 = [])
  /-- A new forwarding backend stands outside any context. -/
  | registered (ht : owned t = none) (hg : s.Pushes t [] o)
    (hf : o.1.world.fitted = s.world.fitted) (hn : o.1.world.names = s.world.names)
    (hb : o.1.world.backends = s.world.backends + 1)
    (ho : o.1.world.outside.Subperm (s.world.backends :: s.world.outside))
    (hm : s.world.backends ∈ o.1.world.outside) (hq : o.2 = [])
  /-- A new context, which is empty. -/
  | opened (name : String) (ht : owned t = none) (hg : s.Pushes t [] o)
    (hf : o.1.world.fitted = s.world.fitted ++ [none])
    (hn : o.1.world.names = s.world.names.put name s.world.contexts.length)
    (hb : o.1.world.backends = s.world.backends) (ho : o.1.world.outside = s.world.outside)
    (hq : o.2 = [])
  /-- A new context around a backend. -/
  | created (name : String) (i : Installed) (hs : Source s t o.1.world i.backend)
    (hg : s.Pushes t [] o) (hf : o.1.world.fitted = s.world.fitted ++ [some i])
    (hn : o.1.world.names = s.world.names.put name s.world.contexts.length)
    (hr : o.1.condition = .running) (hq : o.2 = [])
  /-- A backend is about to be installed. -/
  | called (c : ContextId) (i : Installed) (p : Task) (hs : Source s t o.1.world i.backend)
    (hp : owned p = none) (hg : s.Pushes t [.swap c (some i), p] o)
    (hf : o.1.world.fitted = s.world.fitted) (hn : o.1.world.names = s.world.names)
    (hr : o.1.condition = .running) (hq : o.2 = [])
  /-- A builder gets a new backend in place of the one that it had. -/
  | chose (step : BuildStep) (steps : List BuildStep) (chosen : Option Backend) (b : Backend)
    (w : World) (g g' : Gate) (gates : List Gate) (target : Target)
    (ht : t = .build (step :: steps) chosen g gates target)
    (hc : buildStep s.world g step = .chose w b g') (hm : World.Made s.world (b, o.1.world))
    (hg : s.Pushes t (destroying chosen ++ [.build steps (some b) g' (gates ++ [g']) target]) o)
    (hr : o.1.condition = .running) (hq : o.2 = [])
  /-- A builder goes on with the backend that it has. -/
  | tuned (step : BuildStep) (steps : List BuildStep) (chosen : Option Backend) (g g' : Gate)
    (gates gates' : List Gate) (target : Target)
    (ht : t = .build (step :: steps) chosen g gates target)
    (hg : s.Pushes t [.build steps chosen g' gates' target] o)
    (hw : World.Stocked s.world o.1.world) (hr : o.1.condition = .running)
    (hq : ∀ e ∈ o.2, e.isMild = true)
  /-- A builder fails, and its backend is about to be destroyed. -/
  | failed (step : BuildStep) (steps : List BuildStep) (chosen : Option Backend) (g : Gate)
    (gates : List Gate) (target : Target) (f : BuildFault) (a : Answer)
    (ht : t = .build (step :: steps) chosen g gates target)
    (hc : buildStep s.world g step = .failed f)
    (hg : s.Pushes t (destroying chosen ++ [.respond a]) o)
    (hw : World.Stocked s.world o.1.world) (hr : o.1.condition = .running) (hq : o.2 = [])
  /-- A backend, or none, takes the place of what was installed, which is about to be destroyed. -/
  | swapped (c : ContextId) (next : Option Installed) (e : Event) (ht : t = .swap c next)
    (hc : s.world.access c = .granted)
    (hg : s.Pushes t (destroying ((s.world.installed c).map (·.backend)) ++ [.emit e]) o)
    (hw : o.1.world = s.world.replace c next) (hr : o.1.condition = .running) (hq : o.2 = [])
  /-- A backend is refused and about to be destroyed. -/
  | refused (c : ContextId) (next : Option Installed) (e : Event) (ht : t = .swap c next)
    (hc : s.world.access c = .refused)
    (hg : s.Pushes t (destroying (next.map (·.backend)) ++ [.emit e]) o)
    (hw : o.1.world = s.world) (hr : o.1.condition = .running) (hq : o.2 = [])
  /-- The thread waits with a backend that it was about to install. -/
  | stuck (c : ContextId) (next : Option Installed) (ht : t = .swap c next)
    (hc : s.world.access c = .blocked) (hr : s.condition = .running)
    (hs : o = ({ s with condition := .blocked }, []))
  | destroyed (b : Backend) (ops : List Op) (ht : t = .destroy b) (hg : s.Pushes t [.script ops] o)
    (hw : o.1.world = s.world) (hr : o.1.condition = .running) (hq : o.2 = [.destroyed b])
  /-- A task is given up in the course of unwinding, and its backend is about to be destroyed. -/
  | givenUp (b : Backend) (text : String) (ht : owned t = some b)
    (hu : s.condition = .unwinding text) (hg : s.Pushes t [.destroy b, .resume text] o)
    (hw : o.1.world = s.world) (hr : o.1.condition = .running) (hq : o.2 = [])

/-! ### The trades of the operations -/

section Trades

variable {s : State} {t : Task} {o : Outcome}

theorem Pushes.of_unaimed {ps : List Task} (ha : o.1.agenda = ps ++ s.agenda)
    (hp : ∀ p ∈ ps, p.target? = none) : s.Pushes t ps o :=
  ⟨ha, fun p h c hc => by rw [hp p h] at hc; cases hc⟩

namespace Idle

/-- Tasks that own nothing, and happenings that are mild. -/
theorem telling (ps : List Task) {w : World} {a : Answer} {k : Condition} {l : List Bool}
    {hs : List Happening} (ht : State.owned t = none)
    (hp : ∀ p ∈ ps, State.owned p = none ∧ p.target? = none)
    (hw : World.Stocked s.world w) (hq : ∀ e ∈ hs, e.isMild = true) :
    Idle s t (⟨w, ps ++ s.agenda, a, k, l⟩, hs) :=
  ⟨ht, ⟨ps, fun p h => (hp p h).1, .of_unaimed rfl fun p h => (hp p h).2⟩, hw, hq⟩

/-- Tasks that own nothing. -/
theorem pushing (ps : List Task) {w : World} {a : Answer} {k : Condition} {l : List Bool}
    (ht : State.owned t = none) (hp : ∀ p ∈ ps, State.owned p = none ∧ p.target? = none)
    (hw : World.Stocked s.world w) : Idle s t (⟨w, ps ++ s.agenda, a, k, l⟩, []) :=
  telling ps ht hp hw (by simp)

/-- No task at all. -/
theorem staying {w : World} {a : Answer} {k : Condition} {l : List Bool}
    (ht : State.owned t = none) (hw : World.Stocked s.world w) :
    Idle s t (⟨w, s.agenda, a, k, l⟩, []) :=
  pushing [] ht (by simp) hw

/-- A single happening, which is mild. -/
theorem noting {w : World} {a : Answer} {k : Condition} {l : List Bool} {e : Happening}
    (ht : State.owned t = none) (hw : World.Stocked s.world w) (hq : e.isMild = true) :
    Idle s t (⟨w, s.agenda, a, k, l⟩, [e]) :=
  telling [] ht (by simp) hw (by simpa using hq)

theorem register (h : Idle s t o) : Idle s t (o.1.register, o.2) :=
  let ⟨ps, hp, hg⟩ := h.pushes
  ⟨h.owned, ⟨ps, hp, hg.agenda, hg.aimed⟩, h.stocked, h.quiet⟩

theorem accessing {c : ContextId} {granted refused : Outcome} (ht : State.owned t = none)
    (hg : Idle s t granted) (hr : Idle s t refused) : Idle s t (s.accessing c granted refused) := by
  unfold State.accessing
  cases s.world.access c with
  | granted => exact hg.register
  | refused => exact hr
  | blocked => exact staying ht (.refl _)

end Idle

theorem Trade.accessing {c : ContextId} {granted refused : Outcome} (ht : owned t = none)
    (hg : s.world.access c = .granted → Trade s t (granted.1.register, granted.2))
    (hr : s.world.access c = .refused → Trade s t refused) :
    Trade s t (s.accessing c granted refused) := by
  unfold State.accessing
  cases h : s.world.access c with
  | granted => exact hg h
  | refused => exact hr h
  | blocked => exact .idle (.staying ht (.refl _))

theorem onContext_trade (hr : s.condition = .running) {op : Op} {c : ContextId} {o : ContextOp}
    (hop : o.adjusts = true → op.adjusted? s.world = some c) (answer : Answer → Answer) :
    Trade s (.begin op) (s.onContext c o answer) := by
  refine .accessing rfl (fun hc => ?_) fun hc => ?_
  · rcases s.world.asked_cases c o with ha | ⟨hw, i, p, ps, -, -, ha⟩
    · rw [ha, asking]
      rcases s.world.applyContext_cases c o with ⟨hw, -⟩ | ⟨ho, hw⟩
      · exact .idle (.staying rfl (by rw [hw]; exact .refl _))
      · refine .adjusted op c o.retune rfl (hop ho) (.of_unaimed rfl (by simp)) ?_ ?_ ?_ ?_ hr rfl
        · exact (congrArg World.fitted hw).trans (World.fitted_configure hc o.retune)
        all_goals
          refine (congrArg _ hw).trans ?_
          rw [World.configure, if_pos hc]
          rfl
    · rw [ha, hw]
      exact .idle (.pushing [_, _, _] rfl (by simp [owned, Task.target?])
        (World.stocked_setLock _ c true))
  · have hw := World.applyContext_of_not_granted (w := s.world) (c := c) (by simp [hc]) o
    exact .idle (.staying rfl (by rw [hw]; exact .refl _))

theorem byCode_trade (hr : s.condition = .running) {op : Op}
    (hop : op.adjusted? s.world = some World.global) (function : String)
    (o : Except Rejection ContextOp) : Trade s (.begin op) (s.byCode function o) := by
  cases o with
  | error why => exact .idle (.noting rfl (.refl _) rfl)
  | ok o => exact onContext_trade hr (fun _ => hop) fun _ => .status 0

theorem withHeld_idle (ht : owned t = none) (id : String) {next : Message → Outcome}
    (h : ∀ m, Idle s t (next m)) : Idle s t (s.withHeld id next) := by
  unfold withHeld
  cases s.world.held.get? id with
  | none => exact .staying ht (.refl _)
  | some m => exact h m

theorem withForwarder_trade (ht : owned t = none) (id : String) {next : Backend → Outcome}
    (h : ∀ b, s.world.forwarders.get? id = some b → Trade s t (next b)) :
    Trade s t (s.withForwarder id next) := by
  unfold withForwarder
  cases hb : s.world.forwarders.get? id with
  | none => exact .idle (.staying ht (.refl _))
  | some b => exact h b hb

theorem making_idle (ht : owned t = none) (c : ContextId) (sev : Severity) (k : Component)
    (parts : List Part) {next : State → Message → State} (ps : State → Message → List Task)
    (hp : ∀ s m, ∀ p ∈ ps s m, owned p = none ∧ p.target? = none)
    (ha : ∀ s m, (next s m).agenda = ps s m ++ s.agenda)
    (hw : ∀ s m, World.Stocked s.world (next s m).world) :
    Idle s t (s.making c sev k parts next) := by
  have h : ∀ m ms, (∀ e ∈ ms, e.isMild = true) →
      Idle s t (next (s.withWorld s.world.countMessage) m, ms) := fun m ms hm =>
    { owned := ht
      pushes := ⟨ps _ m, fun p h => (hp _ m p h).1,
        .of_unaimed (ha _ m) fun p h => (hp _ m p h).2⟩
      stocked := .trans (v := s.world.countMessage) ⟨rfl, rfl, rfl, .refl _⟩
        (hw (s.withWorld s.world.countMessage) m)
      quiet := hm }
  have hm : ∀ e ∈ Happening.made (s.world.newMessage c sev k) ::
      additions (s.world.newMessage c sev k) parts, e.isMild = true :=
    List.forall_mem_cons.mpr ⟨rfl, fun _ => mild_of_mem_additions⟩
  exact .accessing ht (h _ _ hm) (h _ _ hm)

theorem running_idle (ht : owned t = none) (c : ContextId) {first : Happening} {r : Reaction}
    (hr : (s.world.enter c).Outward r) (hf : first.isMild = true) :
    Idle s t (s.running c first r) :=
  .telling [_, _] ht (by simp [owned, Task.target?]) ((World.stocked_enter _ c).trans hr.stocked)
    (List.forall_mem_cons.mpr ⟨hf, hr.mild⟩)

theorem write_idle (ht : owned t = none) (c : ContextId) (m : Message) :
    Idle s t (s.write c m) := by
  refine .accessing ht ?_ (.staying ht (.refl _))
  split
  · exact .staying ht (.refl _)
  · exact running_idle ht c (World.outward_receive _ m _) rfl

theorem flush_idle (ht : owned t = none) (c : ContextId) : Idle s t (s.flush c) := by
  refine .accessing ht ?_ (.staying ht (.refl _))
  split
  · exact .staying ht (.refl _)
  · exact running_idle ht c (World.outward_flushed _ _) rfl

theorem drop_idle (m : Message) : Idle s (.drop m) (s.drop m) := by
  have ht : owned (Task.drop m) = none := rfl
  unfold State.drop
  cases m.worth with
  | false => exact .noting ht (.refl _) rfl
  | true =>
    have h := write_idle (s := s) ht m.context m
    obtain ⟨ps, hp, hg⟩ := h.pushes
    exact ⟨ht, ⟨ps, hp, hg.agenda, hg.aimed⟩, h.stocked,
      List.forall_mem_cons.mpr ⟨rfl, h.quiet⟩⟩

/-- A context is made around a backend that has just been made, or was the one of a builder. -/
theorem creating_trade {ctx : String} {b : Backend} {g : Gate} {w : World} {a : Answer}
    {k : Condition} {l : List Bool} (hr : k = .running) (hs : Source s t w b)
    (hf : w.fitted = s.world.fitted) (hn : w.names = s.world.names) :
    Trade s t (⟨w.addContext ctx (some ⟨g, b⟩), s.agenda, a, k, l⟩, []) := by
  have hl : w.contexts.length = s.world.contexts.length := by
    simpa [World.fitted] using congrArg List.length hf
  have hs' : Source s t (w.addContext ctx (some ⟨g, b⟩)) (⟨g, b⟩ : Installed).backend := by
    cases hs with
    | fresh ht hb hv ho => exact .fresh ht hb hv ho
    | taken ht hv ho => exact .taken ht hv ho
    | chosen ht hv ho => exact .chosen ht hv ho
  refine .created ctx ⟨g, b⟩ hs' (.of_unaimed rfl (by simp)) ?_ ?_ hr rfl
  · rw [← hf]
    exact List.map_append ..
  · rw [← hn, ← hl]
    rfl

/-- A backend that has just been made, or taken from outside, is about to be installed. -/
theorem installing_trade {made : Backend × World} {c : ContextId} (g : Gate)
    (hr : s.condition = .running) (hc : ∃ ctx, s.world.lookUp ctx = c)
    (hs : Source s t made.2 made.1) (hf : made.2.fitted = s.world.fitted)
    (hn : made.2.names = s.world.names) : Trade s t (s.installing c made g) := by
  refine .called c ⟨g, made.1⟩ (.respond .nothing) hs rfl ⟨rfl, ?_⟩ hf hn hr rfl
  intro p hp d hd
  rcases List.mem_cons.mp hp with rfl | hp
  · obtain rfl := Option.some.inj hd
    exact .inl hc
  · obtain rfl := List.mem_singleton.mp hp
    cases hd

theorem source_of_made {made : Backend × World} (h : World.Made s.world made)
    (ht : owned t = none) : Source s t made.2 made.1 :=
  .fresh ht h.serial h.backends h.outside

theorem source_of_taken {id : String} {b : Backend} (ht : owned t = none)
    (hb : s.world.forwarders.get? id = some b) :
    Source s t { s.world with forwarders := s.world.forwarders.erase id } b := by
  obtain ⟨rest, h₁, h₂⟩ := Table.exists_perm_erase hb
  refine .taken ht rfl ?_
  have h₁ := h₁.map Backend.serial
  have h₂ := h₂.map Backend.serial
  exact (h₂.cons_cons _).subperm.trans h₁.symm.subperm

theorem unowned_of_mem_crews {c : ContextId} {threads each : Nat} {sev : Severity}
    {k : Component} {p : Task} (hp : p ∈ crews c threads each sev k) :
    owned p = none ∧ p.target? = none := by
  obtain ⟨n, -, rfl⟩ := List.mem_map.mp hp
  exact ⟨rfl, rfl⟩

theorem begin_trade {s : State} (hr : s.condition = .running) (o : Op) :
    Trade s (.begin o) (s.begin o) := by
  have ht : owned (Task.begin o) = none := rfl
  cases o with
  | onContext ctx o => exact onContext_trade hr (fun ho => by simp [Op.adjusted?, ho]) id
  | onStore o =>
    rcases World.applyStore_cases s.world o with hw | ⟨hf, hn, hb, ho, hm⟩
    · exact .idle (.staying ht hw)
    · exact .registered ht (.of_unaimed rfl (by simp)) hf hn hb ho hm rfl
  | create ctx spec g =>
    cases spec with
    | none =>
      exact .opened ctx ht (.of_unaimed rfl (by simp)) (List.map_append ..) rfl rfl rfl rfl
    | some spec =>
      have hm := World.made_make s.world spec
      exact creating_trade hr (source_of_made hm ht) hm.fitted hm.names
  | build ctx steps =>
    exact .idle (.pushing [_] ht (by simp [owned, Task.target?]) (.refl _))
  | buildInto ctx steps =>
    refine .idle ⟨ht, ⟨[_], by simp [owned], rfl, fun p hp c hc => ?_⟩, .refl _,
      by simp [State.begin, quietly]⟩
    obtain rfl := List.mem_singleton.mp hp
    exact .inl ⟨ctx, Option.some.inj hc⟩
  | install ctx spec g =>
    have hm := World.made_make s.world spec
    exact installing_trade g hr ⟨ctx, rfl⟩ (source_of_made hm ht) hm.fitted hm.names
  | remove ctx =>
    refine .idle ⟨ht, ⟨[_, _], by simp [owned], rfl, fun p hp c hc => ?_⟩, .refl _,
      by simp [State.begin, quietly]⟩
    rcases List.mem_cons.mp hp with rfl | hp
    · exact .inl ⟨ctx, Option.some.inj hc⟩
    · obtain rfl := List.mem_singleton.mp hp
      cases hc
  | flush ctx => exact .idle (.pushing [_, _] ht (by simp [owned, Task.target?]) (.refl _))
  | log ctx sev k parts =>
    rw [State.begin]
    exact .idle (making_idle ht _ sev k parts
      (fun s m => [.drop m, .respond (.statement m.worth m.text)])
      (by simp [owned, Task.target?]) (fun _ _ => rfl) fun _ _ => .refl _)
  | hold id ctx sev k parts =>
    rw [State.begin]
    refine .idle (making_idle ht _ sev k parts
      (fun s m => ((s.world.held.get? id).map Task.drop).toList ++ [.respond (.message m)])
      (fun s m => ?_) (fun _ _ => rfl) fun _ _ => ⟨rfl, rfl, rfl, .refl _⟩)
    cases s.world.held.get? id <;> simp [owned, Task.target?]
  | add id parts =>
    exact .idle (withHeld_idle ht id fun m =>
      .telling [] ht (by simp) ⟨rfl, rfl, rfl, .refl _⟩ fun _ => mild_of_mem_additions)
  | write ctx id =>
    exact .idle (withHeld_idle ht id fun m =>
      .pushing [_, _] ht (by simp [owned, Task.target?]) (.refl _))
  | finish id =>
    exact .idle (withHeld_idle ht id fun m =>
      .pushing [_, _] ht (by simp [owned, Task.target?]) ⟨rfl, rfl, rfl, .refl _⟩)
  | logLabelled ctx sev k label n =>
    rw [State.begin]
    exact .idle (making_idle ht _ sev k _
      (fun s m => [.drop m, .respond (.evaluated (m.rendered [.labelled label n]).length)])
      (by simp [owned, Task.target?]) (fun _ _ => rfl) fun _ _ => .refl _)
  | setFunction hook =>
    have hm := World.made_make s.world (.forwarding hook)
    exact installing_trade _ hr ⟨.global, rfl⟩ (source_of_made hm ht) hm.fitted hm.names
  | enableCode code => exact byCode_trade hr rfl _ _
  | disableCode code => exact byCode_trade hr rfl _ _
  | levelCode code => exact byCode_trade hr rfl _ _
  | setCallerScript ops => exact .idle (.staying ht ⟨rfl, rfl, rfl, .refl _⟩)
  | forward id message =>
    exact withForwarder_trade ht id fun b _ => .idle (withHeld_idle ht message fun m =>
      .pushing [_, _] ht (by simp [owned, Task.target?]) (.refl _))
  | installForwarder id ctx =>
    exact withForwarder_trade ht id fun b hb =>
      installing_trade _ hr ⟨ctx, rfl⟩ (source_of_taken ht hb) rfl rfl
  | thread ops => exact .idle (.pushing [_] ht (by simp [owned, Task.target?]) (.refl _))
  | threadExit ops exit =>
    exact .idle (.pushing [_] ht (by simp [owned, Task.target?]) (.refl _))
  | parallel ctx threads each sev k =>
    refine .idle (.pushing _ ht (fun p hp => ?_) (.refl _))
    rcases List.mem_append.mp hp with hp | hp
    · exact unowned_of_mem_crews hp
    · obtain rfl := List.mem_singleton.mp hp
      exact ⟨rfl, rfl⟩
  | panic text => exact .idle (.staying ht (.refl _))

theorem made_of_chose {w v : World} {g g' : Gate} {b : Backend} {step : BuildStep}
    (h : buildStep w g step = .chose v b g') : World.Made w (b, v) := by
  cases step with
  | backend spec =>
    obtain ⟨rfl, rfl, -⟩ := Built.chose.inj h
    exact World.made_make w spec
  | settings document =>
    simp only [buildStep] at h
    split at h
    · next settings _ =>
      obtain ⟨rfl, rfl, -⟩ := Built.chose.inj h
      exact World.made_make w (.console settings.console none)
    · cases h
  | environment level components =>
    simp only [buildStep] at h
    cases he : Environment.apply g level components <;> rw [he] at h <;> cases h
  | environmentOctets level components =>
    simp only [buildStep] at h
    cases he : Environment.applyOctets g level components <;> rw [he] at h <;> cases h
  | _ => cases h

/-- A builder goes on: what it pushes is aimed where the builder is. -/
theorem Pushes.of_build {steps steps' : List BuildStep} {chosen chosen' : Option Backend}
    {g g' : Gate} {gates gates' : List Gate} {target : Target} (b : Option Backend)
    (ha : o.1.agenda =
      (destroying b ++ [.build steps' chosen' g' gates' target]) ++ s.agenda) :
    s.Pushes (.build steps chosen g gates target)
      (destroying b ++ [.build steps' chosen' g' gates' target]) o := by
  refine ⟨ha, fun p hp c hc => ?_⟩
  rcases List.mem_append.mp hp with hp | hp
  · cases b <;> simp [destroying] at hp
    subst hp
    cases hc
  · obtain rfl := List.mem_singleton.mp hp
    right
    cases target with
    | create ctx => cases hc
    | install d => exact hc

/-- What is about to be destroyed is aimed at no context, nor is what comes after it. -/
theorem Pushes.of_destroying (b : Option Backend) {p : Task} (hp : p.target? = none)
    (ha : o.1.agenda = (destroying b ++ [p]) ++ s.agenda) :
    s.Pushes t (destroying b ++ [p]) o := by
  refine .of_unaimed ha fun q hq => ?_
  cases b <;> simp [destroying] at hq
  · rw [hq, hp]
  · rcases hq with rfl | rfl
    · rfl
    · exact hp

theorem build_trade {s : State} (hr : s.condition = .running) (chosen : Option Backend) (g : Gate)
    (gates : List Gate) (target : Target) (steps : List BuildStep) :
    Trade s (.build steps chosen g gates target) (s.build chosen g gates target steps) := by
  cases steps with
  | nil =>
    -- the backend that was chosen, or the console that is made in its place
    obtain ⟨hs, hf, hn⟩ : Source s (.build [] chosen g gates target)
        (chosenBackend s.world chosen).2 (chosenBackend s.world chosen).1 ∧
        (chosenBackend s.world chosen).2.fitted = s.world.fitted ∧
        (chosenBackend s.world chosen).2.names = s.world.names := by
      cases chosen with
      | none =>
        have hm := World.made_make s.world (.console {} none)
        exact ⟨source_of_made hm rfl, hm.fitted, hm.names⟩
      | some b => exact ⟨.chosen rfl rfl rfl, rfl, rfl⟩
    cases target with
    | create ctx => exact creating_trade hr hs hf hn
    | install c =>
      refine .called c ⟨g, (chosenBackend s.world chosen).1⟩ (.respond (.steps gates none)) hs rfl
        ⟨rfl, fun p hp d hd => ?_⟩ hf hn hr rfl
      rcases List.mem_cons.mp hp with rfl | hp
      · exact .inr hd
      · obtain rfl := List.mem_singleton.mp hp
        cases hd
  | cons step steps =>
    simp only [State.build]
    split
    · next w b g' h =>
      exact .chose step steps chosen b w g g' gates target rfl h (made_of_chose h)
        (.of_build chosen rfl) hr rfl
    · exact .tuned step steps chosen g _ gates _ target rfl (.of_build none rfl) (.refl _) hr
        (by simp [quietly])
    · exact .tuned step steps chosen g _ gates _ target rfl (.of_build none rfl) (.refl _) hr
        (by simp [Happening.isMild, Event.isLifecycle])
    · next f h =>
      exact .failed step steps chosen g gates target f _ rfl h (.of_destroying chosen rfl rfl)
        (.refl _) hr rfl

theorem swap_trade {s : State} (hr : s.condition = .running) (c : ContextId)
    (next : Option Installed) : Trade s (.swap c next) (s.swap c next) := by
  unfold State.swap State.accessing
  cases h : s.world.access c with
  | granted => exact .swapped c next _ rfl h (.of_destroying _ rfl rfl) rfl hr rfl
  | refused => exact .refused c next _ rfl h (.of_destroying _ rfl rfl) rfl hr rfl
  | blocked => exact .stuck c next rfl h hr rfl

theorem perform_trade {s : State} (hr : s.condition = .running) (t : Task) :
    Trade s t (s.perform t) := by
  cases t with
  | program ops =>
    cases ops with
    | nil => exact .idle (.staying rfl (.refl _))
    | cons o os => exact .idle (.pushing [_, _, _] rfl (by simp [owned, Task.target?]) (.refl _))
  | report => exact .idle (.noting rfl (.refl _) rfl)
  | script ops =>
    cases ops with
    | nil => exact .idle (.staying rfl (.refl _))
    | cons o os => exact .idle (.pushing [_, _, _] rfl (by simp [owned, Task.target?]) (.refl _))
  | note => exact .idle (.noting rfl (.refl _) rfl)
  | collect ops answers =>
    cases ops with
    | nil => exact .idle (.staying rfl (.refl _))
    | cons o os => exact .idle (.pushing [_, _] rfl (by simp [owned, Task.target?]) (.refl _))
  | gather ops answers =>
    exact .idle (.pushing [_] rfl (by simp [owned, Task.target?]) (.refl _))
  | «begin» o => exact begin_trade hr o
  | respond a => exact .idle (.staying rfl (.refl _))
  | drop m => exact .idle (drop_idle m)
  | write c m => exact .idle (write_idle rfl c m)
  | flush c => exact .idle (flush_idle rfl c)
  | leave c counted => exact .idle (.staying rfl (World.stocked_leave _ c counted))
  | unlock c => exact .idle (.staying rfl (World.stocked_setLock _ c false))
  | swap c next => exact swap_trade hr c next
  | destroy b =>
    exact .destroyed b _ rfl (.of_unaimed rfl (by simp [Task.target?])) rfl hr rfl
  | emit e => exact .announced e rfl (.of_unaimed rfl (by simp)) rfl hr rfl
  | build steps chosen g gates target => exact build_trade hr chosen g gates target steps
  | forward b m =>
    exact .idle (.telling [_] rfl (by simp [owned, Task.target?])
      (World.outward_receive _ m _).stocked (World.outward_receive _ m _).mild)
  | fork ops =>
    exact .idle (.pushing [_, _] rfl (by simp [owned, Task.target?]) ⟨rfl, rfl, rfl, .refl _⟩)
  | crew c sev k thread count =>
    exact .idle (.pushing [_, _] rfl (by simp [owned, Task.target?]) ⟨rfl, rfl, rfl, .refl _⟩)
  | numbered c sev k thread first count =>
    cases count with
    | zero => exact .idle (.staying rfl (.refl _))
    | succ rest =>
      rw [perform]
      exact .idle (making_idle rfl c sev k _
        (fun s m => [.drop m, .numbered c sev k thread (first + 1) rest])
        (by simp [owned, Task.target?]) (fun _ _ => rfl) fun _ _ => .refl _)
  | forkExit ops exit =>
    exact .idle (.pushing [_, _, _] rfl (by simp [owned, Task.target?]) ⟨rfl, rfl, rfl, .refl _⟩)
  | exit ops =>
    simp only [perform]
    split
    · refine .idle (.pushing [_, _] rfl (by simp [owned, Task.target?]) ?_)
      unfold departing
      split <;> exact ⟨rfl, rfl, rfl, .refl _⟩
    · exact .idle (.staying rfl (.refl _))
  | pair alive =>
    simp only [perform]
    split <;> exact .idle (.staying rfl (.refl _))
  | join waiting => exact .idle (.staying rfl ⟨rfl, rfl, rfl, .refl _⟩)
  | resume text => exact .idle (.staying rfl (.refl _))

theorem unwind_trade {s : State} {text : String} (hu : s.condition = .unwinding text) (t : Task) :
    Trade s t (s.unwind text t) := by
  have give : Trade s t (s.giveUp text (owned t)) := by
    cases ho : owned t with
    | none => exact .idle (.staying ho (.refl _))
    | some b => exact .givenUp b text ho hu (.of_unaimed rfl (by simp [Task.target?])) rfl rfl rfl
  cases t with
  | leave c counted => exact .idle (.staying rfl (World.stocked_leave _ c counted))
  | unlock c => exact .idle (.staying rfl (World.stocked_setLock _ c false))
  | join waiting => exact .idle (.staying rfl ⟨rfl, rfl, rfl, .refl _⟩)
  | report => exact .idle (.noting rfl (.refl _) rfl)
  | resume text' => exact .idle (.staying rfl (.refl _))
  | _ => exact give

end Trades

/-- A step of a state that has not halted is a trade, and any other does nothing. -/
theorem step_trade (s : State) : s.step = (s, []) ∧ s.halted = true ∨
    ∃ t ts, s.agenda = t :: ts ∧ (s.condition = .running ∨ ∃ text, s.condition = .unwinding text) ∧
      Trade { s with agenda := ts } t s.step := by
  by_cases h : s.halted = true
  · exact .inl ⟨step_of_halted h, h⟩
  · right
    unfold halted at h
    split at h
    · next t ts hc ha =>
      refine ⟨t, ts, ha, .inl hc, ?_⟩
      simp only [step, hc, ha]
      exact perform_trade rfl t
    · next text t ts hc ha =>
      refine ⟨t, ts, ha, .inr ⟨text, hc⟩, ?_⟩
      simp only [step, hc, ha]
      exact unwind_trade rfl t
    · exact absurd rfl h

end State

end GatedLog
