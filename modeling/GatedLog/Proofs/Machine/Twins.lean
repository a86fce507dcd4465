import GatedLog.Proofs.Correspondence
import GatedLog.Proofs.Machine.Uses

/-!
# Twin worlds

Two worlds are twins for a set of uses if whoever uses nothing else cannot tell them apart
(`World.Twin`). Numbers that nobody sees may differ: a `Link` says which contexts and which handles of
the one world stand for which of the other, and serial numbers do not count. `World.Joint` is what an
operation does on both sides at once: the worlds stay twins, and on the first side nothing has changed
that is outside the set.
-/

namespace GatedLog

/-! ### What can be seen -/

/-- A message without the numbers that nobody sees. -/
def Message.plain (m : Message) : Message := { m with serial := 0, context := 0 }

mutual

/-- An answer without the numbers that nobody sees. -/
def Answer.plain : Answer → Answer
  | .message m => .message m.plain
  | .list answers => .list (Answer.plainAll answers)
  | .exited alive exit => .exited (Answer.plainAll alive) (Answer.plainAll exit)
  | a => a

/-- The same for several answers. -/
def Answer.plainAll : List Answer → List Answer
  | [] => []
  | a :: answers => a.plain :: Answer.plainAll answers

end

theorem Answer.plainAll_eq (answers : List Answer) :
    Answer.plainAll answers = answers.map Answer.plain := by
  induction answers with
  | nil => rfl
  | cons a answers ih => rw [Answer.plainAll, ih, List.map_cons]

/-! ### Links -/

/-- Which contexts and which handles of two worlds stand for the same thing. -/
structure Link where
  contexts : Pairing
  handles : Pairing

namespace Link

/-- The worlds give everything the same number. -/
def identity : Link := ⟨.identity, .identity⟩

/-- The link has grown by contexts and handles that are new since the world `w`. -/
structure Grows (σ τ : Link) (w w₁ : World) : Prop where
  contexts : σ.contexts.Grows τ.contexts w.contexts.length w₁.contexts.length
  handles : σ.handles.Grows τ.handles w.captures.length w₁.captures.length

theorem Grows.refl (σ : Link) (w w₁ : World) : σ.Grows σ w w₁ := ⟨.refl _ _ _, .refl _ _ _⟩

end Link

/-- The set has a use of the resource that others could notice. -/
def Owns (T : Set Use) (r : Resource) : Prop := ⟨r, .change⟩ ∈ T

/-- The names of a kind that the set has uses of. -/
def Keys (T : Set Use) (kind : String → Resource) (id : String) : Prop := Owns T (kind id)

/-- The set has a use of the surroundings that shows the numbers of threads and the colors. -/
def Looks (T : Set Use) : Prop := ∃ m, m ≠ .add ∧ ⟨.surroundings, m⟩ ∈ T

variable {T : Set Use} {σ τ : Link}

/-- Messages that look the same, of contexts that stand for each other. -/
structure Message.Twin (σ : Link) (m m' : Message) : Prop where
  plain : m.plain = m'.plain
  context : σ.contexts.rel m.context m'.context

/-- Kinds of backends that do the same, and use nothing outside the set. -/
inductive BackendKind.Twin (T : Set Use) (σ : Link) : BackendKind → BackendKind → Prop
  | memory {h h' : HandleId} (hh : σ.handles.rel h h') : Twin T σ (.memory h) (.memory h')
  | forwarding (hook : Option Hook) (hh : ∀ k, hook = some k → Owns T (.hook k)) :
    Twin T σ (.forwarding hook) (.forwarding hook)
  | tracing : Twin T σ .tracing .tracing
  | console (layout : ConsoleLayout) (buffer : Option String) (hl : Looks T)
    (hb : ∀ id, buffer = some id → Owns T (.buffer id)) :
    Twin T σ (.console layout buffer) (.console layout buffer)
  | custom (tag : String) (onWrite onFlush onDestroy onName : List Op) :
    Twin T σ (.custom tag onWrite onFlush onDestroy onName) (.custom tag onWrite onFlush onDestroy onName)

/-- Backends of which nobody sees the serial numbers. -/
structure Backend.Twin (T : Set Use) (σ : Link) (b b' : Backend) : Prop where
  kind : BackendKind.Twin T σ b.kind b'.kind

structure Installed.Twin (T : Set Use) (σ : Link) (i i' : Installed) : Prop where
  gate : i.gate = i'.gate
  backend : Backend.Twin T σ i.backend i'.backend

structure Context.Twin (T : Set Use) (σ : Link) (x x' : Context) : Prop where
  installed : Option.Rel (Installed.Twin T σ) x.installed x'.installed
  locked : x.locked = x'.locked

/-- Threads that are running the same contexts. -/
structure Thread.Twin (T : Set Use) (σ : Link) (t t' : Thread) : Prop where
  running : List.Forall₂ σ.contexts.rel t.running t'.running
  tracking : t.tracking = t'.tracking
  number : Looks T → t.number = t'.number

/-- Happenings that look the same; the answers to a program are not among them. -/
inductive Happening.Twin (T : Set Use) (σ : Link) : Happening → Happening → Prop
  | emitted (e : Event) : Twin T σ (.emitted e) (.emitted e)
  | called (hook : Hook) (r : ForeignRecord) (hh : Owns T (.hook hook)) :
    Twin T σ (.called hook r) (.called hook r)
  | delivered {c c' : ContextId} {b b' : Backend} {m m' : Message} (hc : σ.contexts.rel c c')
    (hb : Backend.Twin T σ b b') (hm : Message.Twin σ m m') :
    Twin T σ (.delivered c b m) (.delivered c' b' m')
  | flushed {c c' : ContextId} {b b' : Backend} (hc : σ.contexts.rel c c')
    (hb : Backend.Twin T σ b b') : Twin T σ (.flushed c b) (.flushed c' b')
  | destroyed {b b' : Backend} (hb : Backend.Twin T σ b b') : Twin T σ (.destroyed b) (.destroyed b')
  | bufferFlushed (id : String) : Twin T σ (.bufferFlushed id) (.bufferFlushed id)
  | made {m m' : Message} (hm : Message.Twin σ m m') : Twin T σ (.made m) (.made m')
  | added (i j : Nat) (ps : List Part) : Twin T σ (.added i ps) (.added j ps)
  | rendered (i j : Nat) (p : Part) : Twin T σ (.rendered i p) (.rendered j p)
  | dropped {m m' : Message} (hm : Message.Twin σ m m') : Twin T σ (.dropped m) (.dropped m')
  | printed (line : String) : Twin T σ (.printed line) (.printed line)
  | noted {a a' : Answer} (ha : a.plain = a'.plain) : Twin T σ (.noted a) (.noted a')

/-! ### Twins grow with the link -/

section Mono

variable {w w₁ : World} (h : σ.Grows τ w w₁)

include h

theorem Message.Twin.mono {m m' : Message} (hm : Message.Twin σ m m') : Message.Twin τ m m' :=
  ⟨hm.plain, h.contexts.keeps hm.context⟩

theorem BackendKind.Twin.mono {k k' : BackendKind} (hk : BackendKind.Twin T σ k k') :
    BackendKind.Twin T τ k k' := by
  cases hk with
  | memory hh => exact .memory (h.handles.keeps hh)
  | forwarding hook hh => exact .forwarding hook hh
  | tracing => exact .tracing
  | console layout buffer hl hb => exact .console layout buffer hl hb
  | custom tag onWrite onFlush onDestroy onName => exact .custom tag onWrite onFlush onDestroy onName

theorem Backend.Twin.mono {b b' : Backend} (hb : Backend.Twin T σ b b') : Backend.Twin T τ b b' :=
  ⟨hb.kind.mono h⟩

theorem Installed.Twin.mono {i i' : Installed} (hi : Installed.Twin T σ i i') :
    Installed.Twin T τ i i' := ⟨hi.gate, hi.backend.mono h⟩

theorem Context.Twin.mono {x x' : Context} (hx : Context.Twin T σ x x') : Context.Twin T τ x x' :=
  ⟨optionRel_mono hx.installed fun _ _ hi => hi.mono h, hx.locked⟩

theorem Thread.Twin.mono {t t' : Thread} (ht : Thread.Twin T σ t t') : Thread.Twin T τ t t' :=
  ⟨ht.running.imp fun _ _ hr => h.contexts.keeps hr, ht.tracking, ht.number⟩

theorem Happening.Twin.mono {e e' : Happening} (he : Happening.Twin T σ e e') :
    Happening.Twin T τ e e' := by
  cases he with
  | emitted e => exact .emitted e
  | called hook r hh => exact .called hook r hh
  | delivered hc hb hm => exact .delivered (h.contexts.keeps hc) (hb.mono h) (hm.mono h)
  | flushed hc hb => exact .flushed (h.contexts.keeps hc) (hb.mono h)
  | destroyed hb => exact .destroyed (hb.mono h)
  | bufferFlushed id => exact .bufferFlushed id
  | made hm => exact .made (hm.mono h)
  | added i j ps => exact .added i j ps
  | rendered i j p => exact .rendered i j p
  | dropped hm => exact .dropped (hm.mono h)
  | printed line => exact .printed line
  | noted ha => exact .noted ha

end Mono

theorem Thread.Twin.mem_iff {t t' : Thread} (h : Thread.Twin T σ t t') {c c' : ContextId}
    (hc : σ.contexts.rel c c') : c ∈ t.running ↔ c' ∈ t'.running := by
  have key : ∀ {xs ys : List Nat}, List.Forall₂ σ.contexts.rel xs ys → (c ∈ xs ↔ c' ∈ ys) := by
    intro xs ys hxy
    induction hxy with
    | nil => simp
    | cons hd _ ih => rw [List.mem_cons, List.mem_cons, ih, σ.contexts.inj hc hd]
  exact key h.running

/-! ### Twin worlds -/

namespace World

/-- Worlds that look the same to whoever uses nothing outside the set. -/
structure Twin (T : Set Use) (σ : Link) (w v : World) : Prop where
  contexts : σ.contexts.Couples (Context.Twin T σ) w.contexts v.contexts
  global : Owns T (.context .global) → σ.contexts.rel World.global World.global
  names : Table.Agree (Keys T (.context <| .named ·)) σ.contexts.rel w.names v.names
  thread : Thread.Twin T σ w.thread v.thread
  threads : Looks T → w.threads = v.threads
  held : Table.Agree (Keys T .message) (Message.Twin σ) w.held v.held
  handles : Table.Agree (Keys T .handle) σ.handles.rel w.handles v.handles
  captures : σ.handles.Couples Eq w.captures v.captures
  buffers : Table.Agree (Keys T .buffer) Eq w.buffers v.buffers
  foreign : Table.Agree (Keys T .ofRecord) Eq w.foreign v.foreign
  copies : Owns T (.hook .keeper) → w.copies = v.copies
  forwarders : Table.Agree (Keys T .forwarder) (Backend.Twin T σ) w.forwarders v.forwarders
  callerScript : Owns T (.hook .caller) → w.callerScript = v.callerScript
  colors : Looks T → w.colors = v.colors
  clock : w.clock = v.clock

/-- A world that has changed in nothing that is outside the set, the thread apart. -/
structure Spares (T : Set Use) (σ : Link) (w w₁ : World) : Prop where
  contexts : σ.contexts.Spared w.contexts w₁.contexts
  names : Table.Spared (Keys T (.context <| .named ·)) w.names w₁.names
  threads : .fork ∉ T → w₁.threads = w.threads
  held : Table.Spared (Keys T .message) w.held w₁.held
  handles : Table.Spared (Keys T .handle) w.handles w₁.handles
  captures : σ.handles.Spared w.captures w₁.captures
  buffers : Table.Spared (Keys T .buffer) w.buffers w₁.buffers
  foreign : Table.Spared (Keys T .ofRecord) w.foreign w₁.foreign
  copies : ¬ Owns T (.hook .keeper) → w₁.copies = w.copies
  forwarders : Table.Spared (Keys T .forwarder) w.forwarders w₁.forwarders
  callerScript : ¬ Owns T (.hook .caller) → w₁.callerScript = w.callerScript
  colors : ¬ Owns T .surroundings → w₁.colors = w.colors
  clock : w₁.clock = w.clock

/-- Both worlds have gone on, `w` to `w₁` and `v` to `v₁`, and are twins still. -/
structure Joint (T : Set Use) (σ : Link) (w v : World) (τ : Link) (w₁ v₁ : World) : Prop where
  twin : Twin T τ w₁ v₁
  spares : Spares T σ w w₁
  grows : σ.Grows τ w w₁

variable {w v w₁ v₁ w₂ v₂ : World} {ρ : Link}

theorem Spares.refl (T : Set Use) (σ : Link) (w : World) : Spares T σ w w where
  contexts := .refl _ _
  names := .refl _ _
  threads _ := rfl
  held := .refl _ _
  handles := .refl _ _
  captures := .refl _ _
  buffers := .refl _ _
  foreign := .refl _ _
  copies _ := rfl
  forwarders := .refl _ _
  callerScript _ := rfl
  colors _ := rfl
  clock := rfl

theorem Spares.trans (h : Spares T σ w w₁) (hg : σ.Grows τ w w₁) (h' : Spares T τ w₁ w₂) :
    Spares T σ w w₂ where
  contexts := h.contexts.trans hg.contexts h'.contexts
  names := h.names.trans h'.names
  threads ht := (h'.threads ht).trans (h.threads ht)
  held := h.held.trans h'.held
  handles := h.handles.trans h'.handles
  captures := h.captures.trans hg.handles h'.captures
  buffers := h.buffers.trans h'.buffers
  foreign := h.foreign.trans h'.foreign
  copies hk := (h'.copies hk).trans (h.copies hk)
  forwarders := h.forwarders.trans h'.forwarders
  callerScript hk := (h'.callerScript hk).trans (h.callerScript hk)
  colors ht := (h'.colors ht).trans (h.colors ht)
  clock := h'.clock.trans h.clock

theorem Twin.joint (h : Twin T σ w v) : Joint T σ w v σ w v := ⟨h, .refl _ _ _, .refl _ _ _⟩

theorem Joint.trans (h : Joint T σ w v τ w₁ v₁) (h' : Joint T τ w₁ v₁ ρ w₂ v₂) :
    Joint T σ w v ρ w₂ v₂ where
  twin := h'.twin
  spares := h.spares.trans h.grows h'.spares
  grows := ⟨h.grows.contexts.trans h'.grows.contexts h.spares.contexts.length_le
      h'.spares.contexts.length_le,
    h.grows.handles.trans h'.grows.handles h.spares.captures.length_le
      h'.spares.captures.length_le⟩

/-- The link grows by a context or a handle that is new in both worlds. -/
theorem Twin.contexts_mono (h : Twin T σ w v) (hg : σ.Grows τ w w₁) :
    σ.contexts.Couples (Context.Twin T τ) w.contexts v.contexts :=
  h.contexts.mono fun _ _ hx => hx.mono hg

/-! ### Looking at twin worlds -/

theorem Twin.context (h : Twin T σ w v) {c c' : ContextId} (hc : σ.contexts.rel c c') :
    Context.Twin T σ (w.context c) (v.context c') := by
  have hrel := h.contexts.rel hc
  unfold World.context
  generalize w.contexts[c]? = x at hrel
  generalize v.contexts[c']? = y at hrel
  cases hrel with
  | none => exact ⟨.none, rfl⟩
  | some hxy => exact hxy

theorem Twin.installed (h : Twin T σ w v) {c c' : ContextId} (hc : σ.contexts.rel c c') :
    Option.Rel (Installed.Twin T σ) (w.installed c) (v.installed c') := (h.context hc).installed

theorem Twin.access (h : Twin T σ w v) {c c' : ContextId} (hc : σ.contexts.rel c c') :
    w.access c = v.access c' := by
  unfold World.access
  rw [h.thread.tracking, (h.context hc).locked]
  simp only [h.thread.mem_iff hc]

theorem Twin.visible (h : Twin T σ w v) {c c' : ContextId} (hc : σ.contexts.rel c c') :
    Option.Rel (Installed.Twin T σ) (w.visible c) (v.visible c') := by
  unfold World.visible
  rw [h.access hc]
  split
  · exact h.installed hc
  · exact .none

theorem Twin.shouldLog (h : Twin T σ w v) {c c' : ContextId} (hc : σ.contexts.rel c c')
    (s : Severity) (k : Component) : w.shouldLog c s k = v.shouldLog c' s k := by
  have hrel := h.visible hc
  unfold World.shouldLog
  generalize w.visible c = x at hrel
  generalize v.visible c' = y at hrel
  cases hrel with
  | none => rfl
  | some hi => simp [hi.gate]

end World

end GatedLog
