import GatedLog.Proofs.Machine.Custody
import GatedLog.Proofs.Machine.Twins

/-!
# Twin worlds at work

Whatever is done to a world, if it is done to its twin too and uses nothing outside the set, leaves
twins (`World.Joint`): first the single changes, then the functions that operations and backends are
made of. Where something new is made on both sides, the link grows by it.
-/

namespace GatedLog

variable {T : Set Use} {σ τ : Link}

theorem optionRel_eq {α : Type} {x y : Option α} (h : Option.Rel Eq x y) : x = y := by
  cases h with
  | none => rfl
  | some hxy => rw [hxy]

theorem forall₂_tail {α β : Type} {R : α → β → Prop} {xs : List α} {ys : List β}
    (h : List.Forall₂ R xs ys) : List.Forall₂ R xs.tail ys.tail := by
  cases h with
  | nil => exact .nil
  | cons _ h => exact h

namespace World

variable {w v w₁ v₁ : World} {c c' : ContextId} {id : String}

/-! ### Single changes -/

theorem Twin.modifyContext (h : Twin T σ w v) (hc : σ.contexts.rel c c') {f g : Context → Context}
    (hfg : ∀ x x', Context.Twin T σ x x' → Context.Twin T σ (f x) (g x')) :
    Joint T σ w v σ (w.modifyContext c f) (v.modifyContext c' g) where
  twin := { h with contexts := h.contexts.modify hc hfg }
  spares := { Spares.refl T σ w with contexts := Pairing.spared_modify hc _ _ }
  grows := .refl _ _ _

theorem Twin.setLock (h : Twin T σ w v) (hc : σ.contexts.rel c c') (on : Bool) :
    Joint T σ w v σ (w.setLock c on) (v.setLock c' on) :=
  h.modifyContext hc fun _ _ hx => ⟨hx.installed, rfl⟩

theorem Twin.replace (h : Twin T σ w v) (hc : σ.contexts.rel c c') {i i' : Option Installed}
    (hi : Option.Rel (Installed.Twin T σ) i i') :
    Joint T σ w v σ (w.replace c i) (v.replace c' i') :=
  h.modifyContext hc fun _ _ hx => ⟨hi, hx.locked⟩

theorem Twin.configure (h : Twin T σ w v) (hc : σ.contexts.rel c c') (f : Gate → Gate) :
    Joint T σ w v σ (w.configure c f) (v.configure c' f) := by
  unfold World.configure
  rw [h.access hc]
  split
  · refine h.modifyContext hc fun x x' hx => ⟨?_, hx.locked⟩
    exact optionRel_map hx.installed fun i i' hi => ⟨congrArg f hi.gate, hi.backend⟩
  · exact h.joint

theorem Twin.resumeThread (h : Twin T σ w v) {t t' : Thread} (ht : Thread.Twin T σ t t') :
    Joint T σ w v σ (w.resumeThread t) (v.resumeThread t') where
  twin := { h with thread := ht }
  spares := { Spares.refl T σ w with }
  grows := .refl _ _ _

theorem Twin.enter (h : Twin T σ w v) (hc : σ.contexts.rel c c') :
    Joint T σ w v σ (w.enter c) (v.enter c') := by
  have hlock := h.setLock hc true
  unfold World.enter
  rw [h.thread.tracking]
  split
  · have ht := hlock.twin.thread
    exact hlock.trans (hlock.twin.resumeThread ⟨.cons hc ht.running, ht.tracking, ht.number⟩)
  · exact hlock

theorem Twin.leave (h : Twin T σ w v) (hc : σ.contexts.rel c c') (counted : Bool) :
    Joint T σ w v σ (w.leave c counted) (v.leave c' counted) := by
  have hlock := h.setLock hc false
  unfold World.leave
  split
  · have ht := hlock.twin.thread
    refine hlock.trans (hlock.twin.resumeThread ⟨?_, ht.tracking, ht.number⟩)
    exact forall₂_tail h.thread.running
  · exact hlock

theorem Twin.loseTrack (h : Twin T σ w v) : Joint T σ w v σ w.loseTrack v.loseTrack :=
  h.resumeThread ⟨.nil, rfl, h.thread.number⟩

theorem Twin.startThread (h : Twin T σ w v) (hT : .fork ∈ T) :
    Joint T σ w v σ w.startThread v.startThread where
  twin := { h with
    thread := ⟨.nil, rfl, fun hl => congrArg (· + 1) (h.threads hl)⟩
    threads := fun hl => congrArg (· + 1) (h.threads hl) }
  spares := { Spares.refl T σ w with threads := fun hn => absurd hT hn }
  grows := .refl _ _ _

theorem Twin.countMessage (h : Twin T σ w v) : Joint T σ w v σ w.countMessage v.countMessage where
  twin := { h with }
  spares := { Spares.refl T σ w with }
  grows := .refl _ _ _

theorem Twin.newBackend (h : Twin T σ w v) {k k' : BackendKind} (hk : BackendKind.Twin T σ k k') :
    Joint T σ w v σ (w.newBackend k).2 (v.newBackend k').2 ∧
      Backend.Twin T σ (w.newBackend k).1 (v.newBackend k').1 :=
  ⟨⟨{ h with }, { Spares.refl T σ w with }, .refl _ _ _⟩, ⟨hk⟩⟩

theorem Twin.hold (h : Twin T σ w v) (hT : Keys T .message id) {m m' : Message}
    (hm : Message.Twin σ m m') : Joint T σ w v σ (w.hold id m) (v.hold id m') where
  twin := { h with held := h.held.put hm }
  spares := { Spares.refl T σ w with held := Table.spared_put hT _ _ }
  grows := .refl _ _ _

theorem Twin.release (h : Twin T σ w v) (hT : Keys T .message id) :
    Joint T σ w v σ { w with held := w.held.erase id } { v with held := v.held.erase id } where
  twin := { h with held := h.held.erase id }
  spares := { Spares.refl T σ w with held := Table.spared_erase hT _ }
  grows := .refl _ _ _

theorem Twin.modifyCapture (h : Twin T σ w v) {a a' : HandleId} (ha : σ.handles.rel a a')
    (f : List Captured → List Captured) :
    Joint T σ w v σ { w with captures := w.captures.modify a f }
      { v with captures := v.captures.modify a' f } where
  twin := { h with captures := h.captures.modify ha fun _ _ hx => congrArg f hx }
  spares := { Spares.refl T σ w with captures := Pairing.spared_modify ha _ _ }
  grows := .refl _ _ _

theorem Twin.writer (h : Twin T σ w v) (hT : Keys T .buffer id) : w.writer id = v.writer id := by
  rw [World.writer, World.writer, optionRel_eq (h.buffers id hT)]

theorem Twin.setWriter (h : Twin T σ w v) (hT : Keys T .buffer id) (x : Writer) :
    Joint T σ w v σ (w.setWriter id x) (v.setWriter id x) where
  twin := { h with buffers := h.buffers.put rfl }
  spares := { Spares.refl T σ w with buffers := Table.spared_put hT _ _ }
  grows := .refl _ _ _

theorem Twin.putRecord (h : Twin T σ w v) (hT : Keys T .ofRecord id) (r : ForeignRecord) :
    Joint T σ w v σ (w.putRecord id r) (v.putRecord id r) where
  twin := { h with foreign := h.foreign.put rfl }
  spares := { Spares.refl T σ w with foreign := Table.spared_put hT _ _ }
  grows := .refl _ _ _

theorem Twin.eraseRecord (h : Twin T σ w v) (hT : Keys T .ofRecord id) :
    Joint T σ w v σ { w with foreign := w.foreign.erase id }
      { v with foreign := v.foreign.erase id } where
  twin := { h with foreign := h.foreign.erase id }
  spares := { Spares.refl T σ w with foreign := Table.spared_erase hT _ }
  grows := .refl _ _ _

theorem Twin.keepCopy (h : Twin T σ w v) (hT : Owns T (.hook .keeper)) (r : ForeignRecord) :
    Joint T σ w v σ (w.keepCopy r) (v.keepCopy r) where
  twin := { h with
    foreign := by
      show Table.Agree _ _ (w.foreign.put (copyName w.copies) r.copy)
        (v.foreign.put (copyName v.copies) r.copy)
      rw [h.copies hT]
      exact h.foreign.put rfl
    copies := fun hk => congrArg (· + 1) (h.copies hk) }
  spares := { Spares.refl T σ w with
    foreign := by
      refine Table.spared_put ?_ _ _
      rw [Keys, Resource.ofRecord_copyName]
      exact hT
    copies := fun hn => absurd hT hn }
  grows := .refl _ _ _

theorem Twin.putForwarder (h : Twin T σ w v) (hT : Keys T .forwarder id) {b b' : Backend}
    (hb : Backend.Twin T σ b b') :
    Joint T σ w v σ (w.putForwarder id b) (v.putForwarder id b') where
  twin := { h with forwarders := h.forwarders.put hb }
  spares := { Spares.refl T σ w with forwarders := Table.spared_put hT _ _ }
  grows := .refl _ _ _

theorem Twin.eraseForwarder (h : Twin T σ w v) (hT : Keys T .forwarder id) :
    Joint T σ w v σ { w with forwarders := w.forwarders.erase id }
      { v with forwarders := v.forwarders.erase id } where
  twin := { h with forwarders := h.forwarders.erase id }
  spares := { Spares.refl T σ w with forwarders := Table.spared_erase hT _ }
  grows := .refl _ _ _

theorem Twin.setCallerScript (h : Twin T σ w v) (hT : Owns T (.hook .caller)) (ops : List Op) :
    Joint T σ w v σ { w with callerScript := ops } { v with callerScript := ops } where
  twin := { h with callerScript := fun _ => rfl }
  spares := { Spares.refl T σ w with callerScript := fun hn => absurd hT hn }
  grows := .refl _ _ _

theorem Twin.setColors (h : Twin T σ w v) (hT : Owns T .surroundings) (on : Bool) :
    Joint T σ w v σ { w with colors := on } { v with colors := on } where
  twin := { h with colors := fun _ => rfl }
  spares := { Spares.refl T σ w with colors := fun hn => absurd hT hn }
  grows := .refl _ _ _

/-! ### New contexts and handles -/

theorem Twin.addContext (h : Twin T σ w v) (name : String)
    (hT : Keys T (.context <| .named ·) name)
    {i i' : Option Installed} (hi : Option.Rel (Installed.Twin T σ) i i') :
    ∃ τ, Joint T σ w v τ (w.addContext name i) (v.addContext name i') := by
  let τ : Link := ⟨σ.contexts.extend _ _ h.contexts.spans, σ.handles⟩
  have hg : σ.Grows τ w (w.addContext name i) := by
    refine ⟨?_, .refl _ _ _⟩
    rw [World.addContext, List.length_append]
    exact Pairing.grows_extend h.contexts.spans
  have hnew : τ.contexts.rel w.contexts.length v.contexts.length := .inr ⟨rfl, rfl⟩
  exact ⟨τ, {
    twin := { h with
      contexts := (h.contexts_mono hg).append ⟨optionRel_mono hi fun _ _ hi => hi.mono hg, rfl⟩
      global := fun hglobal => hg.contexts.keeps (h.global hglobal)
      names := (h.names.mono fun _ _ hc => hg.contexts.keeps hc).put hnew
      thread := h.thread.mono hg
      held := h.held.mono fun _ _ hm => hm.mono hg
      forwarders := h.forwarders.mono fun _ _ hb => hb.mono hg }
    spares := { Spares.refl T σ w with
      contexts := Pairing.spared_append _ _ _
      names := Table.spared_put hT _ _ }
    grows := hg }⟩

theorem Twin.addCapture (h : Twin T σ w v) :
    ∃ τ : Link, τ.handles.rel w.captures.length v.captures.length ∧
      (∀ {a a'}, σ.handles.rel a a' → τ.handles.rel a a') ∧
      ∀ names names', Table.Agree (Keys T .handle) τ.handles.rel names names' →
        Table.Spared (Keys T .handle) w.handles names →
        Joint T σ w v τ { w with captures := w.captures ++ [[]], handles := names }
          { v with captures := v.captures ++ [[]], handles := names' } := by
  let τ : Link := ⟨σ.contexts, σ.handles.extend _ _ h.captures.spans⟩
  refine ⟨τ, .inr ⟨rfl, rfl⟩, .inl, fun names names' hn hs => ?_⟩
  have hg : σ.Grows τ w { w with captures := w.captures ++ [[]], handles := names } := by
    refine ⟨.refl _ _ _, ?_⟩
    rw [List.length_append]
    exact Pairing.grows_extend h.captures.spans
  exact {
    twin := { h with
      contexts := h.contexts_mono hg
      global := fun hglobal => hg.contexts.keeps (h.global hglobal)
      names := h.names.mono fun _ _ hc => hg.contexts.keeps hc
      thread := h.thread.mono hg
      held := h.held.mono fun _ _ hm => hm.mono hg
      handles := hn
      captures := h.captures.append rfl
      forwarders := h.forwarders.mono fun _ _ hb => hb.mono hg }
    spares := { Spares.refl T σ w with
      handles := hs
      captures := Pairing.spared_append _ _ _ }
    grows := hg }

theorem Twin.freshHandle (h : Twin T σ w v) (name : Option String)
    (hT : ∀ n, name = some n → Keys T .handle n) :
    ∃ τ, Joint T σ w v τ (w.freshHandle name).2 (v.freshHandle name).2 ∧
      τ.handles.rel (w.freshHandle name).1 (v.freshHandle name).1 := by
  obtain ⟨τ, hnew, hkeeps, hjoint⟩ := h.addCapture
  have hnames := h.handles.mono fun _ _ hh => hkeeps hh
  cases name with
  | none => exact ⟨τ, hjoint _ _ hnames (.refl _ _), hnew⟩
  | some n => exact ⟨τ, hjoint _ _ (hnames.put hnew) (Table.spared_put (hT n rfl) _ _), hnew⟩

theorem Twin.handle (h : Twin T σ w v) {name : String} (hT : Keys T .handle name) :
    ∃ τ, Joint T σ w v τ (w.handle name).2 (v.handle name).2 ∧
      τ.handles.rel (w.handle name).1 (v.handle name).1 := by
  have hrel := h.handles name hT
  unfold World.handle
  generalize w.handles.get? name = x at hrel
  generalize v.handles.get? name = y at hrel
  cases hrel with
  | some hh => exact ⟨σ, h.joint, hh⟩
  | none =>
    have hname : ∀ n, some name = some n → Keys T .handle n := fun n hn => Option.some.inj hn ▸ hT
    exact h.freshHandle _ hname

/-- A backend that is made on both sides is the same. -/
theorem Twin.make (h : Twin T σ w v) (spec : BackendSpec) (hT : ∀ u ∈ spec.uses, u ∈ T) :
    ∃ τ, Joint T σ w v τ (w.make spec).2 (v.make spec).2 ∧
      Backend.Twin T τ (w.make spec).1 (v.make spec).1 := by
  cases spec with
  | memory handle name =>
    cases handle with
    | none =>
      obtain ⟨τ, hjoint, hh⟩ := h.freshHandle name fun n hn =>
        hT ⟨.handle n, .change⟩ (by simp [BackendSpec.uses, hn])
      obtain ⟨hnew, hb⟩ := hjoint.twin.newBackend (.memory hh)
      exact ⟨τ, hjoint.trans hnew, hb⟩
    | some n =>
      obtain ⟨τ, hjoint, hh⟩ := h.handle (hT ⟨.handle n, .change⟩ (by simp [BackendSpec.uses]))
      obtain ⟨hnew, hb⟩ := hjoint.twin.newBackend (.memory hh)
      exact ⟨τ, hjoint.trans hnew, hb⟩
  | forwarding hook =>
    exact ⟨σ, h.newBackend (.forwarding hook fun k hk => hT ⟨.hook k, .change⟩ (by
      simp [BackendSpec.uses, hk]))⟩
  | tracing => exact ⟨σ, h.newBackend .tracing⟩
  | console layout buffer =>
    have hlook : Looks T := ⟨.look, by decide, hT .look (by simp [BackendSpec.uses])⟩
    exact ⟨σ, h.newBackend (.console layout buffer hlook fun id hid =>
      hT ⟨.buffer id, .change⟩ (by simp [BackendSpec.uses, hid]))⟩
  | custom tag onWrite onFlush onDestroy onName =>
    exact ⟨σ, h.newBackend (.custom tag onWrite onFlush onDestroy onName)⟩

/-! ### Addressing contexts and making messages -/

theorem Twin.lookUp (h : Twin T σ w v) {ctx : ContextName}
    (hT : ∀ u ∈ v.contextUses ctx, u ∈ T) : σ.contexts.rel (w.lookUp ctx) (v.lookUp ctx) := by
  have hglobal : v.lookUp ctx = World.global →
      σ.contexts.rel World.global World.global := fun hc =>
    h.global (hT ⟨.context .global, .change⟩ (by simp [contextUses, hc]))
  cases ctx with
  | global => exact hglobal rfl
  | named n =>
    have hrel := h.names n (hT ⟨.context (.named n), .change⟩ (by simp [contextUses]))
    show σ.contexts.rel ((w.names.get? n).getD World.global) ((v.names.get? n).getD World.global)
    replace hglobal : (v.names.get? n).getD World.global = World.global → _ := hglobal
    generalize w.names.get? n = x at hrel ⊢
    generalize v.names.get? n = y at hrel hglobal ⊢
    cases hrel with
    | some hc => exact hc
    | none => exact hglobal rfl

theorem Twin.newMessage (h : Twin T σ w v) (hc : σ.contexts.rel c c') (s : Severity)
    (k : Component) : Message.Twin σ (w.newMessage c s k) (v.newMessage c' s k) where
  plain := by
    rw [World.newMessage, World.newMessage, h.shouldLog hc]
    rfl
  context := hc

end World

theorem Message.Twin.worth {m m' : Message} (h : Message.Twin σ m m') : m.worth = m'.worth := by
  show m.plain.worth = m'.plain.worth
  rw [h.plain]

theorem Message.Twin.text {m m' : Message} (h : Message.Twin σ m m') : m.text = m'.text := by
  show m.plain.text = m'.plain.text
  rw [h.plain]

theorem Message.Twin.appendAll {m m' : Message} (h : Message.Twin σ m m') (ps : List Part) :
    Message.Twin σ (m.appendAll ps) (m'.appendAll ps) where
  plain := by
    have key : ∀ m : Message, (m.appendAll ps).plain = m.plain.appendAll ps := fun m => by
      rw [Message.appendAll_eq, Message.appendAll_eq]
      rfl
    rw [key, key, h.plain]
  context := by
    rw [Message.appendAll_eq, Message.appendAll_eq]
    exact h.context

/-! ### Operations without backends -/

namespace World

variable {w v : World} {c c' : ContextId}

theorem lastOps_eq {k k' : BackendKind} (hk : BackendKind.Twin T σ k k') :
    lastOps k = lastOps k' := by
  cases hk <;> rfl

theorem nameOps_eq {k k' : BackendKind} (hk : BackendKind.Twin T σ k k') :
    nameOps k = nameOps k' := by
  cases hk <;> rfl

theorem Twin.applyContext (h : Twin T σ w v) (hc : σ.contexts.rel c c') (o : ContextOp) :
    Joint T σ w v σ (w.applyContext c o).1 (v.applyContext c' o).1 ∧
      (w.applyContext c o).2 = (v.applyContext c' o).2 := by
  have hvisible := h.visible hc
  cases o with
  | shouldLog s k => exact ⟨h.joint, congrArg Answer.truth (h.shouldLog hc s k)⟩
  | gate =>
    refine ⟨h.joint, congrArg Answer.gate (optionRel_eq ?_)⟩
    exact optionRel_map hvisible fun _ _ hi => hi.gate
  | name =>
    refine ⟨h.joint, congrArg Answer.name (optionRel_eq ?_)⟩
    refine optionRel_map hvisible fun i i' hi => ?_
    have hk := hi.backend.kind
    unfold Backend.name
    generalize i.backend.kind = x at hk
    generalize i'.backend.kind = y at hk
    cases hk <;> rfl
  | enable k => exact ⟨h.configure hc (·.enable k), rfl⟩
  | disable k => exact ⟨h.configure hc (·.disable k), rfl⟩
  | setThreshold s => exact ⟨h.configure hc (·.setThreshold s), rfl⟩
  | setGate g => exact ⟨h.configure hc fun _ => g, rfl⟩

/-- The operations that a backend runs for its name, if it is asked. -/
theorem Twin.asked (h : Twin T σ w v) (hc : σ.contexts.rel c c') (o : ContextOp) :
    w.asked c o = v.asked c' o := by
  cases o with
  | name =>
    rw [World.asked, World.asked]
    refine congrArg (Option.getD · []) (optionRel_eq ?_)
    exact optionRel_map (h.installed hc) fun _ _ hi => nameOps_eq hi.backend.kind
  | _ => rfl

theorem Twin.captured (h : Twin T σ w v) {a a' : HandleId} (ha : σ.handles.rel a a') :
    w.captured a = v.captured a' := by
  unfold World.captured
  rw [optionRel_eq (h.captures.rel ha)]

theorem Twin.onHandle (h : Twin T σ w v) {name : String} (hT : Keys T .handle name)
    {f : World → HandleId → World × Answer}
    (hf : ∀ {τ w v}, Twin T τ w v → ∀ {a a'}, τ.handles.rel a a' →
      Joint T τ w v τ (f w a).1 (f v a').1 ∧ (f w a).2 = (f v a').2) :
    ∃ τ, Joint T σ w v τ (w.onHandle name f).1 (v.onHandle name f).1 ∧
      (w.onHandle name f).2 = (v.onHandle name f).2 := by
  obtain ⟨τ, hjoint, ha⟩ := h.handle hT
  obtain ⟨hf₁, hf₂⟩ := hf hjoint.twin ha
  exact ⟨τ, hjoint.trans hf₁, hf₂⟩

theorem Twin.copyRecord (h : Twin T σ w v) {id : String} (hT : Keys T .ofRecord id)
    (r : Option ForeignRecord) :
    Joint T σ w v σ (w.copyRecord id r).1 (v.copyRecord id r).1 ∧
      (w.copyRecord id r).2 = (v.copyRecord id r).2 := by
  cases r with
  | none => exact ⟨h.joint, rfl⟩
  | some r => exact ⟨h.putRecord hT r.copy, rfl⟩

/-- What is answered about an open message. -/
theorem Twin.plain_held (h : Twin T σ w v) {id : String} (hT : Keys T .message id)
    {f : Message → Answer} (hf : ∀ {m m'}, Message.Twin σ m m' → (f m).plain = (f m').plain) :
    (((w.held.get? id).map f).getD .nothing).plain =
      (((v.held.get? id).map f).getD .nothing).plain := by
  have hrel := h.held id hT
  generalize w.held.get? id = x at hrel ⊢
  generalize v.held.get? id = y at hrel ⊢
  cases hrel with
  | none => rfl
  | some hm => exact hf hm

theorem Twin.applyStore (h : Twin T σ w v) {o : StoreOp} (hT : ∀ u ∈ o.uses, u ∈ T) :
    ∃ τ, Joint T σ w v τ (w.applyStore o).1 (v.applyStore o).1 ∧
      (w.applyStore o).2.plain = (v.applyStore o).2.plain := by
  have plainly : ∀ {name : String} {f : World → HandleId → World × Answer}, Keys T .handle name →
      (∀ {τ w v}, Twin T τ w v → ∀ {a a'}, τ.handles.rel a a' →
        Joint T τ w v τ (f w a).1 (f v a').1 ∧ (f w a).2 = (f v a').2) →
      ∃ τ, Joint T σ w v τ (w.onHandle name f).1 (v.onHandle name f).1 ∧
        (w.onHandle name f).2.plain = (v.onHandle name f).2.plain := fun hname hf => by
    obtain ⟨τ, hjoint, ha⟩ := h.onHandle hname hf
    exact ⟨τ, hjoint, congrArg Answer.plain ha⟩
  cases o with
  | inspect id =>
    refine ⟨σ, h.joint, h.plain_held (hT ⟨.message id, .change⟩ (by simp [StoreOp.uses])) ?_⟩
    exact fun hm => congrArg Answer.message hm.plain
  | describe id =>
    refine ⟨σ, h.joint, h.plain_held (hT ⟨.message id, .change⟩ (by simp [StoreOp.uses])) ?_⟩
    intro m m' hm
    show Answer.words m.plain.describe = Answer.words m'.plain.describe
    rw [hm.plain]
  | records name =>
    exact plainly (hT ⟨.handle name, .change⟩ (by simp [StoreOp.uses])) fun h _ _ ha =>
      ⟨h.joint, congrArg Answer.captured (h.captured ha)⟩
  | take name =>
    exact plainly (hT ⟨.handle name, .change⟩ (by simp [StoreOp.uses])) fun h _ _ ha =>
      ⟨h.modifyCapture ha _, congrArg Answer.captured (h.captured ha)⟩
  | clear name =>
    exact plainly (hT ⟨.handle name, .change⟩ (by simp [StoreOp.uses])) fun h _ _ ha =>
      ⟨h.modifyCapture ha _, rfl⟩
  | counts name =>
    refine plainly (hT ⟨.handle name, .change⟩ (by simp [StoreOp.uses])) fun h a a' ha =>
      ⟨h.joint, ?_⟩
    show Answer.counts _ = Answer.counts _
    rw [h.captured ha]
  | drain id =>
    have hid : Keys T .buffer id := hT ⟨.buffer id, .change⟩ (by simp [StoreOp.uses])
    simp only [World.applyStore, h.writer hid]
    exact ⟨σ, h.setWriter hid _, trivial⟩
  | setWriter id limit chunk fails =>
    have hid : Keys T .buffer id := hT ⟨.buffer id, .change⟩ (by simp [StoreOp.uses])
    simp only [World.applyStore, h.writer hid]
    exact ⟨σ, h.setWriter hid _, trivial⟩
  | setColors on =>
    exact ⟨σ, h.setColors (hT ⟨.surroundings, .change⟩ (by simp [StoreOp.uses])) on, rfl⟩
  | newRecord id text level component =>
    exact ⟨σ, h.putRecord (hT ⟨.ofRecord id, .change⟩ (by simp [StoreOp.uses])) _, rfl⟩
  | copyRecord id source =>
    have hsource : source.bind w.foreign.get? = source.bind v.foreign.get? := by
      cases source with
      | none => rfl
      | some i => exact optionRel_eq (h.foreign i (hT ⟨.ofRecord i, .change⟩ (by simp [StoreOp.uses])))
    obtain ⟨hjoint, ha⟩ := h.copyRecord (hT ⟨.ofRecord id, .change⟩ (by simp [StoreOp.uses]))
      (source.bind v.foreign.get?)
    simp only [World.applyStore, hsource]
    exact ⟨σ, hjoint, congrArg Answer.plain ha⟩
  | readRecord id =>
    simp only [World.applyStore,
      optionRel_eq (h.foreign id (hT ⟨.ofRecord id, .change⟩ (by simp [StoreOp.uses])))]
    exact ⟨σ, h.joint, trivial⟩
  | freeRecord id =>
    cases id with
    | none => exact ⟨σ, h.joint, rfl⟩
    | some id => exact ⟨σ, h.eraseRecord (hT ⟨.ofRecord id, .change⟩ (by simp [StoreOp.uses])), rfl⟩
  | newForwarder id hook =>
    obtain ⟨hnew, hb⟩ := h.newBackend (.forwarding hook fun k hk =>
      hT ⟨.hook k, .change⟩ (by simp [StoreOp.uses, BackendSpec.uses, hk]))
    exact ⟨σ, hnew.trans (hnew.twin.putForwarder
      (hT ⟨.forwarder id, .change⟩ (by simp [StoreOp.uses])) hb), rfl⟩
  | setForwarder id hook =>
    have hid : Keys T .forwarder id := hT ⟨.forwarder id, .change⟩ (by simp [StoreOp.uses])
    have hhook : ∀ k, hook = some k → Owns T (.hook k) := fun k hk =>
      hT ⟨.hook k, .change⟩ (by simp [StoreOp.uses, BackendSpec.uses, hk])
    have hrel := h.forwarders id hid
    simp only [World.applyStore]
    generalize w.forwarders.get? id = x at hrel ⊢
    generalize v.forwarders.get? id = y at hrel ⊢
    cases hrel with
    | none => exact ⟨σ, h.joint, rfl⟩
    | some hb => exact ⟨σ, h.putForwarder hid ⟨.forwarding hook hhook⟩, rfl⟩

/-! ### Backends at work -/

/-- What backends do in two worlds. -/
structure Reacts (T : Set Use) (σ : Link) (w v : World) (r r' : Reaction) : Prop where
  joint : Joint T σ w v σ r.world r'.world
  happenings : List.Forall₂ (Happening.Twin T σ) r.happenings r'.happenings
  ops : r.ops = r'.ops

theorem Twin.silent (h : Twin T σ w v) (ops : List Op) :
    Reacts T σ w v { world := w, ops := ops } { world := v, ops := ops } := ⟨h.joint, .nil, rfl⟩

theorem recordOf_congr {m m' : Message} (hm : Message.Twin σ m m') : recordOf m = recordOf m' := by
  show recordOf m.plain = recordOf m'.plain
  rw [hm.plain]

theorem Twin.call (h : Twin T σ w v) {m m' : Message} (hm : Message.Twin σ m m') {hook : Hook}
    (hT : Owns T (.hook hook)) : Reacts T σ w v (w.call m hook) (v.call m' hook) := by
  have hr := recordOf_congr hm
  refine ⟨?_, ?_, ?_⟩
  · unfold World.call
    rw [hr]
    dsimp only
    split
    · next hk =>
      subst hk
      exact h.keepCopy hT _
    · exact h.joint
  · unfold World.call
    rw [hr]
    exact .cons (.called hook _ hT) .nil
  · show (if hook = .caller then w.callerScript else []) =
      if hook = .caller then v.callerScript else []
    split
    · next hk =>
      subst hk
      exact h.callerScript hT
    · rfl

theorem Twin.print (h : Twin T σ w v) (line : String) {buffer : Option String}
    (hT : ∀ id, buffer = some id → Owns T (.buffer id)) :
    Reacts T σ w v (w.print line buffer) (v.print line buffer) := by
  cases buffer with
  | none => exact ⟨h.joint, .cons (.printed line) .nil, rfl⟩
  | some id =>
    have hid : Keys T .buffer id := hT id rfl
    refine ⟨?_, .nil, rfl⟩
    show Joint T σ w v σ (w.setWriter id ((w.writer id).write _))
      (v.setWriter id ((v.writer id).write _))
    rw [h.writer hid]
    exact h.setWriter hid _

theorem Twin.record (h : Twin T σ w v) {m m' : Message} (hm : Message.Twin σ m m')
    {k k' : BackendKind} (hk : BackendKind.Twin T σ k k') :
    Reacts T σ w v (w.record m k) (v.record m' k') := by
  have hplain := hm.plain
  simp only [Message.plain, Message.mk.injEq, true_and] at hplain
  obtain ⟨hs, hc, -, ht⟩ := hplain
  cases hk with
  | memory hh =>
    refine ⟨?_, .nil, rfl⟩
    show Joint T σ w v σ (w.capture _ ⟨m.severity, m.component, m.text⟩) (v.capture _ _)
    rw [hs, hc, ht]
    exact h.modifyCapture hh _
  | tracing =>
    refine ⟨h.joint, ?_, rfl⟩
    unfold World.record
    rw [hs, hc, ht]
    exact .cons (.emitted _) .nil
  | console layout buffer hl hb =>
    have hstamp : w.stamp = v.stamp := by
      rw [World.stamp, World.stamp, h.clock, h.thread.number hl]
    unfold World.record
    rw [hs, hc, ht, hstamp, h.colors hl]
    exact h.print _ hb
  | forwarding hook hh =>
    cases hook with
    | none => exact h.silent []
    | some hook => exact h.call hm (hh hook rfl)
  | custom tag onWrite onFlush onDestroy onName => exact h.silent []

theorem Twin.receive (h : Twin T σ w v) {m m' : Message} (hm : Message.Twin σ m m')
    {k k' : BackendKind} (hk : BackendKind.Twin T σ k k') :
    Reacts T σ w v (w.receive m k) (v.receive m' k') := by
  have hrecord := h.record hm hk
  have hsilent := h.silent []
  have hworth := hm.worth
  cases hk with
  | custom tag onWrite onFlush onDestroy onName => exact h.silent onWrite
  | _ =>
    unfold World.receive
    dsimp only
    rw [hworth]
    split
    · exact hrecord
    · exact hsilent

theorem Twin.flushed (h : Twin T σ w v) {k k' : BackendKind} (hk : BackendKind.Twin T σ k k') :
    Reacts T σ w v (w.flushed k) (v.flushed k') := by
  cases hk with
  | custom tag onWrite onFlush onDestroy onName => exact h.silent onFlush
  | console layout buffer hl hb =>
    cases buffer with
    | none => exact h.silent []
    | some id => exact ⟨h.joint, .cons (.bufferFlushed id) .nil, rfl⟩
  | _ => exact h.silent []

end World

end GatedLog
