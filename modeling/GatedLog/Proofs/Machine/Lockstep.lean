import GatedLog.Proofs.Machine.CallStack
import GatedLog.Proofs.Machine.TwinWork

/-!
# Twin states in lockstep

Twin tasks in twin worlds do the same: they put twin tasks on the agenda, the worlds stay twins, and
what happens looks the same (`perform_paired`, `unwind_paired`). An answer that is left over from
before need not be the same on both sides, as long as another one is given before it is read
(`Settles`).
-/

namespace GatedLog

variable {T : Set Use} {σ τ : Link}

/-! ### Twin tasks -/

inductive Target.Twin (T : Set Use) (σ : Link) : Target → Target → Prop
  | create (ctx : String) (hT : Keys T (.context <| .named ·) ctx) :
    Twin T σ (.create ctx) (.create ctx)
  | install {c c' : ContextId} (hc : σ.contexts.rel c c') : Twin T σ (.install c) (.install c')

/-- Tasks that do the same, those of the program itself apart. -/
inductive Task.Twin (T : Set Use) (σ : Link) : Task → Task → Prop
  | script (ops : List Op) : Twin T σ (.script ops) (.script ops)
  | note : Twin T σ .note .note
  | collect (ops : List Op) {as as' : List Answer}
    (ha : as.map Answer.plain = as'.map Answer.plain) : Twin T σ (.collect ops as) (.collect ops as')
  | gather (ops : List Op) {as as' : List Answer}
    (ha : as.map Answer.plain = as'.map Answer.plain) : Twin T σ (.gather ops as) (.gather ops as')
  | begin (o : Op) : Twin T σ (.begin o) (.begin o)
  | respond {a a' : Answer} (ha : a.plain = a'.plain) : Twin T σ (.respond a) (.respond a')
  | drop {m m' : Message} (hm : Message.Twin σ m m') : Twin T σ (.drop m) (.drop m')
  | write {c c' : ContextId} {m m' : Message} (hc : σ.contexts.rel c c') (hm : Message.Twin σ m m') :
    Twin T σ (.write c m) (.write c' m')
  | flush {c c' : ContextId} (hc : σ.contexts.rel c c') : Twin T σ (.flush c) (.flush c')
  | leave {c c' : ContextId} (counted : Bool) (hc : σ.contexts.rel c c') :
    Twin T σ (.leave c counted) (.leave c' counted)
  | unlock {c c' : ContextId} (hc : σ.contexts.rel c c') : Twin T σ (.unlock c) (.unlock c')
  | swap {c c' : ContextId} {i i' : Option Installed} (hc : σ.contexts.rel c c')
    (hi : Option.Rel (Installed.Twin T σ) i i') : Twin T σ (.swap c i) (.swap c' i')
  | destroy {b b' : Backend} (hb : Backend.Twin T σ b b') : Twin T σ (.destroy b) (.destroy b')
  | emit (e : Event) : Twin T σ (.emit e) (.emit e)
  | build (steps : List BuildStep) {b b' : Option Backend} (g : Gate) (gates : List Gate)
    {target target' : Target} (hT : ∀ u ∈ buildUses steps, u ∈ T)
    (hb : Option.Rel (Backend.Twin T σ) b b') (ht : Target.Twin T σ target target') :
    Twin T σ (.build steps b g gates target) (.build steps b' g gates target')
  | forward {b b' : Backend} {m m' : Message} (hb : Backend.Twin T σ b b')
    (hm : Message.Twin σ m m') : Twin T σ (.forward b m) (.forward b' m')
  | fork (ops : List Op) (hT : .fork ∈ T) : Twin T σ (.fork ops) (.fork ops)
  | crew {c c' : ContextId} (s : Severity) (k : Component) (thread count : Nat)
    (hT : .fork ∈ T) (hc : σ.contexts.rel c c') :
    Twin T σ (.crew c s k thread count) (.crew c' s k thread count)
  | numbered {c c' : ContextId} (s : Severity) (k : Component) (thread first count : Nat)
    (hc : σ.contexts.rel c c') :
    Twin T σ (.numbered c s k thread first count) (.numbered c' s k thread first count)
  | forkExit (ops exit : List Op) (hT : .fork ∈ T) :
    Twin T σ (.forkExit ops exit) (.forkExit ops exit)
  | exit (ops : List Op) : Twin T σ (.exit ops) (.exit ops)
  | pair {as as' : List Answer} (ha : as.map Answer.plain = as'.map Answer.plain) :
    Twin T σ (.pair as) (.pair as')
  | join {t t' : Thread} (ht : Thread.Twin T σ t t') : Twin T σ (.join t) (.join t')
  | resume (text : String) : Twin T σ (.resume text) (.resume text)

theorem Target.Twin.mono {w w₁ : World} (h : σ.Grows τ w w₁) {x x' : Target}
    (hx : Target.Twin T σ x x') :
    Target.Twin T τ x x' := by
  cases hx with
  | create ctx hT => exact .create ctx hT
  | install hc => exact .install (h.contexts.keeps hc)

theorem Task.Twin.mono {w w₁ : World} (h : σ.Grows τ w w₁) {t t' : Task} (ht : Task.Twin T σ t t') :
    Task.Twin T τ t t' := by
  have hrel : ∀ {c c'}, σ.contexts.rel c c' → τ.contexts.rel c c' := h.contexts.keeps
  cases ht with
  | script ops => exact .script ops
  | note => exact .note
  | collect ops ha => exact .collect ops ha
  | gather ops ha => exact .gather ops ha
  | «begin» o => exact .begin o
  | respond ha => exact .respond ha
  | drop hm => exact .drop (hm.mono h)
  | write hc hm => exact .write (hrel hc) (hm.mono h)
  | flush hc => exact .flush (hrel hc)
  | leave counted hc => exact .leave counted (hrel hc)
  | unlock hc => exact .unlock (hrel hc)
  | swap hc hi => exact .swap (hrel hc) (optionRel_mono hi fun _ _ hi => hi.mono h)
  | destroy hb => exact .destroy (hb.mono h)
  | emit e => exact .emit e
  | build steps g gates hT hb ht =>
    exact .build steps g gates hT (optionRel_mono hb fun _ _ hb => hb.mono h) (ht.mono h)
  | forward hb hm => exact .forward (hb.mono h) (hm.mono h)
  | fork ops hT => exact .fork ops hT
  | crew s k thread count hT hc => exact .crew s k thread count hT (hrel hc)
  | numbered s k thread first count hc => exact .numbered s k thread first count (hrel hc)
  | forkExit ops exit hT => exact .forkExit ops exit hT
  | exit ops => exact .exit ops
  | pair ha => exact .pair ha
  | join ht => exact .join (ht.mono h)
  | resume text => exact .resume text

/-! ### Answers that are left over -/

/-- Whether the task gives an answer before one is read. Some tasks do neither. -/
def Task.verdict : Task → Option Bool
  | program _ => some true
  | report => some false
  | note => some false
  | collect _ _ => some true
  | gather _ _ => some false
  | begin _ => some true
  | respond _ => some true
  | build _ _ _ _ _ => some true
  | fork _ => some true
  | forkExit _ _ => some true
  | exit _ => some false
  | pair _ => some false
  | resume _ => some true
  | _ => none

/-- An answer is given before one is read. -/
def Settles : List Task → Prop
  | [] => False
  | t :: ts =>
    match t.verdict with
    | some b => b = true
    | none => Settles ts

namespace State

/-! ### Paired outcomes -/

/-- States with twin worlds, neither of which is ahead. -/
structure Level (T : Set Use) (σ : Link) (s s' : State) : Prop where
  world : World.Twin T σ s.world s'.world
  condition : s.condition = s'.condition
  registered : s.registered = s'.registered

/-- What two tasks do to two states looks the same. -/
inductive Paired (T : Set Use) (σ : Link) (s s' : State) (t : Task) (o o' : Outcome) : Prop
  | intro (τ : Link) (ps ps' : List Task)
    (joint : World.Joint T σ s.world s'.world τ o.1.world o'.1.world)
    (agenda : o.1.agenda = ps ++ s.agenda) (agenda' : o'.1.agenda = ps' ++ s'.agenda)
    (tasks : List.Forall₂ (Task.Twin T τ) ps ps')
    (condition : o.1.condition = o'.1.condition)
    (registered : o.1.registered = o'.1.registered)
    (happenings : List.Forall₂ (Happening.Twin T τ) o.2 o'.2)
    (answers : s.answer.plain = s'.answer.plain → o.1.answer.plain = o'.1.answer.plain)
    (settles : o.1.condition = .running → ∀ ts, Settles (t :: ts) →
      o.1.answer.plain = o'.1.answer.plain ∨ Settles (ps ++ ts))

section

variable {s s' : State} {t : Task} {c c' : ContextId}

theorem Level.departing (h : Level T σ s s') :
    World.Joint T σ s.world s'.world σ s.departing s'.departing := by
  unfold State.departing
  rw [h.registered]
  split
  · exact h.world.loseTrack
  · exact h.world.joint

theorem additions_twin {m m' : Message} (hm : Message.Twin σ m m') (parts : List Part) :
    List.Forall₂ (Happening.Twin T σ) (additions m parts) (additions m' parts) := by
  have hr : m.rendered parts = m'.rendered parts := by
    unfold Message.rendered
    rw [hm.worth]
  unfold additions
  rw [hr]
  refine .cons (.added _ _ _) ?_
  induction m'.rendered parts with
  | nil => exact .nil
  | cons p ps ih => exact .cons (.rendered _ _ p) ih

namespace Paired

/-- Tasks come onto the agenda. -/
theorem pushing {w₁ w₁' : World} {hs hs' : List Happening} {ps ps' : List Task} (h : Level T σ s s')
    (hw : World.Joint T σ s.world s'.world τ w₁ w₁') (hp : List.Forall₂ (Task.Twin T τ) ps ps')
    (hq : List.Forall₂ (Happening.Twin T τ) hs hs')
    (hset : ∀ ts, Settles (t :: ts) → Settles (ps ++ ts)) :
    Paired T σ s s' t ((s.withWorld w₁).push ps, hs) ((s'.withWorld w₁').push ps', hs') :=
  .intro τ ps ps' hw rfl rfl hp h.condition h.registered hq id fun _ ts ht => .inr (hset ts ht)

/-- A thread starts. -/
theorem forking {w₁ w₁' : World} {ps ps' : List Task} (h : Level T σ s s')
    (hw : World.Joint T σ s.world s'.world τ w₁ w₁') (hp : List.Forall₂ (Task.Twin T τ) ps ps')
    (hset : ∀ ts, Settles (t :: ts) → Settles (ps ++ ts)) :
    Paired T σ s s' t ((s.enlist.withWorld w₁).push ps).quietly
      ((s'.enlist.withWorld w₁').push ps').quietly :=
  .intro τ ps ps' hw rfl rfl hp h.condition (congrArg (List.cons false) h.registered) .nil id
    fun _ ts ht => .inr (hset ts ht)

/-- An answer is given. -/
theorem answering {w₁ w₁' : World} {hs hs' : List Happening} {a a' : Answer} (h : Level T σ s s')
    (hw : World.Joint T σ s.world s'.world τ w₁ w₁') (ha : a.plain = a'.plain)
    (hq : List.Forall₂ (Happening.Twin T τ) hs hs') :
    Paired T σ s s' t ((s.withWorld w₁).respond a, hs) ((s'.withWorld w₁').respond a', hs') :=
  .intro τ [] [] hw rfl rfl .nil h.condition h.registered hq (fun _ => ha) fun _ _ _ => .inl ha

/-- The run goes on in another way, or not at all. -/
theorem stopping (h : Level T σ s s') (k : Condition) (hk : k ≠ .running) :
    Paired T σ s s' t ({ s with condition := k }, []) ({ s' with condition := k }, []) :=
  .intro σ [] [] h.world.joint rfl rfl .nil rfl h.registered .nil id fun hr => absurd hr hk

theorem quietly (h : Level T σ s s') (ht : t.verdict = none) :
    Paired T σ s s' t s.quietly s'.quietly :=
  .pushing h h.world.joint .nil .nil fun ts hts => by
    rw [Settles, ht] at hts
    exact hts

/-- Something else has happened first. -/
theorem after {o o' : Outcome} {e e' : Happening} (he : Happening.Twin T σ e e')
    (h : Paired T σ s s' t o o') : Paired T σ s s' t (o.1, e :: o.2) (o'.1, e' :: o'.2) := by
  obtain ⟨τ, ps, ps', hjoint, ha, ha', htasks, hc, hl, hq, hanswers, hsettles⟩ := h
  exact .intro τ ps ps' hjoint ha ha' htasks hc hl (.cons (he.mono hjoint.grows) hq) hanswers hsettles

theorem register {o o' : Outcome} (h : Paired T σ s s' t o o') :
    Paired T σ s s' t (o.1.register, o.2) (o'.1.register, o'.2) := by
  obtain ⟨τ, ps, ps', hjoint, ha, ha', htasks, hc, hl, hq, hanswers, hsettles⟩ := h
  exact .intro τ ps ps' hjoint ha ha' htasks hc (congrArg (List.modifyHead _) hl) hq hanswers hsettles

theorem accessing (h : Level T σ s s') (hc : σ.contexts.rel c c')
    {granted granted' refused refused' : Outcome}
    (hg : Paired T σ s s' t granted granted') (hr : Paired T σ s s' t refused refused') :
    Paired T σ s s' t (s.accessing c granted refused) (s'.accessing c' granted' refused') := by
  unfold State.accessing
  rw [← h.world.access hc]
  cases s.world.access c with
  | granted => exact hg.register
  | refused => exact hr
  | blocked => exact .stopping h .blocked (by simp)

theorem onContext (h : Level T σ s s') (hc : σ.contexts.rel c c') (o : ContextOp)
    (answer : Answer → Answer) :
    Paired T σ s s' t (s.onContext c o answer) (s'.onContext c' o answer) := by
  obtain ⟨hjoint, ha⟩ := h.world.applyContext hc o
  have hanswer := congrArg (Answer.plain ∘ answer) ha
  have hpair : Paired T σ s s' t _ _ := .answering h hjoint hanswer .nil
  refine .accessing h hc ?_ hpair
  rw [h.world.asked hc o]
  cases s'.world.asked c' o with
  | nil => exact hpair
  | cons op ops =>
    exact .pushing h (hjoint.trans (hjoint.twin.setLock hc true))
      (.cons (.script _) (.cons (.unlock hc) (.cons (.respond hanswer) .nil))) .nil fun _ _ => rfl

theorem installing (h : Level T σ s s') (hc : σ.contexts.rel c c') {b b' : Backend}
    {w₁ w₁' : World} (hw : World.Joint T σ s.world s'.world τ w₁ w₁')
    (hb : Backend.Twin T τ b b') (g : Gate) :
    Paired T σ s s' t (s.installing c (b, w₁) g) (s'.installing c' (b', w₁') g) :=
  .pushing h hw (.cons (.swap (hw.grows.contexts.keeps hc) (.some ⟨rfl, hb⟩))
    (.cons (.respond rfl) .nil)) .nil fun _ _ => rfl

theorem withHeld (h : Level T σ s s') {id : String} (hT : Keys T .message id)
    {next next' : Message → Outcome}
    (hn : ∀ m m', Message.Twin σ m m' → Paired T σ s s' t (next m) (next' m')) :
    Paired T σ s s' t (s.withHeld id next) (s'.withHeld id next') := by
  unfold State.withHeld
  have hrel := h.world.held id hT
  generalize s.world.held.get? id = x at hrel ⊢
  generalize s'.world.held.get? id = y at hrel ⊢
  cases hrel with
  | none => exact .answering h h.world.joint rfl .nil
  | some hm => exact hn _ _ hm

theorem withForwarder (h : Level T σ s s') {id : String} (hT : Keys T .forwarder id)
    {next next' : Backend → Outcome}
    (hn : ∀ b b', Backend.Twin T σ b b' → Paired T σ s s' t (next b) (next' b')) :
    Paired T σ s s' t (s.withForwarder id next) (s'.withForwarder id next') := by
  unfold State.withForwarder
  have hrel := h.world.forwarders id hT
  generalize s.world.forwarders.get? id = x at hrel ⊢
  generalize s'.world.forwarders.get? id = y at hrel ⊢
  cases hrel with
  | none => exact .answering h h.world.joint rfl .nil
  | some hb => exact hn _ _ hb

theorem making (h : Level T σ s s') (hc : σ.contexts.rel c c') (sev : Severity) (k : Component)
    (parts : List Part) {next next' : State → Message → State}
    (hn : ∀ hs hs' m m', List.Forall₂ (Happening.Twin T σ) hs hs' → Message.Twin σ m m' →
      Paired T σ s s' t (next (s.withWorld s.world.countMessage) m, hs)
        (next' (s'.withWorld s'.world.countMessage) m', hs')) :
    Paired T σ s s' t (s.making c sev k parts next) (s'.making c' sev k parts next') := by
  have hm := h.world.newMessage hc sev k
  have hpair := hn _ _ _ _ (.cons (.made hm) (additions_twin hm parts)) (hm.appendAll parts)
  exact .accessing h hc hpair hpair

end Paired

/-! ### Operations begin -/

theorem crews_twin (hT : .fork ∈ T) (hc : σ.contexts.rel c c') (threads each : Nat)
    (sev : Severity) (k : Component) :
    List.Forall₂ (Task.Twin T σ) (crews c threads each sev k) (crews c' threads each sev k) := by
  unfold crews
  induction List.range threads with
  | nil => exact .nil
  | cons n ns ih => exact .cons (.crew sev k n each hT hc) ih

theorem settles_crews (threads each : Nat) (sev : Severity) (k : Component) (ts : List Task) :
    Settles (crews c threads each sev k ++ .respond .nothing :: ts) := by
  unfold crews
  induction List.range threads with
  | nil => rfl
  | cons n ns ih => exact ih

theorem create_paired (h : Level T σ s s') (ctx : String) (spec : Option BackendSpec) (g : Gate)
    (hT : ∀ u ∈ (Op.create ctx spec g).uses s'.world, u ∈ T) :
    Paired T σ s s' (.begin (.create ctx spec g)) (s.begin (.create ctx spec g))
      (s'.begin (.create ctx spec g)) := by
  cases spec with
  | none =>
    obtain ⟨τ, hjoint⟩ := h.world.addContext ctx (hT _ (by simp [Op.uses])) .none
    exact .answering h hjoint rfl .nil
  | some spec =>
    obtain ⟨ρ, hmake, hb⟩ := h.world.make spec fun u hu => hT u (by simp [Op.uses, hu])
    have hi : Option.Rel (Installed.Twin T ρ) (some ⟨g, (s.world.make spec).1⟩)
      (some ⟨g, (s'.world.make spec).1⟩) := .some ⟨rfl, hb⟩
    obtain ⟨τ, hjoint⟩ := hmake.twin.addContext ctx (hT _ (by simp [Op.uses])) hi
    exact .answering h (hmake.trans hjoint) rfl .nil

theorem hold_paired (h : Level T σ s s') (id : String) (ctx : ContextName) (sev : Severity)
    (k : Component) (parts : List Part)
    (hT : ∀ u ∈ (Op.hold id ctx sev k parts).uses s'.world, u ∈ T) :
    Paired T σ s s' (.begin (.hold id ctx sev k parts)) (s.begin (.hold id ctx sev k parts))
      (s'.begin (.hold id ctx sev k parts)) := by
  have hid : Keys T .message id := hT ⟨.message id, .change⟩ (by simp [Op.uses])
  rw [State.begin, State.begin]
  have hc : σ.contexts.rel (s.world.lookUp ctx) (s'.world.lookUp ctx) :=
    h.world.lookUp fun u hu => hT u (by simp [Op.uses, hu])
  refine .making h hc sev k parts fun hs hs' m m' hq hm => ?_
  have hcount := h.world.countMessage
  have hanswer : (Answer.message m).plain = (Answer.message m').plain :=
    congrArg Answer.message hm.plain
  have hrel := hcount.twin.held id hid
  -- a message that was open under the name ends
  refine .pushing h (hcount.trans (hcount.twin.hold hid hm)) ?_ hq ?_
  · show List.Forall₂ _
      (((s.world.countMessage.held.get? id).map Task.drop).toList ++ [.respond (.message m)])
      (((s'.world.countMessage.held.get? id).map Task.drop).toList ++ [.respond (.message m')])
    generalize s.world.countMessage.held.get? id = x at hrel ⊢
    generalize s'.world.countMessage.held.get? id = y at hrel ⊢
    cases hrel with
    | none => exact .cons (.respond hanswer) .nil
    | some hold => exact .cons (.drop hold) (.cons (.respond hanswer) .nil)
  · intro ts _
    show Settles (((s.world.countMessage.held.get? id).map Task.drop).toList ++
      [.respond (.message m)] ++ ts)
    cases s.world.countMessage.held.get? id <;> rfl

theorem begin_paired (h : Level T σ s s') {o : Op} (hT : ∀ u ∈ o.uses s'.world, u ∈ T) :
    Paired T σ s s' (.begin o) (s.begin o) (s'.begin o) := by
  -- a context that the operation addresses
  have addressed : ∀ {ctx : ContextName}, (∀ u ∈ s'.world.contextUses ctx, u ∈ o.uses s'.world) →
      σ.contexts.rel (s.world.lookUp ctx) (s'.world.lookUp ctx) := fun hu =>
    h.world.lookUp fun u hmem => hT u (hu u hmem)
  -- a code that adjusts the global context, or is rejected
  have coded : ∀ (function : String) (x : Except Rejection ContextOp),
      (∀ u ∈ s'.world.contextUses .global, u ∈ o.uses s'.world) →
      Paired T σ s s' (.begin o) (s.byCode function x) (s'.byCode function x) := by
    intro function x hu
    cases x with
    | error why => exact .answering h h.world.joint rfl (.cons (.emitted _) .nil)
    | ok x => exact .onContext h (addressed hu) x fun _ => .status 0
  cases o with
  | onContext ctx o => exact .onContext h (addressed fun u hu => hu) o id
  | onStore o =>
    obtain ⟨τ, hjoint, ha⟩ := h.world.applyStore hT
    exact .answering h hjoint ha .nil
  | create ctx spec g => exact create_paired h ctx spec g hT
  | build ctx steps =>
    have htarget : Target.Twin T σ (.create ctx) (.create ctx) :=
      .create ctx (hT ⟨.context (.named ctx), .change⟩ (by simp [Op.uses]))
    have hsteps : ∀ u ∈ buildUses steps, u ∈ T := fun u hu => hT u (by simp [Op.uses, hu])
    exact .pushing h h.world.joint (.cons (.build steps _ _ hsteps .none htarget) .nil) .nil
      fun _ _ => rfl
  | buildInto ctx steps =>
    have htarget : Target.Twin T σ (.install (s.world.lookUp ctx)) (.install (s'.world.lookUp ctx)) :=
      .install (addressed fun u hu => by simp [Op.uses, hu])
    have hsteps : ∀ u ∈ buildUses steps, u ∈ T := fun u hu => hT u (by simp [Op.uses, hu])
    exact .pushing h h.world.joint (.cons (.build steps _ _ hsteps .none htarget) .nil) .nil
      fun _ _ => rfl
  | install ctx spec g =>
    obtain ⟨τ, hmake, hb⟩ := h.world.make spec fun u hu => hT u (by simp [Op.uses, hu])
    exact .installing h (addressed fun u hu => by simp [Op.uses, hu]) hmake hb g
  | remove ctx =>
    exact .pushing h h.world.joint (.cons (.swap (addressed fun u hu => hu) .none)
      (.cons (.respond rfl) .nil)) .nil fun _ _ => rfl
  | flush ctx =>
    exact .pushing h h.world.joint (.cons (.flush (addressed fun u hu => hu))
      (.cons (.respond rfl) .nil)) .nil fun _ _ => rfl
  | log ctx sev k parts =>
    rw [State.begin, State.begin]
    refine .making h (addressed fun u hu => hu) sev k parts fun hs hs' m m' hq hm => ?_
    have hanswer : (Answer.statement m.worth m.text).plain =
        (Answer.statement m'.worth m'.text).plain := by
      rw [hm.worth, hm.text]
    exact .pushing h h.world.countMessage (.cons (.drop hm) (.cons (.respond hanswer) .nil)) hq
      fun _ _ => rfl
  | hold id ctx sev k parts => exact hold_paired h id ctx sev k parts hT
  | add id parts =>
    have hid : Keys T .message id := hT ⟨.message id, .change⟩ (by simp [Op.uses])
    refine .withHeld h hid fun m m' hm => ?_
    have hparts := hm.appendAll parts
    exact .answering h (h.world.hold hid hparts) (congrArg Answer.message hparts.plain)
      (additions_twin hm parts)
  | write ctx id =>
    refine .withHeld h (hT ⟨.message id, .change⟩ (by simp [Op.uses])) fun m m' hm => ?_
    exact .pushing h h.world.joint (.cons (.write (addressed fun u hu => by simp [Op.uses, hu]) hm)
      (.cons (.respond rfl) .nil)) .nil fun _ _ => rfl
  | finish id =>
    have hid : Keys T .message id := hT ⟨.message id, .change⟩ (by simp [Op.uses])
    refine .withHeld h hid fun m m' hm => ?_
    exact .pushing h (h.world.release hid) (.cons (.drop hm) (.cons (.respond rfl) .nil)) .nil
      fun _ _ => rfl
  | logLabelled ctx sev k label n =>
    rw [State.begin, State.begin]
    refine .making h (addressed fun u hu => hu) sev k _ fun hs hs' m m' hq hm => ?_
    have hanswer : (Answer.evaluated (m.rendered [.labelled label n]).length).plain =
        (Answer.evaluated (m'.rendered [.labelled label n]).length).plain := by
      rw [Message.rendered, Message.rendered, hm.worth]
    exact .pushing h h.world.countMessage (.cons (.drop hm) (.cons (.respond hanswer) .nil)) hq
      fun _ _ => rfl
  | setFunction hook =>
    obtain ⟨τ, hmake, hb⟩ := h.world.make (.forwarding hook) fun u hu =>
      hT u (by simp [Op.uses, hu])
    have hc : σ.contexts.rel (s.world.lookUp .global) (s'.world.lookUp .global) :=
      addressed fun u hu => by simp [Op.uses, hu]
    exact .installing h hc hmake hb _
  | enableCode code => exact coded _ _ fun u hu => hu
  | disableCode code => exact coded _ _ fun u hu => hu
  | levelCode code => exact coded _ _ fun u hu => hu
  | setCallerScript ops =>
    exact .answering h (h.world.setCallerScript (hT _ (by simp [Op.uses])) ops) rfl .nil
  | forward id message =>
    refine .withForwarder h (hT ⟨.forwarder id, .change⟩ (by simp [Op.uses])) fun b b' hb => ?_
    refine .withHeld h (hT ⟨.message message, .change⟩ (by simp [Op.uses])) fun m m' hm => ?_
    exact .pushing h h.world.joint (.cons (.forward hb hm) (.cons (.respond rfl) .nil)) .nil
      fun _ _ => rfl
  | installForwarder id ctx =>
    have hid : Keys T .forwarder id := hT ⟨.forwarder id, .change⟩ (by simp [Op.uses])
    refine .withForwarder h hid fun b b' hb => ?_
    exact .installing h (addressed fun u hu => by simp [Op.uses, hu]) (h.world.eraseForwarder hid)
      hb _
  | thread ops =>
    have hs : .fork ∈ T := hT _ (by simp [Op.uses])
    exact .pushing h h.world.joint (.cons (.fork ops hs) .nil) .nil fun _ _ => rfl
  | threadExit ops exit =>
    have hs : .fork ∈ T := hT _ (by simp [Op.uses])
    exact .pushing h h.world.joint (.cons (.forkExit ops exit hs) .nil) .nil fun _ _ => rfl
  | parallel ctx threads each sev k =>
    have hs : .fork ∈ T := hT _ (by simp [Op.uses])
    have hc : σ.contexts.rel (s.world.lookUp ctx) (s'.world.lookUp ctx) :=
      addressed fun u hu => by simp [Op.uses, hu]
    refine .pushing h h.world.joint ?_ .nil fun ts _ => ?_
    · exact List.rel_append (crews_twin hs hc threads each sev k) (.cons (.respond rfl) .nil)
    · rw [List.append_assoc]
      exact settles_crews threads each sev k ts
  | panic text => exact .stopping h _ (by simp)

/-! ### Tasks are performed -/

theorem destroying_twin {b b' : Option Backend} (hb : Option.Rel (Backend.Twin T σ) b b') :
    List.Forall₂ (Task.Twin T σ) (destroying b) (destroying b') := by
  cases hb with
  | none => exact .nil
  | some hb => exact .cons (.destroy hb) .nil

theorem settles_destroying (b : Option Backend) {ts : List Task} (h : Settles ts) :
    Settles (destroying b ++ ts) := by
  cases b <;> exact h

/-- What a step of a builder comes to on both sides. -/
inductive BuiltTwin (T : Set Use) (σ : Link) (w v : World) : Built → Built → Prop
  | chose {τ : Link} {w₁ v₁ : World} {b b' : Backend} (g : Gate)
    (hjoint : World.Joint T σ w v τ w₁ v₁) (hb : Backend.Twin T τ b b') :
    BuiltTwin T σ w v (.chose w₁ b g) (.chose v₁ b' g)
  | tuned (g : Gate) : BuiltTwin T σ w v (.tuned g) (.tuned g)
  | configured (g : Gate) : BuiltTwin T σ w v (.configured g) (.configured g)
  | failed (f : BuildFault) : BuiltTwin T σ w v (.failed f) (.failed f)

theorem buildStep_twin {w v : World} (h : World.Twin T σ w v) (g : Gate) {step : BuildStep}
    (hT : ∀ u ∈ step.uses, u ∈ T) : BuiltTwin T σ w v (buildStep w g step) (buildStep v g step) := by
  have environment : ∀ x, BuiltTwin T σ w v (fromEnvironment x) (fromEnvironment x) := fun x => by
    cases x with
    | ok g => exact .configured g
    | error e => exact .failed _
  cases step with
  | backend spec =>
    obtain ⟨τ, hmake, hb⟩ := h.make spec hT
    exact .chose g hmake hb
  | level s => exact .tuned _
  | enable c => exact .tuned _
  | disable c => exact .tuned _
  | only cs => exact .tuned _
  | environment level components => exact environment _
  | environmentOctets level components => exact environment _
  | settings document =>
    simp only [buildStep]
    split
    · next settings _ =>
      have hlook : ∀ u ∈ (BackendSpec.console settings.console none).uses, u ∈ T := fun u hu =>
        hT u (by simpa [BackendSpec.uses, BuildStep.uses] using hu)
      obtain ⟨τ, hmake, hb⟩ := h.make (.console settings.console none) hlook
      exact .chose _ hmake hb
    · exact .failed _

theorem build_paired (h : Level T σ s s') {steps : List BuildStep} {b b' : Option Backend} (g : Gate)
    (gates : List Gate) {target target' : Target} (hT : ∀ u ∈ buildUses steps, u ∈ T)
    (hb : Option.Rel (Backend.Twin T σ) b b') (ht : Target.Twin T σ target target') :
    Paired T σ s s' (.build steps b g gates target) (s.build b g gates target steps)
      (s'.build b' g gates target' steps) := by
  cases steps with
  | nil =>
    have hchosen : ∃ τ, World.Joint T σ s.world s'.world τ (chosenBackend s.world b).2
        (chosenBackend s'.world b').2 ∧
        Backend.Twin T τ (chosenBackend s.world b).1 (chosenBackend s'.world b').1 := by
      cases hb with
      | some hb => exact ⟨σ, h.world.joint, hb⟩
      | none => exact h.world.make (.console {} none) hT
    obtain ⟨ρ, hjoint, hbackend⟩ := hchosen
    cases ht with
    | create ctx hctx =>
      have hi : Option.Rel (Installed.Twin T ρ) (some ⟨g, (chosenBackend s.world b).1⟩)
        (some ⟨g, (chosenBackend s'.world b').1⟩) := .some ⟨rfl, hbackend⟩
      obtain ⟨τ, hadd⟩ := hjoint.twin.addContext ctx hctx hi
      exact .answering h (hjoint.trans hadd) rfl .nil
    | install hc =>
      exact .pushing h hjoint (.cons (.swap (hjoint.grows.contexts.keeps hc) (.some ⟨rfl, hbackend⟩))
        (.cons (.respond rfl) .nil)) .nil fun _ _ => rfl
  | cons step steps =>
    have hstep : ∀ u ∈ step.uses, u ∈ T := fun u hu => hT u (by
      simp only [buildUses, List.flatMap_cons, List.mem_cons, List.mem_append]
      exact .inr (.inl hu))
    have hsteps : ∀ u ∈ buildUses steps, u ∈ T := fun u hu => hT u (by
      simp only [buildUses, List.flatMap_cons, List.mem_cons, List.mem_append] at hu ⊢
      exact hu.imp_right .inr)
    have htwin := buildStep_twin h.world g hstep
    simp only [State.build]
    generalize buildStep s.world g step = x at htwin ⊢
    generalize buildStep s'.world g step = y at htwin ⊢
    cases htwin with
    | chose g' hjoint hnew =>
      have hold := optionRel_mono hb fun _ _ hb => hb.mono hjoint.grows
      exact .pushing h hjoint (List.rel_append (destroying_twin hold)
        (.cons (.build steps _ _ hsteps (.some hnew) (ht.mono hjoint.grows)) .nil)) .nil
        fun ts _ => by
          rw [List.append_assoc]
          exact settles_destroying b rfl
    | tuned g' =>
      exact .pushing h h.world.joint (.cons (.build steps _ _ hsteps hb ht) .nil) .nil fun _ _ => rfl
    | configured g' =>
      exact .pushing h h.world.joint (.cons (.build steps _ _ hsteps hb ht) .nil)
        (.cons (.emitted _) .nil) fun _ _ => rfl
    | failed f =>
      exact .pushing h h.world.joint (List.rel_append (destroying_twin hb)
        (.cons (.respond rfl) .nil)) .nil fun ts _ => by
          rw [List.append_assoc]
          exact settles_destroying b rfl

/-- The backend of a context runs on both sides. -/
theorem running_paired (h : Level T σ s s') (ht : t.verdict = none) (hc : σ.contexts.rel c c')
    {first first' : Happening} {r r' : Reaction} (hf : Happening.Twin T σ first first')
    (hr : World.Reacts T σ (s.world.enter c) (s'.world.enter c') r r') :
    Paired T σ s s' t (s.running c first r) (s'.running c' first' r') := by
  unfold State.running
  rw [hr.ops, h.world.thread.tracking]
  have hpushed : Paired T σ s s' t _ _ := .pushing h ((h.world.enter hc).trans hr.joint)
    (.cons (.script r'.ops) (.cons (.leave s'.world.thread.tracking hc) .nil))
    (.cons hf hr.happenings) fun ts hts => by
      rw [Settles, ht] at hts
      exact hts
  exact hpushed.register

theorem write_paired (h : Level T σ s s') (ht : t.verdict = none) (hc : σ.contexts.rel c c')
    {m m' : Message} (hm : Message.Twin σ m m') :
    Paired T σ s s' t (s.write c m) (s'.write c' m') := by
  refine .accessing h hc ?_ (.quietly h ht)
  have hrel := h.world.installed hc
  generalize s.world.installed c = x at hrel ⊢
  generalize s'.world.installed c' = y at hrel ⊢
  cases hrel with
  | none => exact .quietly h ht
  | some hi =>
    exact running_paired h ht hc (.delivered hc hi.backend hm)
      ((h.world.enter hc).twin.receive hm hi.backend.kind)

theorem flush_paired (h : Level T σ s s') (hc : σ.contexts.rel c c') :
    Paired T σ s s' (.flush c) (s.flush c) (s'.flush c') := by
  refine .accessing h hc ?_ (.quietly h rfl)
  have hrel := h.world.installed hc
  generalize s.world.installed c = x at hrel ⊢
  generalize s'.world.installed c' = y at hrel ⊢
  cases hrel with
  | none => exact .quietly h rfl
  | some hi =>
    exact running_paired h rfl hc (.flushed hc hi.backend)
      ((h.world.enter hc).twin.flushed hi.backend.kind)

theorem drop_paired (h : Level T σ s s') {m m' : Message} (hm : Message.Twin σ m m') :
    Paired T σ s s' (.drop m) (s.drop m) (s'.drop m') := by
  unfold State.drop
  rw [hm.worth]
  refine .after (.dropped hm) ?_
  split
  · exact write_paired h rfl hm.context hm
  · exact .quietly h rfl

theorem swap_paired (h : Level T σ s s') (hc : σ.contexts.rel c c') {i i' : Option Installed}
    (hi : Option.Rel (Installed.Twin T σ) i i') :
    Paired T σ s s' (.swap c i) (s.swap c i) (s'.swap c' i') := by
  have backends : ∀ {x y : Option Installed}, Option.Rel (Installed.Twin T σ) x y →
      Option.Rel (Backend.Twin T σ) (x.map (·.backend)) (y.map (·.backend)) := fun hxy =>
    optionRel_map hxy fun _ _ h => h.backend
  have names : ∀ {x y : Backend}, Backend.Twin T σ x y → x.name = y.name := fun {x y} hxy => by
    have hk := hxy.kind
    unfold Backend.name
    generalize x.kind = k at hk
    generalize y.kind = l at hk
    cases hk <;> rfl
  have hswapped : swapped i = swapped i' := by
    cases hi with
    | none => rfl
    | some hi => exact congrArg Event.installed (names hi.backend)
  have hnot : notSwapped i = notSwapped i' := by
    cases hi with
    | none => rfl
    | some hi => exact congrArg Event.installIgnored (names hi.backend)
  have neutral : ∀ (b : Option Backend) (e : Event) ts, Settles (.swap c i :: ts) →
      Settles (destroying b ++ [.emit e] ++ ts) := fun b e ts hts => by
    rw [List.append_assoc]
    exact settles_destroying b hts
  unfold State.swap
  rw [hswapped, hnot]
  refine .accessing h hc ?_ ?_
  · exact .pushing h (h.world.replace hc hi) (List.rel_append
      (destroying_twin (backends (h.world.installed hc))) (.cons (.emit _) .nil)) .nil
      (neutral _ _)
  · exact .pushing h h.world.joint (List.rel_append (destroying_twin (backends hi))
      (.cons (.emit _) .nil)) .nil (neutral _ _)

theorem numbered_paired (h : Level T σ s s') (hc : σ.contexts.rel c c') (sev : Severity)
    (k : Component) (thread first count : Nat) :
    Paired T σ s s' (.numbered c sev k thread first count)
      (s.perform (.numbered c sev k thread first count))
      (s'.perform (.numbered c' sev k thread first count)) := by
  cases count with
  | zero => exact .quietly h rfl
  | succ rest =>
    rw [perform, perform, logNumbered, logNumbered]
    refine .making h hc sev k _ fun hs hs' m m' hq hm => ?_
    exact .pushing h h.world.countMessage
      (.cons (.drop hm) (.cons (.numbered sev k thread _ rest hc) .nil)) hq fun _ hts => hts

theorem plain_list {as as' : List Answer} (h : as.map Answer.plain = as'.map Answer.plain) :
    (Answer.list as).plain = (Answer.list as').plain := by
  simp only [Answer.plain, Answer.plainAll_eq, h]

/-- Answers that look the same are lists on both sides, or on neither. -/
theorem lists_of_plain {a a' : Answer} (h : a.plain = a'.plain) :
    (∃ as as', a = .list as ∧ a' = .list as' ∧ as.map Answer.plain = as'.map Answer.plain) ∨
      (∀ as, a ≠ .list as) ∧ ∀ as, a' ≠ .list as := by
  cases a <;> cases a' <;> simp_all [Answer.plain, Answer.plainAll_eq]

/-- Twin tasks do the same, provided that an answer that they read is the same. -/
theorem perform_paired (h : Level T σ s s') {t t' : Task} (ht : Task.Twin T σ t t')
    (hT : ∀ o, t' = .begin o → ∀ u ∈ o.uses s'.world, u ∈ T)
    (ha : t.verdict = some false → s.answer.plain = s'.answer.plain) :
    Paired T σ s s' t (s.perform t) (s'.perform t') := by
  have unsettled : ∀ {t : Task} {ps : List Task}, t.verdict = some false →
      ∀ ts, Settles (t :: ts) → Settles (ps ++ ts) := fun hv ts hts => by
    rw [Settles, hv] at hts
    cases hts
  cases ht with
  | script ops =>
    cases ops with
    | nil => exact .quietly h rfl
    | cons o os =>
      exact .pushing h h.world.joint (.cons (.begin o) (.cons .note (.cons (.script os) .nil))) .nil
        fun _ _ => rfl
  | note =>
    exact .pushing h h.world.joint .nil (.cons (.noted (ha rfl)) .nil) (unsettled rfl)
  | @collect ops as as' has =>
    cases ops with
    | nil =>
      have hreverse : as.reverse.map Answer.plain = as'.reverse.map Answer.plain := by
        rw [List.map_reverse, List.map_reverse, has]
      exact .answering h h.world.joint (plain_list hreverse) .nil
    | cons o os =>
      exact .pushing h h.world.joint (.cons (.begin o) (.cons (.gather os has) .nil)) .nil
        fun _ _ => rfl
  | @gather ops as as' has =>
    have hcons : (s.answer :: as).map Answer.plain = (s'.answer :: as').map Answer.plain := by
      rw [List.map_cons, List.map_cons, ha rfl, has]
    exact .pushing h h.world.joint (.cons (.collect ops hcons) .nil) .nil (unsettled rfl)
  | «begin» o => exact begin_paired h (hT o rfl)
  | respond ha' => exact .answering h h.world.joint ha' .nil
  | drop hm => exact drop_paired h hm
  | write hc hm => exact write_paired h rfl hc hm
  | flush hc => exact flush_paired h hc
  | leave counted hc => exact .pushing h (h.world.leave hc counted) .nil .nil fun _ hts => hts
  | unlock hc => exact .pushing h (h.world.setLock hc false) .nil .nil fun _ hts => hts
  | swap hc hi => exact swap_paired h hc hi
  | destroy hb =>
    rw [perform, perform, State.destroy, State.destroy, World.lastOps_eq hb.kind]
    exact .pushing h h.world.joint (.cons (.script _) .nil) (.cons (.destroyed hb) .nil)
      fun _ hts => hts
  | emit e => exact .pushing h h.world.joint .nil (.cons (.emitted e) .nil) fun _ hts => hts
  | build steps g gates hu hb ht => exact build_paired h g gates hu hb ht
  | forward hb hm =>
    have hr := h.world.receive hm hb.kind
    rw [perform, perform, hr.ops]
    exact .pushing h hr.joint (.cons (.script _) .nil) hr.happenings fun _ hts => hts
  | fork ops hs =>
    exact .forking h (h.world.startThread hs)
      (.cons (.collect ops rfl) (.cons (.join h.world.thread) .nil)) fun _ _ => rfl
  | crew sev k thread count hs hc =>
    exact .forking h (h.world.startThread hs)
      (.cons (.numbered sev k thread 0 count hc) (.cons (.join h.world.thread) .nil))
      fun _ hts => hts
  | numbered sev k thread first count hc => exact numbered_paired h hc sev k thread first count
  | forkExit ops exit hs =>
    exact .forking h (h.world.startThread hs)
      (.cons (.collect ops rfl) (.cons (.exit exit) (.cons (.join h.world.thread) .nil)))
      fun _ _ => rfl
  | exit ops =>
    rcases lists_of_plain (ha rfl) with ⟨as, as', hs, hs', has⟩ | ⟨hn, hn'⟩
    · simp only [perform, hs, hs']
      exact .pushing h h.departing (.cons (.collect ops rfl) (.cons (.pair has) .nil)) .nil
        fun _ _ => rfl
    · have hquiet : ∀ r : State, (∀ as, r.answer ≠ .list as) → r.perform (.exit ops) = r.quietly :=
        fun r hr => by
          rw [perform]
          split
          · next as has => exact absurd has (hr as)
          · rfl
      rw [hquiet s hn, hquiet s' hn']
      exact .pushing h h.world.joint .nil .nil (unsettled rfl)
  | @pair bs bs' hbs =>
    rcases lists_of_plain (ha rfl) with ⟨as, as', hs, hs', has⟩ | ⟨hn, hn'⟩
    · simp only [perform, hs, hs']
      have hanswer : (Answer.exited bs as).plain = (Answer.exited bs' as').plain := by
        simp only [Answer.plain, Answer.plainAll_eq, hbs, has]
      exact .answering h h.world.joint hanswer .nil
    · have hquiet : ∀ (r : State) (bs : List Answer), (∀ as, r.answer ≠ .list as) →
          r.perform (.pair bs) = r.quietly := fun r bs hr => by
        rw [perform]
        split
        · next as has => exact absurd has (hr as)
        · rfl
      rw [hquiet s bs hn, hquiet s' bs' hn']
      exact .pushing h h.world.joint .nil .nil (unsettled rfl)
  | join ht =>
    exact .intro σ [] [] (h.world.resumeThread ht) rfl rfl .nil h.condition
      (congrArg List.tail h.registered) .nil id fun _ _ hts => .inr hts
  | resume text => exact .stopping h _ (by simp)

/-! ### Tasks are given up -/

/-- Giving tasks up is the same on both sides too, whatever was answered before. -/
theorem unwind_paired (h : Level T σ s s') (text : String) {t t' : Task} (ht : Task.Twin T σ t t')
    (hr : s.condition ≠ .running) : Paired T σ s s' t (s.unwind text t) (s'.unwind text t') := by
  have given : ∀ {b b' : Option Backend}, Option.Rel (Backend.Twin T σ) b b' →
      Paired T σ s s' t (s.giveUp text b) (s'.giveUp text b') := fun hb => by
    cases hb with
    | none =>
      exact .intro σ [] [] h.world.joint rfl rfl .nil h.condition h.registered .nil id
        fun hrun => absurd hrun hr
    | some hb =>
      exact .intro σ [_, _] [_, _] h.world.joint rfl rfl
        (.cons (.destroy hb) (.cons (.resume text) .nil)) rfl h.registered .nil id
        fun _ _ _ => .inr rfl
  cases ht with
  | leave counted hc =>
    exact .intro σ [] [] (h.world.leave hc counted) rfl rfl .nil h.condition h.registered .nil id
      fun hrun => absurd hrun hr
  | unlock hc =>
    exact .intro σ [] [] (h.world.setLock hc false) rfl rfl .nil h.condition h.registered .nil id
      fun hrun => absurd hrun hr
  | join ht =>
    exact .intro σ [] [] (h.world.resumeThread ht) rfl rfl .nil h.condition
      (congrArg List.tail h.registered) .nil id fun hrun => absurd hrun hr
  | resume text' => exact .stopping h .aborted (by simp)
  | swap hc hi => exact given (optionRel_map hi fun _ _ hi => hi.backend)
  | destroy hb => exact given (.some hb)
  | build steps g gates hT hb ht => exact given hb
  | _ => exact given .none

/-- A run that goes on after a task has been given up comes to an answer before it reads one. -/
theorem settles_of_unwind {text : String} {t : Task} (ht : t ≠ .report)
    (hr : s.condition ≠ .running) (hrun : (s.unwind text t).1.condition = .running) :
    Settles (s.unwind text t).1.agenda := by
  have given : ∀ b, (s.giveUp text b).1.condition = .running →
      Settles (s.giveUp text b).1.agenda := fun b hb => by
    cases b with
    | none => exact absurd hb hr
    | some b => rfl
  cases t with
  | leave c counted => exact absurd hrun hr
  | unlock c => exact absurd hrun hr
  | join u => exact absurd hrun hr
  | report => exact absurd rfl ht
  | resume text' => cases hrun
  | _ => exact given _ hrun

/-! ### Steps -/

/-- If the last answers differ, nobody will notice. -/
def Heard (s s' : State) : Prop :=
  s.condition = .running → s.answer.plain = s'.answer.plain ∨ Settles s.agenda

/-- Neither state has stopped, and twin tasks are next. -/
theorem step_paired (h : Level T σ s s') {t t' : Task} {ts ts' : List Task} (ha : s.agenda = t :: ts)
    (ha' : s'.agenda = t' :: ts') (ht : Task.Twin T σ t t') (hT : ∀ u ∈ s'.uses, u ∈ T)
    (hheard : Heard s s') (hb : s.condition ≠ .blocked) (hx : s.condition ≠ .aborted) :
    Paired T σ { s with agenda := ts } { s' with agenda := ts' } t s.step s'.step ∧
      Heard s.step.1 s'.step.1 := by
  have hlevel : Level T σ { s with agenda := ts } { s' with agenda := ts' } :=
    ⟨h.world, h.condition, h.registered⟩
  have hcondition := h.condition
  have hgoes : s.condition = .running ∨ ∃ text, s.condition = .unwinding text := by
    cases hc : s.condition with
    | running => exact .inl rfl
    | unwinding text => exact .inr ⟨text, rfl⟩
    | blocked => exact absurd hc hb
    | aborted => exact absurd hc hx
  rcases hgoes with hc | ⟨text, hc⟩
  · have hc' : s'.condition = .running := hcondition.symm.trans hc
    rw [step_of_running hc ha, step_of_running hc' ha']
    have huses : ∀ o, t' = .begin o → ∀ u ∈ o.uses s'.world, u ∈ T := by
      rintro o rfl u hu
      exact hT u (by rw [State.uses, hc', ha']; exact hu)
    have hsame : t.verdict = some false → s.answer.plain = s'.answer.plain := fun hv => by
      rcases hheard hc with hsame | hset
      · exact hsame
      · rw [ha, Settles, hv] at hset
        cases hset
    have hpaired := perform_paired hlevel ht huses hsame
    refine ⟨hpaired, fun hrun => ?_⟩
    obtain ⟨τ, ps, ps', hjoint, hps, hps', htasks, hcond, hl, hq, hanswers, hsettles⟩ := hpaired
    rcases hheard hc with hsame | hset
    · exact .inl (hanswers hsame)
    · rw [hps]
      exact hsettles hrun ts (ha ▸ hset)
  · have hc' : s'.condition = .unwinding text := hcondition.symm.trans hc
    have hstep : s.step = ({ s with agenda := ts } : State).unwind text t := by
      simp only [step, hc, ha]
    have hstep' : s'.step = ({ s' with agenda := ts' } : State).unwind text t' := by
      simp only [step, hc', ha']
    have hne : s.condition ≠ .running := by
      rw [hc]
      exact Condition.noConfusion
    rw [hstep, hstep']
    refine ⟨unwind_paired hlevel text ht hne, fun hrun => .inr ?_⟩
    refine settles_of_unwind (s := { s with agenda := ts }) ?_ hne hrun
    rintro rfl
    cases ht

end

end State

end GatedLog
