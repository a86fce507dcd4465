import GatedLog.Transcript
import GatedLog.Proofs.Machine.Assembly
import GatedLog.Proofs.Machine.Delivery

/-!
# An install forgets the past

Two states that differ in what is installed in a context, and in open messages that are not used any
more, are the same for good once a backend is installed there (`install_forgets`): the same happens
from then on, serial numbers apart. What is replaced must have no last operations. From the swap on
the two worlds are twins, each number standing for itself, so that the two runs go in lockstep
(`Abreast`). A thread whose own state is gone does not get at a context that another thread is
running; an install that it is refused forgets nothing (`refused_install_remembers`).
-/

namespace GatedLog

/-! ### Serial numbers -/

def Message.unnumbered (m : Message) : Message := { m with serial := 0 }

def Backend.unnumbered (b : Backend) : Backend := { b with serial := 0 }

/-- A happening without serial numbers. -/
def Happening.unnumbered : Happening → Happening
  | .delivered c b m => .delivered c b.unnumbered m.unnumbered
  | .flushed c b => .flushed c b.unnumbered
  | .destroyed b => .destroyed b.unnumbered
  | .made m => .made m.unnumbered
  | .added _ ps => .added 0 ps
  | .rendered _ p => .rendered 0 p
  | .dropped m => .dropped m.unnumbered
  | .noted a => .noted a.plain
  | .answered a => .answered a.plain
  | e => e

namespace Link

/-- Every context and every handle stands for itself. -/
structure Fixes (σ : Link) : Prop where
  contexts : ∀ c, σ.contexts.rel c c
  handles : ∀ h, σ.handles.rel h h

variable {σ τ : Link}

theorem fixes_identity : identity.Fixes := ⟨fun _ => rfl, fun _ => rfl⟩

theorem Fixes.grows {w w₁ : World} (h : σ.Fixes) (hg : σ.Grows τ w w₁) : τ.Fixes :=
  ⟨fun c => hg.contexts.keeps (h.contexts c), fun a => hg.handles.keeps (h.handles a)⟩

theorem Fixes.context_eq (h : σ.Fixes) {c d : ContextId} (hc : σ.contexts.rel c d) : c = d :=
  (σ.contexts.inj (h.contexts c) hc).mp rfl

theorem Fixes.handle_eq (h : σ.Fixes) {a b : HandleId} (ha : σ.handles.rel a b) : a = b :=
  (σ.handles.inj (h.handles a) ha).mp rfl

end Link

section

variable {T : Set Use} {σ : Link} (h : σ.Fixes)

include h

theorem Message.Twin.unnumbered {m m' : Message} (hm : Message.Twin σ m m') :
    m.unnumbered = m'.unnumbered := by
  have hplain := hm.plain
  have hcontext := h.context_eq hm.context
  obtain ⟨n, c, s, k, w, t⟩ := m
  obtain ⟨n', c', s', k', w', t'⟩ := m'
  simp_all [Message.plain, Message.unnumbered]

theorem Backend.Twin.unnumbered {b b' : Backend} (hb : Backend.Twin T σ b b') :
    b.unnumbered = b'.unnumbered := by
  have hk := hb.kind
  obtain ⟨n, k⟩ := b
  obtain ⟨n', k'⟩ := b'
  cases hk with
  | memory hh => rw [Backend.unnumbered, Backend.unnumbered, h.handle_eq hh]
  | _ => rfl

theorem Happening.Twin.unnumbered {e e' : Happening} (he : Happening.Twin T σ e e') :
    e.unnumbered = e'.unnumbered := by
  cases he with
  | delivered hc hb hm =>
    simp only [Happening.unnumbered, h.context_eq hc, hb.unnumbered h, hm.unnumbered h]
  | flushed hc hb => simp only [Happening.unnumbered, h.context_eq hc, hb.unnumbered h]
  | destroyed hb => exact congrArg Happening.destroyed (hb.unnumbered h)
  | made hm => exact congrArg Happening.made (hm.unnumbered h)
  | dropped hm => exact congrArg Happening.dropped (hm.unnumbered h)
  | noted ha => exact congrArg Happening.noted ha
  | _ => rfl

theorem unnumbered_twin {hs hs' : List Happening} (hq : List.Forall₂ (Happening.Twin T σ) hs hs') :
    hs.map Happening.unnumbered = hs'.map Happening.unnumbered := by
  induction hq with
  | nil => rfl
  | cons he _ ih => rw [List.map_cons, List.map_cons, he.unnumbered h, ih]

end

/-! ### Everything is its own twin -/

/-- The uses of everything but open messages of some names. -/
def sparing (H : Set String) : Set Use := {u | ∀ id ∈ H, u.resource ≠ .message id}

section

variable {H : Set String}

theorem owns_sparing {r : Resource} (h : ∀ id, r ≠ .message id) : Owns (sparing H) r :=
  fun id _ => h id

theorem look_sparing : Looks (sparing H) := ⟨.look, nofun, fun _ _ => Resource.noConfusion⟩

theorem Message.twin_self (m : Message) : Message.Twin .identity m m := ⟨rfl, rfl⟩

theorem Backend.twin_self (b : Backend) : Backend.Twin (sparing H) .identity b b := by
  obtain ⟨n, k⟩ := b
  refine ⟨?_⟩
  cases k with
  | memory a => exact .memory rfl
  | forwarding hook => exact .forwarding hook fun k _ => owns_sparing nofun
  | tracing => exact .tracing
  | console layout buffer => exact .console layout buffer look_sparing fun id _ => owns_sparing nofun
  | custom tag onWrite onFlush onDestroy onName => exact .custom tag onWrite onFlush onDestroy onName

theorem Installed.twin_self (i : Installed) : Installed.Twin (sparing H) .identity i i :=
  ⟨rfl, i.backend.twin_self⟩

theorem Context.twin_self (x : Context) : Context.Twin (sparing H) .identity x x :=
  ⟨optionRel_refl Installed.twin_self _, rfl⟩

theorem Thread.twin_self (t : Thread) : Thread.Twin (sparing H) .identity t t :=
  ⟨List.forall₂_same.mpr fun _ _ => rfl, rfl, fun _ => rfl⟩

theorem sparing_of_isOutlet {u : Use} (h : u.resource.isOutlet = true) : u ∈ sparing H := by
  rintro id - he
  rw [he] at h
  cases h

/-- Tasks that do the same, those of the program included. -/
inductive Task.Same (T : Set Use) (σ : Link) : Task → Task → Prop
  | twin {t t' : Task} (h : Task.Twin T σ t t') : Same T σ t t'
  | program (ops : List Op) : Same T σ (.program ops) (.program ops)
  | report : Same T σ .report .report

theorem Task.same_self (t : Task) : Task.Same (sparing H) .identity t t := by
  have hfork : .fork ∈ sparing H := fun _ _ => Resource.noConfusion
  cases t with
  | program ops => exact .program ops
  | report => exact .report
  | script ops => exact .twin (.script ops)
  | note => exact .twin .note
  | collect ops as => exact .twin (.collect ops rfl)
  | gather ops as => exact .twin (.gather ops rfl)
  | «begin» o => exact .twin (.begin o)
  | respond a => exact .twin (.respond rfl)
  | drop m => exact .twin (.drop m.twin_self)
  | write c m => exact .twin (.write rfl m.twin_self)
  | flush c => exact .twin (.flush rfl)
  | leave c counted => exact .twin (.leave counted rfl)
  | unlock c => exact .twin (.unlock rfl)
  | swap c next => exact .twin (.swap rfl (optionRel_refl Installed.twin_self _))
  | destroy b => exact .twin (.destroy b.twin_self)
  | emit e => exact .twin (.emit e)
  | build steps chosen g gates target =>
    have hsteps : ∀ u ∈ buildUses steps, u ∈ sparing H :=
      fun u hu => sparing_of_isOutlet (isOutlet_of_mem_buildUses hu)
    refine .twin (.build steps g gates hsteps (optionRel_refl Backend.twin_self _) ?_)
    cases target with
    | create ctx => exact .create ctx (owns_sparing nofun)
    | install c => exact .install rfl
  | forward b m => exact .twin (.forward b.twin_self m.twin_self)
  | fork ops => exact .twin (.fork ops hfork)
  | crew c s k thread count => exact .twin (.crew s k thread count hfork rfl)
  | numbered c s k thread first count => exact .twin (.numbered s k thread first count rfl)
  | forkExit ops exit => exact .twin (.forkExit ops exit hfork)
  | exit ops => exact .twin (.exit ops)
  | pair alive => exact .twin (.pair rfl)
  | join t => exact .twin (.join t.twin_self)
  | resume text => exact .twin (.resume text)

end

theorem Task.Same.mono {T : Set Use} {σ τ : Link} {w w₁ : World} (hg : σ.Grows τ w w₁) {t t' : Task}
    (h : Task.Same T σ t t') : Task.Same T τ t t' := by
  cases h with
  | twin h => exact .twin (h.mono hg)
  | program ops => exact .program ops
  | report => exact .report

namespace State

/-! ### States that go on in the same way -/

/-- States that differ in serial numbers only, as far as the set goes. -/
structure Abreast (T : Set Use) (σ : Link) (s s' : State) : Prop where
  level : Level T σ s s'
  fixes : σ.Fixes
  agenda : List.Forall₂ (Task.Same T σ) s.agenda s'.agenda
  answer : s.answer.plain = s'.answer.plain

section

variable {T : Set Use} {σ : Link} {s s' : State}

/-- A step of the program itself. -/
theorem Abreast.step_of_program {ops : List Op} {ts ts' : List Task} (h : Abreast T σ s s')
    (ha : s.agenda = .program ops :: ts) (ha' : s'.agenda = .program ops :: ts')
    (hts : List.Forall₂ (Task.Same T σ) ts ts') (hb : s.condition ≠ .blocked)
    (hx : s.condition ≠ .aborted) :
    Abreast T σ s.step.1 s'.step.1 ∧ s.step.2 = [] ∧ s'.step.2 = [] := by
  obtain ⟨⟨hw, hcond, hl⟩, hfixes, -, hanswer⟩ := h
  obtain ⟨w, agenda, a, condition, l⟩ := s
  obtain ⟨w', agenda', a', condition', l'⟩ := s'
  obtain rfl : agenda = _ := ha
  obtain rfl : agenda' = _ := ha'
  obtain rfl : condition = condition' := hcond
  cases condition with
  | running =>
    cases ops with
    | nil => exact ⟨⟨⟨hw, rfl, hl⟩, hfixes, hts, hanswer⟩, rfl, rfl⟩
    | cons o os =>
      refine ⟨⟨⟨hw, rfl, hl⟩, hfixes, ?_, hanswer⟩, rfl, rfl⟩
      exact .cons (.twin (.begin o)) (.cons .report (.cons (.program os) hts))
  | unwinding text => exact ⟨⟨⟨hw, rfl, hl⟩, hfixes, hts, hanswer⟩, rfl, rfl⟩
  | blocked => exact absurd rfl hb
  | aborted => exact absurd rfl hx

/-- The report on an operation of the program. -/
theorem Abreast.step_of_report {ts ts' : List Task} (h : Abreast T σ s s')
    (ha : s.agenda = .report :: ts) (ha' : s'.agenda = .report :: ts')
    (hts : List.Forall₂ (Task.Same T σ) ts ts') (hb : s.condition ≠ .blocked)
    (hx : s.condition ≠ .aborted) :
    Abreast T σ s.step.1 s'.step.1 ∧
      s.step.2.map Happening.unnumbered = s'.step.2.map Happening.unnumbered := by
  obtain ⟨⟨hw, hcond, hl⟩, hfixes, -, hanswer⟩ := h
  obtain ⟨w, agenda, a, condition, l⟩ := s
  obtain ⟨w', agenda', a', condition', l'⟩ := s'
  obtain rfl : agenda = _ := ha
  obtain rfl : agenda' = _ := ha'
  obtain rfl : condition = condition' := hcond
  cases condition with
  | running =>
    refine ⟨⟨⟨hw, rfl, hl⟩, hfixes, hts, hanswer⟩, ?_⟩
    exact congrArg (fun a => [Happening.answered a]) hanswer
  | unwinding text => exact ⟨⟨⟨hw, rfl, hl⟩, hfixes, hts, hanswer⟩, rfl⟩
  | blocked => exact absurd rfl hb
  | aborted => exact absurd rfl hx

/-- A step does the same in both states. -/
theorem Abreast.step (h : Abreast T σ s s') (hT : ∀ u ∈ s'.uses, u ∈ T) :
    ∃ τ, Abreast T τ s.step.1 s'.step.1 ∧
      s.step.2.map Happening.unnumbered = s'.step.2.map Happening.unnumbered := by
  have hagenda := h.agenda
  by_cases hstop : s.condition = .blocked ∨ s.condition = .aborted
  · rw [step_of_halted (halted_of_condition hstop),
      step_of_halted (halted_of_condition (h.level.condition ▸ hstop))]
    exact ⟨σ, h, rfl⟩
  · obtain ⟨hb, hx⟩ := not_or.mp hstop
    generalize hts : s.agenda = ts at hagenda
    generalize hts' : s'.agenda = ts' at hagenda
    cases hagenda with
    | nil =>
      rw [step_of_halted (halted_of_agenda hts), step_of_halted (halted_of_agenda hts')]
      exact ⟨σ, h, rfl⟩
    | cons ht hrest =>
      cases ht with
      | program ops =>
        obtain ⟨hnext, hq, hq'⟩ := h.step_of_program hts hts' hrest hb hx
        exact ⟨σ, hnext, by rw [hq, hq']⟩
      | report => exact ⟨σ, h.step_of_report hts hts' hrest hb hx⟩
      | twin ht =>
        obtain ⟨hpaired, -⟩ :=
          step_paired h.level hts hts' ht hT (fun _ => .inl h.answer) hb hx
        obtain ⟨τ, ps, ps', hjoint, hps, hps', htasks, hcond, hl, hes, hanswers, -⟩ := hpaired
        have hfixes := h.fixes.grows hjoint.grows
        refine ⟨τ, ⟨⟨hjoint.twin, hcond, hl⟩, hfixes, ?_, hanswers h.answer⟩,
          unnumbered_twin hfixes hes⟩
        rw [hps, hps']
        exact List.rel_append (htasks.imp fun _ _ ht => .twin ht)
          (hrest.imp fun _ _ ht => ht.mono hjoint.grows)

/-- The same happens in both runs, for good. -/
theorem Abreast.run (h : Abreast T σ s s') (hT : ∀ n, ∀ u ∈ (State.run n s').1.uses, u ∈ T)
    (n : Nat) :
    (State.run n s).2.map Happening.unnumbered = (State.run n s').2.map Happening.unnumbered := by
  induction n generalizing s s' σ with
  | zero => rfl
  | succ n ih =>
    obtain ⟨τ, hnext, hes⟩ := h.step (hT 0)
    have hrest := ih hnext fun k u hu => hT (k + 1) u (by rwa [run_succ])
    rw [run_succ, run_succ, List.map_append, List.map_append, hes, hrest]

end

end State

/-! ### Two pasts of a context -/

namespace World

/-- Worlds that may differ in what is installed in a context, in the open messages of some names, and
in the serial numbers that come next. -/
structure SameBesides (c : ContextId) (H : Set String) (w v : World) : Prop where
  length : w.contexts.length = v.contexts.length
  others : ∀ d, d ≠ c → w.context d = v.context d
  locked : (w.context c).locked = (v.context c).locked
  names : w.names = v.names
  thread : w.thread = v.thread
  threads : w.threads = v.threads
  held : ∀ id, id ∉ H → w.held.get? id = v.held.get? id
  handles : w.handles = v.handles
  captures : w.captures = v.captures
  buffers : w.buffers = v.buffers
  foreign : w.foreign = v.foreign
  copies : w.copies = v.copies
  forwarders : w.forwarders = v.forwarders
  callerScript : w.callerScript = v.callerScript
  colors : w.colors = v.colors
  clock : w.clock = v.clock

variable {c : ContextId} {H : Set String} {w v : World}

theorem getElem?_contexts {d : ContextId} (h : d < w.contexts.length) :
    w.contexts[d]? = some (w.context d) := by
  simp [World.context, h]

theorem SameBesides.couples (h : SameBesides c H w v) :
    Link.identity.contexts.Couples (Context.Twin (sparing H) .identity) (w.replace c none).contexts
      (v.replace c none).contexts where
  spans := by
    show Pairing.identity.Spans (w.contexts.modify c _).length (v.contexts.modify c _).length
    rw [List.length_modify, List.length_modify, h.length]
    exact Pairing.spans_identity _
  rel := by
    rintro d _ rfl
    simp only [replace, modifyContext, List.getElem?_modify]
    by_cases hd : d < w.contexts.length
    · rw [getElem?_contexts hd, getElem?_contexts (h.length ▸ hd)]
      refine .some ?_
      by_cases hc : c = d
      · subst hc
        simp only [if_true]
        exact ⟨.none, h.locked⟩
      · rw [h.others d (Ne.symm hc)]
        simpa [hc] using Context.twin_self _
    · rw [List.getElem?_eq_none (Nat.le_of_not_lt hd),
        List.getElem?_eq_none (h.length ▸ Nat.le_of_not_lt hd)]
      exact .none

/-- Without what is installed in the context they are twins. -/
theorem SameBesides.twin (h : SameBesides c H w v) :
    Twin (sparing H) .identity (w.replace c none) (v.replace c none) where
  contexts := h.couples
  global _ := rfl
  names := Table.agree_of_eq (fun _ => rfl) h.names
  thread := by
    show Thread.Twin _ _ w.thread v.thread
    rw [h.thread]
    exact v.thread.twin_self
  threads _ := h.threads
  held id hid := by
    show Option.Rel _ (w.held.get? id) (v.held.get? id)
    rw [h.held id fun hH => hid id hH rfl]
    exact optionRel_refl Message.twin_self _
  handles := Table.agree_of_eq (fun _ => rfl) h.handles
  captures := by
    show Link.identity.handles.Couples Eq w.captures v.captures
    rw [h.captures]
    exact Pairing.couples_identity (fun _ => rfl) _
  buffers := Table.agree_of_eq (fun _ => rfl) h.buffers
  foreign := Table.agree_of_eq (fun _ => rfl) h.foreign
  copies _ := h.copies
  forwarders := Table.agree_of_eq Backend.twin_self h.forwarders
  callerScript _ := h.callerScript
  colors _ := h.colors
  clock := h.clock

theorem SameBesides.access_eq (h : SameBesides c H w v) : w.access c = v.access c := by
  unfold World.access
  rw [h.thread, h.locked]

theorem SameBesides.refl (c : ContextId) (H : Set String) (w : World) : SameBesides c H w w :=
  ⟨rfl, fun _ _ => rfl, rfl, rfl, rfl, rfl, fun _ _ => rfl, rfl, rfl, rfl, rfl, rfl, rfl, rfl, rfl,
    rfl⟩

theorem replace_replace (w : World) (c : ContextId) (i j : Option Installed) :
    (w.replace c i).replace c j = w.replace c j := by
  simp [replace, modifyContext, List.modify_modify_eq, Function.comp_def]

end World

namespace State

/-- States that may differ in no more than that. -/
structure SameBesides (c : ContextId) (H : Set String) (s s' : State) : Prop where
  world : World.SameBesides c H s.world s'.world
  agenda : s.agenda = s'.agenda
  condition : s.condition = s'.condition
  registered : s.registered = s'.registered

/-- An operation is next that puts together `x` and installs it in the context; what is replaced
meanwhile has no last operations. -/
structure Installs (s : State) (o : Op) (ts : List Task) (c : ContextId) (x : Assembly) : Prop where
  running : s.condition = .running
  agenda : s.agenda = .begin o :: ts
  assembly : State.assembly s.world o = some x
  context : x.context = c
  superseded : ∀ b ∈ x.superseded, World.lastOps b.kind = []
  replaced : ∀ i ∈ s.world.installed c, World.lastOps i.backend.kind = []

/-- After the install with the answer `a` the same happens in both runs, for good. -/
structure Reunited (s s' : State) (ts : List Task) (k k' : Nat) (a : Answer) : Prop where
  agenda : (run k s).1.agenda = .respond a :: ts
  agenda' : (run k' s').1.agenda = .respond a :: ts
  happenings : ∀ n, (run n (run k s).1).2.map Happening.unnumbered =
    (run n (run k' s').1).2.map Happening.unnumbered

section

variable {s s' : State} {o : Op} {ts : List Task} {c : ContextId} {x : Assembly} {H : Set String}

theorem inert_twin {σ : Link} {bs bs' : List Backend}
    (h : List.Forall₂ (Backend.Twin (sparing H) σ) bs bs')
    (hbs : ∀ b ∈ bs, World.lastOps b.kind = []) : ∀ b ∈ bs', World.lastOps b.kind = [] := by
  induction h with
  | nil => exact hbs
  | cons hb _ ih =>
    obtain ⟨hfirst, hrest⟩ := List.forall_mem_cons.mp hbs
    exact List.forall_mem_cons.mpr ⟨World.lastOps_eq hb.kind ▸ hfirst, ih hrest⟩

/-- The same is put together in the other state. -/
theorem Installs.exists_twin (h : s.Installs o ts c x) (hs : SameBesides c H s s')
    (hT : ∀ u ∈ o.uses s'.world, u ∈ sparing H)
    (hold : ∀ i ∈ s'.world.installed c, World.lastOps i.backend.kind = []) :
    ∃ τ x', s'.Installs o ts c x' ∧ AssemblyTwin (sparing H) τ x x' ∧
      World.Joint (sparing H) .identity (s.world.replace c none) (s'.world.replace c none) τ
        (x.world.replace c none) (x'.world.replace c none) := by
  have hx := assembly_replace s.world c none o
  rw [h.assembly] at hx
  obtain ⟨τ, y, hy, hjoint, htwin⟩ :=
    assembly_twin hs.world.twin (Op.uses_congr (w := s'.world) rfl o ▸ hT) hx
  rw [assembly_replace] at hy
  obtain ⟨x', hx', rfl⟩ := Option.map_eq_some_iff.mp hy
  have hfixes := Link.fixes_identity.grows hjoint.grows
  exact ⟨τ, x',
    { running := hs.condition ▸ h.running
      agenda := hs.agenda ▸ h.agenda
      assembly := hx'
      context := (hfixes.context_eq htwin.context).symm.trans h.context
      superseded := inert_twin htwin.superseded h.superseded
      replaced := hold },
    ⟨htwin.context, htwin.gate, htwin.backend, htwin.answer, htwin.superseded⟩, hjoint⟩

theorem Installs.step_swappedIn (h : s.Installs o ts c x) : (s.swappedIn ts x).step =
    ({ s.register with world := x.swapped, agenda := ts, answer := x.answer }, []) :=
  step_of_running (s := s.swappedIn ts x) h.running rfl

/-- The swap has been done in both states. -/
theorem Installs.abreast {τ : Link} {x' : Assembly} (h : s.Installs o ts c x)
    (h' : s'.Installs o ts c x') (hs : SameBesides c H s s') (ht : AssemblyTwin (sparing H) τ x x')
    (hj : World.Joint (sparing H) .identity (s.world.replace c none) (s'.world.replace c none) τ
      (x.world.replace c none) (x'.world.replace c none)) :
    Abreast (sparing H) τ (s.swappedIn ts x).step.1 (s'.swappedIn ts x').step.1 := by
  have hfixes := Link.fixes_identity.grows hj.grows
  have hi : Installed.Twin (sparing H) τ x.installed x'.installed := ⟨ht.gate, ht.backend⟩
  have hswapped := (hj.twin.replace (hfixes.contexts c) (.some hi)).twin
  rw [World.replace_replace, World.replace_replace] at hswapped
  rw [h.step_swappedIn, h'.step_swappedIn]
  refine ⟨⟨?_, h.running.trans h'.running.symm, congrArg (List.modifyHead _) hs.registered⟩, hfixes,
    ?_, congrArg Answer.plain ht.answer⟩
  · show World.Twin _ τ (x.world.replace x.context _) (x'.world.replace x'.context _)
    rw [h.context, h'.context]
    exact hswapped
  · exact List.forall₂_same.mpr fun t _ => t.same_self.mono hj.grows

/-- The way through an install that the thread may do. -/
theorem Installs.comes (h : s.Installs o ts c x) (hc : s.world.access c = .granted) :
    s.Comes (s.swappedIn ts x) := by
  have halike := alike_of_assembly h.assembly
  refine (comes_to_swap h.running h.agenda h.assembly h.superseded).trans
    (comes_of_swap h.running ?_ ?_)
  · rw [h.context, halike.access, hc]
  · rw [h.context, halike.installed]
    exact h.replaced

/-- A thread that waits for the context waits for good. -/
theorem Installs.waits (h : s.Installs o ts c x) (hc : s.world.access c = .blocked) :
    ∃ k, (run k s).1.condition = .blocked := by
  obtain ⟨k, hk⟩ := (comes_to_swap h.running h.agenda h.assembly h.superseded).trans (comes_step _)
  refine ⟨k, ?_⟩
  have hblocked : x.world.access x.context = .blocked := by
    rw [h.context, (alike_of_assembly h.assembly).access, hc]
  rw [hk, step_of_running (s := s.atSwap ts x) h.running rfl]
  simp only [perform, swap, accessing, atSwap, hblocked]

/-- **An install forgets the past**: in two states that differ in what is installed in a context, and
in open messages that the run does not use any more, the same happens after an install, unless the
thread is refused the context. It may have to wait for it, and then does so in both. -/
theorem install_forgets (h : s.Installs o ts c x) (hs : SameBesides c H s s')
    (hc : s.world.access c ≠ .refused)
    (hold : ∀ i ∈ s'.world.installed c, World.lastOps i.backend.kind = [])
    (hnew : ∀ n, ∀ u ∈ (run n s').1.uses, u ∈ sparing H) :
    (∃ k k' a, Reunited s s' ts k k' a) ∨
      (∃ k, (run k s).1.condition = .blocked) ∧ ∃ k, (run k s').1.condition = .blocked := by
  have huses : s'.uses = o.uses s'.world := by
    rw [uses, ← hs.condition, ← hs.agenda, h.running, h.agenda]
  obtain ⟨τ, x', h', htwin, hjoint⟩ := h.exists_twin hs (fun u hu => hnew 0 u (huses ▸ hu)) hold
  have haccess := hs.world.access_eq (c := c)
  cases hacc : s.world.access c with
  | granted =>
    obtain ⟨k, hk⟩ := h.comes hacc
    obtain ⟨k', hk'⟩ := h'.comes (haccess ▸ hacc)
    refine .inl ⟨k, k', x.answer, by rw [hk]; rfl, by rw [hk', htwin.answer]; rfl, fun n => ?_⟩
    rw [hk, hk']
    cases n with
    | zero => rfl
    | succ n =>
      rw [run_succ, run_succ, h.step_swappedIn, h'.step_swappedIn, List.nil_append, List.nil_append]
      have habreast := h.abreast h' hs htwin hjoint
      rw [h.step_swappedIn, h'.step_swappedIn] at habreast
      refine habreast.run (fun m u hu => hnew (k' + (m + 1)) u ?_) n
      rwa [run_add, hk', run_succ, h'.step_swappedIn]
  | refused => exact absurd hacc hc
  | blocked => exact .inr ⟨h.waits hacc, h'.waits (haccess ▸ hacc)⟩

end

/-! ### A threshold that is forgotten, and one that is not -/

/-- A message is open when a backend is installed. -/
def reopened (g : Gate) : Program where
  ops := [.create "c" (some .tracing) g, .hold "m" (.named "c") .info .rpc [.text "a"],
    .install (.named "c") .tracing Gate.unrestricted, .log (.named "c") .info .rpc [.text "b"]]

/-- The state in front of the install. -/
def reopening (g : Gate) : State := (run 8 (start (reopened g))).1

def strict : Gate := Gate.unrestricted.setThreshold .error

theorem sameBesides_reopening :
    SameBesides 1 {"m"} (reopening Gate.unrestricted) (reopening strict) where
  world :=
    { World.SameBesides.refl 1 {"m"} (reopening Gate.unrestricted).world with
      length := rfl
      others := fun d hd => by
        rcases d with _ | _ | d
        · rfl
        · exact absurd rfl hd
        · rfl
      locked := rfl
      held := fun id hid => by
        have held : ∀ m m' : Message, (Table.put {} "m" m).get? id = (Table.put {} "m" m').get? id :=
          fun m m' => by rw [Table.get?_put_ne _ _ hid, Table.get?_put_ne _ _ hid]
        exact held _ _ }
  agenda := rfl
  condition := rfl
  registered := rfl

theorem strictness_forgotten :
    ∃ o ts x, (reopening Gate.unrestricted).Installs o ts 1 x ∧
      (reopening Gate.unrestricted).world.access 1 ≠ .refused ∧
      (∀ i ∈ (reopening strict).world.installed 1, World.lastOps i.backend.kind = []) ∧
      (∀ n, ∀ u ∈ (run n (reopening strict)).1.uses, u ∈ sparing {"m"}) ∧
      ∃ k k' a, Reunited (reopening Gate.unrestricted) (reopening strict) ts k k' a := by
  have h : (reopening Gate.unrestricted).Installs _ _ 1 _ :=
    { running := rfl
      agenda := rfl
      assembly := rfl
      context := rfl
      superseded := fun _ hb => absurd hb List.not_mem_nil
      replaced := fun i hi => by
        obtain rfl := Option.some.inj hi
        rfl }
  have hc : (reopening Gate.unrestricted).world.access 1 ≠ .refused := by decide
  have hold : ∀ i ∈ (reopening strict).world.installed 1, World.lastOps i.backend.kind = [] :=
    fun i hi => by
      obtain rfl := Option.some.inj hi
      rfl
  have hnew : ∀ n, ∀ u ∈ (run n (reopening strict)).1.uses, u ∈ sparing {"m"} := by
    intro n u hu
    have own : u ∈ [⟨.context (.named "c"), .change⟩] :=
      mem_of_mem_uses (n := 15) (by decide) (by decide) n u hu
    obtain rfl := List.mem_singleton.mp own
    exact fun _ _ => Resource.noConfusion
  refine ⟨_, _, _, h, hc, hold, hnew, ?_⟩
  rcases install_forgets h sameBesides_reopening hc hold hnew with hreunited | ⟨⟨k, hk⟩, -⟩
  · exact hreunited
  · -- The run ends in another condition.
    have hlast := run_of_halted (halted_of_condition (.inl hk)) 15
    have hend := run_of_halted (s := (run 15 (reopening Gate.unrestricted)).1) (by decide) k
    have hcomm : (run (k + 15) (reopening Gate.unrestricted)).1 =
        (run (15 + k) (reopening Gate.unrestricted)).1 := by rw [Nat.add_comm]
    rw [run_add, run_add, hlast, hend] at hcomm
    rw [hcomm] at hk
    exact absurd hk (by decide)

/-- While a backend runs, a thread that has got at another context is ending, and installs another
backend in the context. -/
def intrusive (g : Gate) : Program where
  ops := [.create "c" (some (.scripted "s" [.threadExit [.onContext .global .gate]
      [.install (.named "c") .tracing Gate.unrestricted]] [] [])) g,
    .log (.named "c") .error .rpc [], .onContext (.named "c") .gate]

/-- The state in front of that install. -/
def intruding (g : Gate) : State := (run 15 (start (intrusive g))).1

/-- The gates that operations answer with. -/
def gatesIn (es : List Happening) : List (Option Gate) :=
  es.filterMap fun
    | .answered (.gate g) => some g
    | _ => none

theorem sameBesides_intruding :
    SameBesides 1 ∅ (intruding Gate.unrestricted) (intruding strict) where
  world :=
    { World.SameBesides.refl 1 ∅ (intruding Gate.unrestricted).world with
      length := rfl
      others := fun d hd => by
        rcases d with _ | _ | d
        · rfl
        · exact absurd rfl hd
        · rfl
      locked := rfl }
  agenda := rfl
  condition := rfl
  registered := rfl

/-- The thread is refused the context that it does not run itself, and its gate stays. -/
theorem refused_install_remembers :
    ∃ o ts x a n, (intruding Gate.unrestricted).Installs o ts 1 x ∧
      SameBesides 1 ∅ (intruding Gate.unrestricted) (intruding strict) ∧
      1 ∉ (intruding Gate.unrestricted).world.thread.running ∧
      (∀ i ∈ (intruding strict).world.installed 1, World.lastOps i.backend.kind = []) ∧
      (run 5 (intruding Gate.unrestricted)).1.agenda = .respond a :: ts ∧
      (run 5 (intruding strict)).1.agenda = .respond a :: ts ∧
      (run n (run 5 (intruding Gate.unrestricted)).1).2.map Happening.unnumbered ≠
        (run n (run 5 (intruding strict)).1).2.map Happening.unnumbered := by
  have h : (intruding Gate.unrestricted).Installs _ _ 1 _ :=
    { running := rfl
      agenda := rfl
      assembly := rfl
      context := rfl
      superseded := fun _ hb => absurd hb List.not_mem_nil
      replaced := fun i hi => by
        obtain rfl := Option.some.inj hi
        rfl }
  refine ⟨_, _, _, .nothing, 14, h, sameBesides_intruding, List.not_mem_nil, ?_, rfl, rfl, ?_⟩
  · intro i hi
    obtain rfl := Option.some.inj hi
    rfl
  · intro heq
    have hgates := congrArg gatesIn heq
    exact absurd hgates (by decide)

end State

end GatedLog
