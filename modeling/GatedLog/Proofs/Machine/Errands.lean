import GatedLog.Proofs.Machine.Unwinding

/-!
# Where errands come from

A swap, the news of a swap and the way of an open message to a context are errands: a task puts one
on the agenda only where it is meant to (`Errand`). So the news that goes out can be traced back to
the swap that it tells of, and what a program writes to a context to a message that is open.
-/

namespace GatedLog

namespace Task

/-- Whether the task is a swap, its news, or the way of an open message to a context. -/
def isErrand : Task → Bool
  | swap _ _ => true
  | emit _ => true
  | write _ _ => true
  | _ => false

end Task

namespace State

/-- The errands that come in front of the agenda when a task is performed or given up. -/
inductive Errand (s : State) (t : Task) (o : Outcome) : Prop
  | none (ps : List Task) (hp : ∀ p ∈ ps, p.isErrand = false) (ha : o.1.agenda = ps ++ s.agenda)
  /-- A swap is called for. -/
  | called (c : ContextId) (next : Option Installed) (a : Answer) (ht : t.isErrand = false)
    (ha : o.1.agenda = [.swap c next, .respond a] ++ s.agenda) (hr : o.1.condition = .running)
  /-- A swap has been done. Its news waits for the end of what has been replaced. -/
  | swapped (c : ContextId) (next : Option Installed) (ht : t = .swap c next)
    (hr : s.condition = .running) (hc : s.world.access c = .granted)
    (ha : o.1.agenda = destroying ((s.world.installed c).map (·.backend)) ++
      [.emit (swapped next)] ++ s.agenda)
  | refused (c : ContextId) (next : Option Installed) (ht : t = .swap c next)
    (hr : s.condition = .running) (hc : s.world.access c = .refused)
    (ha : o.1.agenda = destroying (next.map (·.backend)) ++ [.emit (notSwapped next)] ++ s.agenda)
  /-- An open message is to be written to a context. -/
  | wrote (c : ContextId) (id : String) (m : Message) (ht : t.isErrand = false)
    (hm : s.world.held.get? id = some m)
    (ha : o.1.agenda = [.write c m, .respond .nothing] ++ s.agenda) (hw : o.1.world = s.world)
    (hr : o.1.condition = .running)

section

variable {s : State} {t : Task} {o : Outcome}

namespace Errand

theorem idle (ha : o.1.agenda = s.agenda) : Errand s t o := .none [] (by simp) ha

theorem register (h : Errand s t o) : Errand s t (o.1.register, o.2) := by
  cases h with
  | none ps hp ha => exact .none ps hp ha
  | called c next a ht ha hr => exact .called c next a ht ha hr
  | swapped c next ht hr hc ha => exact .swapped c next ht hr hc ha
  | refused c next ht hr hc ha => exact .refused c next ht hr hc ha
  | wrote c id m ht hm ha hw hr => exact .wrote c id m ht hm ha hw hr

theorem accessing {c : ContextId} {granted refused : Outcome}
    (hg : s.world.access c = .granted → Errand s t granted)
    (hr : s.world.access c = .refused → Errand s t refused) :
    Errand s t (s.accessing c granted refused) := by
  unfold State.accessing
  cases h : s.world.access c with
  | granted => exact (hg h).register
  | refused => exact hr h
  | blocked => exact .idle rfl

theorem withHeld (id : String) {next : Message → Outcome}
    (h : ∀ m, s.world.held.get? id = some m → Errand s t (next m)) :
    Errand s t (s.withHeld id next) := by
  unfold State.withHeld
  cases hm : s.world.held.get? id with
  | none => exact .idle rfl
  | some m => exact h m hm

theorem withForwarder (id : String) {next : Backend → Outcome} (h : ∀ b, Errand s t (next b)) :
    Errand s t (s.withForwarder id next) := by
  unfold State.withForwarder
  cases s.world.forwarders.get? id with
  | none => exact .idle rfl
  | some b => exact h b

theorem onContext (c : ContextId) (o : ContextOp) (answer : Answer → Answer) :
    Errand s t (s.onContext c o answer) := by
  refine .accessing (fun _ => ?_) fun _ => .idle rfl
  cases s.world.asked c o with
  | nil => exact .idle rfl
  | cons op ops => exact .none [_, _, _] (by simp [Task.isErrand]) rfl

theorem byCode (function : String) (o : Except Rejection ContextOp) :
    Errand s t (s.byCode function o) := by
  cases o with
  | error why => exact .idle rfl
  | ok o => exact onContext World.global o fun _ => .status 0

theorem installing (ht : t.isErrand = false) (hr : s.condition = .running) (c : ContextId)
    (made : Backend × World) (g : Gate) : Errand s t (s.installing c made g) :=
  .called c _ _ ht rfl hr

theorem making (c : ContextId) (sev : Severity) (k : Component) (parts : List Part)
    {next : State → Message → State} (ps : State → Message → List Task)
    (hp : ∀ s m, ∀ p ∈ ps s m, p.isErrand = false)
    (ha : ∀ s m, (next s m).agenda = ps s m ++ s.agenda) :
    Errand s t (s.making c sev k parts next) :=
  .accessing (fun _ => .none _ (hp _ _) (ha _ _)) fun _ => .none _ (hp _ _) (ha _ _)

theorem running (c : ContextId) (first : Happening) (r : Reaction) :
    Errand s t (s.running c first r) :=
  .none [_, _] (by simp [Task.isErrand]) rfl

theorem write (c : ContextId) (m : Message) : Errand s t (s.write c m) := by
  refine .accessing (fun _ => ?_) fun _ => .idle rfl
  split
  · exact .idle rfl
  · exact running c _ _

theorem flush (c : ContextId) : Errand s t (s.flush c) := by
  refine .accessing (fun _ => ?_) fun _ => .idle rfl
  split
  · exact .idle rfl
  · exact running c _ _

theorem drop (m : Message) : Errand s (.drop m) (s.drop m) := by
  unfold State.drop
  cases m.worth with
  | false => exact .idle rfl
  | true =>
    -- the message ends first, and that puts nothing on the agenda
    cases write (s := s) (t := .drop m) m.context m with
    | none ps hp ha => exact .none ps hp ha
    | called c next a ht ha hr => exact .called c next a ht ha hr
    | swapped c next ht => cases ht
    | refused c next ht => cases ht
    | wrote c id m' ht hm ha hw hr => exact .wrote c id m' ht hm ha hw hr

end Errand

theorem not_errand_of_mem_destroying {b : Option Backend} {p : Task} (hp : p ∈ destroying b) :
    p.isErrand = false := by
  cases b <;> simp_all [destroying, Task.isErrand]

theorem begin_errand (hr : s.condition = .running) (o : Op) : Errand s (.begin o) (s.begin o) := by
  have ht : (Task.begin o).isErrand = false := rfl
  cases o with
  | onContext ctx o => exact .onContext _ o _
  | onStore o => exact .idle rfl
  | create ctx spec g => cases spec <;> exact .idle rfl
  | build ctx steps => exact .none [_] (by simp [Task.isErrand]) rfl
  | buildInto ctx steps => exact .none [_] (by simp [Task.isErrand]) rfl
  | install ctx spec g => exact .installing ht hr _ _ g
  | remove ctx => exact .called _ _ _ ht rfl hr
  | flush ctx => exact .none [_, _] (by simp [Task.isErrand]) rfl
  | log ctx sev k parts =>
    rw [State.begin]
    exact .making _ sev k parts (fun _ m => [.drop m, .respond (.statement m.worth m.text)])
      (by simp [Task.isErrand]) fun _ _ => rfl
  | hold id ctx sev k parts =>
    rw [State.begin]
    refine .making _ sev k parts
      (fun s m => ((s.world.held.get? id).map Task.drop).toList ++ [.respond (.message m)])
      (fun s m p hp => ?_) fun _ _ => rfl
    cases h : s.world.held.get? id <;> simp_all [Task.isErrand]
    rcases hp with rfl | rfl <;> rfl
  | add id parts => exact .withHeld id fun m _ => .idle rfl
  | write ctx id => exact .withHeld id fun m hm => .wrote _ id m ht hm rfl rfl hr
  | finish id => exact .withHeld id fun m _ => .none [_, _] (by simp [Task.isErrand]) rfl
  | logLabelled ctx sev k label n =>
    rw [State.begin]
    exact .making _ sev k _ (fun _ m => [.drop m, .respond _]) (by simp [Task.isErrand])
      fun _ _ => rfl
  | setFunction hook => exact .installing ht hr _ _ _
  | enableCode code => exact .byCode _ _
  | disableCode code => exact .byCode _ _
  | levelCode code => exact .byCode _ _
  | setCallerScript ops => exact .idle rfl
  | forward id message =>
    exact .withForwarder id fun b => .withHeld message fun m _ =>
      .none [_, _] (by simp [Task.isErrand]) rfl
  | installForwarder id ctx => exact .withForwarder id fun b => .installing ht hr _ _ _
  | thread ops => exact .none [_] (by simp [Task.isErrand]) rfl
  | threadExit ops exit => exact .none [_] (by simp [Task.isErrand]) rfl
  | parallel ctx threads each sev k =>
    refine .none (crews _ threads each sev k ++ [_]) (fun p hp => ?_) rfl
    rcases List.mem_append.mp hp with h | h
    · obtain ⟨n, -, rfl⟩ := List.mem_map.mp h
      rfl
    · rw [List.mem_singleton.mp h]
      rfl
  | panic text => exact .idle rfl

theorem build_errand (hr : s.condition = .running) (chosen : Option Backend) (g : Gate)
    (gates : List Gate) (target : Target) (steps : List BuildStep) :
    Errand s (.build steps chosen g gates target) (s.build chosen g gates target steps) := by
  cases steps with
  | nil =>
    cases target with
    | create ctx => exact .idle rfl
    | install c => exact .called c _ _ rfl rfl hr
  | cons step steps =>
    have hp : ∀ q : Task, q.isErrand = false → ∀ p ∈ destroying chosen ++ [q],
        p.isErrand = false := by
      intro q hq p hp
      rcases List.mem_append.mp hp with h | h
      · exact not_errand_of_mem_destroying h
      · rwa [List.mem_singleton.mp h]
    simp only [State.build]
    split
    · exact .none _ (hp _ rfl) rfl
    · exact .none [_] (by simp [Task.isErrand]) rfl
    · exact .none [_] (by simp [Task.isErrand]) rfl
    · exact .none _ (hp _ rfl) rfl

theorem swap_errand (hr : s.condition = .running) (c : ContextId) (next : Option Installed) :
    Errand s (.swap c next) (s.swap c next) :=
  .accessing (fun hc => .swapped c next rfl hr hc rfl) fun hc => .refused c next rfl hr hc rfl

theorem perform_errand (hr : s.condition = .running) (t : Task) : Errand s t (s.perform t) := by
  cases t with
  | program ops =>
    cases ops with
    | nil => exact .idle rfl
    | cons o os => exact .none [_, _, _] (by simp [Task.isErrand]) rfl
  | script ops =>
    cases ops with
    | nil => exact .idle rfl
    | cons o os => exact .none [_, _, _] (by simp [Task.isErrand]) rfl
  | collect ops answers =>
    cases ops with
    | nil => exact .idle rfl
    | cons o os => exact .none [_, _] (by simp [Task.isErrand]) rfl
  | gather ops answers => exact .none [_] (by simp [Task.isErrand]) rfl
  | «begin» o => exact begin_errand hr o
  | drop m => exact .drop m
  | write c m => exact .write c m
  | flush c => exact .flush c
  | swap c next => exact swap_errand hr c next
  | destroy b => exact .none [_] (by simp [Task.isErrand]) rfl
  | build steps chosen g gates target => exact build_errand hr chosen g gates target steps
  | forward b m => exact .none [_] (by simp [Task.isErrand]) rfl
  | fork ops => exact .none [_, _] (by simp [Task.isErrand]) rfl
  | crew c sev k thread count => exact .none [_, _] (by simp [Task.isErrand]) rfl
  | numbered c sev k thread first count =>
    cases count with
    | zero => exact .idle rfl
    | succ rest =>
      rw [perform]
      exact .making c sev k _ (fun _ m => [.drop m, .numbered c sev k thread (first + 1) rest])
        (by simp [Task.isErrand]) fun _ _ => rfl
  | forkExit ops exit => exact .none [_, _, _] (by simp [Task.isErrand]) rfl
  | exit ops =>
    simp only [perform]
    split
    · exact .none [_, _] (by simp [Task.isErrand]) rfl
    · exact .idle rfl
  | pair alive =>
    simp only [perform]
    split <;> exact .idle rfl
  | _ => exact .idle rfl

theorem unwind_errand (s : State) (text : String) (t : Task) : Errand s t (s.unwind text t) := by
  have give : ∀ b, Errand s t (s.giveUp text b) := by
    intro b
    cases b with
    | none => exact .idle rfl
    | some b => exact .none [_, _] (by simp [Task.isErrand]) rfl
  cases t with
  | leave c counted => exact .idle rfl
  | unlock c => exact .idle rfl
  | join waiting => exact .idle rfl
  | report => exact .idle rfl
  | resume text' => exact .idle rfl
  | _ =>
    simp only [unwind]
    exact give _

end

/-- Every step does nothing, or takes a task off the agenda and puts errands in its place. -/
theorem step_errand (s : State) :
    s.step = (s, []) ∨ ∃ t ts, s.agenda = t :: ts ∧ Errand { s with agenda := ts } t s.step := by
  by_cases h : s.halted = true
  · exact .inl (step_of_halted h)
  · unfold halted at h
    split at h
    · next t ts hc ha =>
      refine .inr ⟨t, ts, ha, ?_⟩
      simp only [step, hc, ha]
      exact perform_errand rfl t
    · next text t ts hc ha =>
      refine .inr ⟨t, ts, ha, ?_⟩
      simp only [step, hc, ha]
      exact unwind_errand _ text t
    · exact absurd rfl h

/-! ### Messages on their way to a context -/

/-- What is written to a context is an open message, and it is written next. -/
structure Direct (s : State) : Prop where
  below : ∀ c m, .write c m ∉ s.agenda.tail
  held : ∀ c m ts, s.agenda = .write c m :: ts → ∃ id, s.world.held.get? id = some m

theorem direct_start (program : Program) : Direct (start program) where
  below := fun c m h => absurd h List.not_mem_nil
  held := fun c m ts h => by cases h

theorem not_write_of_ordinary {ps : List Task} (hp : ∀ p ∈ ps, p.isErrand = false)
    (c : ContextId) (m : Message) : .write c m ∉ ps := fun h => by
  have := hp _ h
  cases this

theorem Direct.step {s : State} (h : Direct s) : Direct s.step.1 := by
  rcases s.step_errand with hs | ⟨t, ts, ha, herrand⟩
  · rw [hs]
    exact h
  · have hts : ∀ c m, .write c m ∉ ts := by
      intro c m
      have := h.below c m
      rwa [ha] at this
    -- most steps put no message on its way
    have none : ∀ ps : List Task, (∀ c m, .write c m ∉ ps) → s.step.1.agenda = ps ++ ts →
        Direct s.step.1 := by
      intro ps hp hps
      have hall : ∀ c m, .write c m ∉ s.step.1.agenda := by
        intro c m hm
        rw [hps] at hm
        rcases List.mem_append.mp hm with hm | hm
        · exact hp c m hm
        · exact hts c m hm
      refine ⟨fun c m hm => hall c m (List.mem_of_mem_tail hm), fun c m us hu => ?_⟩
      exact absurd (hu ▸ List.mem_cons_self ..) (hall c m)
    cases herrand with
    | none ps hp hps => exact none ps (not_write_of_ordinary hp) hps
    | called c next a ht hps hr => exact none _ (by simp) hps
    | swapped c next ht hr hc hps =>
      refine none _ (fun d m hm => ?_) hps
      rcases List.mem_append.mp hm with hm | hm
      · exact not_write_of_ordinary (fun p => not_errand_of_mem_destroying) d m hm
      · cases List.mem_singleton.mp hm
    | refused c next ht hr hc hps =>
      refine none _ (fun d m hm => ?_) hps
      rcases List.mem_append.mp hm with hm | hm
      · exact not_write_of_ordinary (fun p => not_errand_of_mem_destroying) d m hm
      · cases List.mem_singleton.mp hm
    | wrote c id m ht hm hps hw hr =>
      refine ⟨fun d m' hm' => ?_, fun d m' us hu => ⟨id, ?_⟩⟩
      · rw [hps] at hm'
        rcases List.mem_cons.mp hm' with hm' | hm'
        · cases hm'
        · exact hts d m' hm'
      · rw [hps] at hu
        obtain ⟨-, rfl⟩ := Task.write.inj (List.cons_eq_cons.mp hu).1
        rw [hw]
        exact hm

theorem direct_run (program : Program) (n : Nat) : Direct (run n (start program)).1 :=
  run_induction (fun _ => Direct.step) n (direct_start program)

end State

end GatedLog
