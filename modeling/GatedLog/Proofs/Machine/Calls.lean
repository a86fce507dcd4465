import GatedLog.Proofs.Machine.Announcements
import GatedLog.Proofs.Machine.Delivery

/-!
# Calls that swap backends

An operation that puts a backend into a context, or empties it, is a call (`Calls`), and so is the end
of a builder that installs what it has built. A swap is on the agenda for one step only, right after
the call (`SwapsNext`), so that every event of a swap belongs to a call, and to one only
(`exists_reports`, `Reports.unique`).
-/

namespace GatedLog.State

/-- The context that a call is about, and what it is to put there. -/
def call? (w : World) : Task → Option (ContextId × Option Installed)
  | .begin (.install ctx spec g) => some (w.lookUp ctx, some ⟨g, (w.make spec).1⟩)
  | .begin (.setFunction hook) =>
    some (World.global, some ⟨Gate.unrestricted, (w.make (.forwarding hook)).1⟩)
  | .begin (.installForwarder id ctx) =>
    (w.forwarders.get? id).map fun b => (w.lookUp ctx, some ⟨Gate.unrestricted, b⟩)
  | .begin (.remove ctx) => some (w.lookUp ctx, none)
  | .build [] chosen g _ (.install c) => some (c, some ⟨g, (chosenBackend w chosen).1⟩)
  | _ => none

/-- What a call answers. -/
def reply : Task → Answer
  | .build _ _ _ gates _ => .steps gates none
  | _ => .nothing

/-- A call is next, in front of the tasks `ts`: it is to put `next` into the context. -/
structure Calls (s : State) (c : ContextId) (next : Option Installed) (t : Task) (ts : List Task) :
    Prop where
  running : s.condition = .running
  agenda : s.agenda = t :: ts
  call : call? s.world t = some (c, next)

variable {s : State} {c : ContextId} {next : Option Installed} {t : Task} {ts : List Task}

/-! ### What a call puts on the agenda -/

theorem alike_chosenBackend (w : World) (chosen : Option Backend) :
    World.Alike w (chosenBackend w chosen).2 := by
  cases chosen with
  | none => exact World.alike_make w _
  | some b => exact .refl w

theorem perform_of_call (h : call? s.world t = some (c, next)) :
    ∃ w, World.Alike s.world w ∧ s.perform t = ({ s with
      world := w, agenda := .swap c next :: .respond (reply t) :: s.agenda }, []) := by
  unfold call? at h
  split at h
  · obtain ⟨rfl, rfl⟩ := Prod.mk.inj (Option.some.inj h)
    exact ⟨_, World.alike_make _ _, rfl⟩
  · obtain ⟨rfl, rfl⟩ := Prod.mk.inj (Option.some.inj h)
    exact ⟨_, World.alike_make _ _, rfl⟩
  · next id ctx =>
    obtain ⟨b, hb, hcall⟩ := Option.map_eq_some_iff.mp h
    obtain ⟨rfl, rfl⟩ := Prod.mk.inj hcall
    refine ⟨{ s.world with forwarders := s.world.forwarders.erase id }, ⟨rfl, rfl, rfl, rfl⟩, ?_⟩
    simp only [perform, State.begin, withForwarder, hb]
    rfl
  · obtain ⟨rfl, rfl⟩ := Prod.mk.inj (Option.some.inj h)
    exact ⟨_, .refl _, rfl⟩
  · next chosen g gates c =>
    obtain ⟨rfl, rfl⟩ := Prod.mk.inj (Option.some.inj h)
    exact ⟨_, alike_chosenBackend s.world chosen, rfl⟩
  · cases h

/-- A call comes to a swap in one step, in which nothing happens. -/
theorem Calls.step (h : Calls s c next t ts) : ∃ w, World.Alike s.world w ∧ s.step = ({ s with
    world := w, agenda := .swap c next :: .respond (reply t) :: ts }, []) := by
  rw [step_of_running h.running h.agenda]
  exact perform_of_call (s := { s with agenda := ts }) h.call

/-! ### Nothing else puts a swap on the agenda -/

/-- A swap that is on the agenda has been there before. -/
def Swapless (s : State) (o : Outcome) : Prop :=
  ∀ c next, .swap c next ∈ o.1.agenda → .swap c next ∈ s.agenda

namespace Swapless

theorem idle {o : Outcome} (ha : o.1.agenda = s.agenda) : Swapless s o := fun _ _ h => ha ▸ h

theorem pushes {o : Outcome} (ps : List Task) (hp : ∀ c next, .swap c next ∉ ps)
    (ha : o.1.agenda = ps ++ s.agenda) : Swapless s o := fun c next h => by
  rw [ha] at h
  exact (List.mem_append.mp h).resolve_left (hp c next)

theorem accessing {granted refused : Outcome} (hg : Swapless s granted) (hr : Swapless s refused) :
    Swapless s (s.accessing c granted refused) := by
  unfold State.accessing
  cases s.world.access c with
  | granted => exact hg
  | refused => exact hr
  | blocked => exact .idle rfl

theorem onContext (c : ContextId) (o : ContextOp) (answer : Answer → Answer) :
    Swapless s (s.onContext c o answer) := by
  refine .accessing ?_ (.idle rfl)
  cases s.world.asked c o with
  | nil => exact .idle rfl
  | cons op ops => exact .pushes [_, _, _] (by simp) rfl

theorem byCode (function : String) (o : Except Rejection ContextOp) :
    Swapless s (s.byCode function o) := by
  cases o with
  | error why => exact .idle rfl
  | ok o => exact onContext World.global o _

theorem withHeld (id : String) {next : Message → Outcome} (h : ∀ m, Swapless s (next m)) :
    Swapless s (s.withHeld id next) := by
  unfold State.withHeld
  cases s.world.held.get? id with
  | none => exact .idle rfl
  | some m => exact h m

theorem withForwarder (id : String) {next : Backend → Outcome} (h : ∀ b, Swapless s (next b)) :
    Swapless s (s.withForwarder id next) := by
  unfold State.withForwarder
  cases s.world.forwarders.get? id with
  | none => exact .idle rfl
  | some b => exact h b

theorem making (c : ContextId) (sev : Severity) (k : Component) (parts : List Part)
    (ps : State → Message → List Task) {next : State → Message → State}
    (hp : ∀ u m c i, .swap c i ∉ ps u m) (ha : ∀ u m, (next u m).agenda = ps u m ++ u.agenda) :
    Swapless s (s.making c sev k parts next) :=
  .accessing (.pushes _ (hp _ _) (ha _ _)) (.pushes _ (hp _ _) (ha _ _))

theorem running (c : ContextId) (first : Happening) (r : Reaction) :
    Swapless s (s.running c first r) := .pushes [_, _] (by simp) rfl

theorem write (c : ContextId) (m : Message) : Swapless s (s.write c m) := by
  refine .accessing ?_ (.idle rfl)
  split
  · exact .idle rfl
  · exact running c _ _

theorem flush (c : ContextId) : Swapless s (s.flush c) := by
  refine .accessing ?_ (.idle rfl)
  split
  · exact .idle rfl
  · exact running c _ _

theorem drop (m : Message) : Swapless s (s.drop m) := by
  unfold State.drop
  cases m.worth with
  | false => exact .idle rfl
  | true => exact write m.context m

end Swapless

theorem swap_not_mem_destroying {b : Option Backend} : Task.swap c next ∉ destroying b := fun h => by
  have := not_errand_of_mem_destroying h
  cases this

theorem swapless_begin {o : Op} (h : call? s.world (.begin o) = none) : Swapless s (s.begin o) := by
  cases o with
  | onContext ctx o => exact .onContext _ o _
  | onStore o => exact .idle rfl
  | create ctx spec g => cases spec <;> exact .idle rfl
  | build ctx steps => exact .pushes [_] (by simp) rfl
  | buildInto ctx steps => exact .pushes [_] (by simp) rfl
  | install ctx spec g => cases h
  | remove ctx => cases h
  | flush ctx => exact .pushes [_, _] (by simp) rfl
  | log ctx sev k parts =>
    exact .making _ sev k parts (fun _ m => [.drop m, .respond (.statement m.worth m.text)])
      (by simp) fun _ _ => rfl
  | hold id ctx sev k parts =>
    refine .making _ sev k parts
      (fun u m => ((u.world.held.get? id).map Task.drop).toList ++ [.respond (.message m)])
      (fun u m c i hmem => ?_) fun _ _ => rfl
    cases hheld : u.world.held.get? id <;> simp [hheld] at hmem
  | add id parts => exact .withHeld id fun m => .idle rfl
  | write ctx id => exact .withHeld id fun m => .pushes [_, _] (by simp) rfl
  | finish id => exact .withHeld id fun m => .pushes [_, _] (by simp) rfl
  | logLabelled ctx sev k label n =>
    exact .making _ sev k _ (fun _ m => [.drop m, .respond _]) (by simp) fun _ _ => rfl
  | setFunction hook => cases h
  | enableCode code => exact .byCode _ _
  | disableCode code => exact .byCode _ _
  | levelCode code => exact .byCode _ _
  | setCallerScript ops => exact .idle rfl
  | forward id message =>
    exact .withForwarder id fun b => .withHeld message fun m => .pushes [_, _] (by simp) rfl
  | installForwarder id ctx =>
    have hid : s.world.forwarders.get? id = none := Option.map_eq_none_iff.mp h
    simp only [State.begin, State.withForwarder, hid]
    exact .idle rfl
  | thread ops => exact .pushes [_] (by simp) rfl
  | threadExit ops exit => exact .pushes [_] (by simp) rfl
  | parallel ctx threads each sev k =>
    exact .pushes (crews _ threads each sev k ++ [_]) (by simp [crews]) rfl
  | panic text => exact .idle rfl

theorem swapless_build {chosen : Option Backend} {g : Gate} {gates : List Gate} {target : Target}
    {steps : List BuildStep} (h : call? s.world (.build steps chosen g gates target) = none) :
    Swapless s (s.build chosen g gates target steps) := by
  cases steps with
  | nil =>
    cases target with
    | create ctx => exact .idle rfl
    | install c => cases h
  | cons step steps =>
    have after : ∀ q : Task, q.isErrand = false →
        ∀ c next, .swap c next ∉ destroying chosen ++ [q] := by
      intro q hq c next hmem
      rcases List.mem_append.mp hmem with hmem | hmem
      · exact swap_not_mem_destroying hmem
      · obtain rfl := List.mem_singleton.mp hmem
        cases hq
    simp only [State.build]
    split
    · exact .pushes _ (after _ rfl) rfl
    · exact .pushes [_] (by simp) rfl
    · exact .pushes [_] (by simp) rfl
    · exact .pushes _ (after _ rfl) rfl

theorem swapless_swap (c : ContextId) (next : Option Installed) : Swapless s (s.swap c next) := by
  have before : ∀ b e d i, Task.swap d i ∉ destroying b ++ [.emit e] := by
    intro b e d i hmem
    rcases List.mem_append.mp hmem with hmem | hmem
    · exact swap_not_mem_destroying hmem
    · cases List.mem_singleton.mp hmem
  exact .accessing (.pushes _ (before _ _) rfl) (.pushes _ (before _ _) rfl)

theorem swapless_perform (h : call? s.world t = none) : Swapless s (s.perform t) := by
  cases t with
  | program ops =>
    cases ops with
    | nil => exact .idle rfl
    | cons o os => exact .pushes [_, _, _] (by simp) rfl
  | script ops =>
    cases ops with
    | nil => exact .idle rfl
    | cons o os => exact .pushes [_, _, _] (by simp) rfl
  | collect ops answers =>
    cases ops with
    | nil => exact .idle rfl
    | cons o os => exact .pushes [_, _] (by simp) rfl
  | gather ops answers => exact .pushes [_] (by simp) rfl
  | «begin» o => exact swapless_begin h
  | drop m => exact .drop m
  | write c m => exact .write c m
  | flush c => exact .flush c
  | swap c next => exact swapless_swap c next
  | destroy b => exact .pushes [_] (by simp) rfl
  | build steps chosen g gates target => exact swapless_build h
  | forward b m => exact .pushes [_] (by simp) rfl
  | fork ops => exact .pushes [_, _] (by simp) rfl
  | crew c sev k thread count => exact .pushes [_, _] (by simp) rfl
  | numbered c sev k thread first count =>
    cases count with
    | zero => exact .idle rfl
    | succ rest =>
      exact .making c sev k _ (fun _ m => [.drop m, .numbered c sev k thread (first + 1) rest])
        (by simp) fun _ _ => rfl
  | forkExit ops exit => exact .pushes [_, _, _] (by simp) rfl
  | exit ops =>
    simp only [perform]
    split
    · exact .pushes [_, _] (by simp) rfl
    · exact .idle rfl
  | pair alive =>
    simp only [perform]
    split <;> exact .idle rfl
  | _ => exact .idle rfl

theorem swapless_unwind (s : State) (text : String) (t : Task) : Swapless s (s.unwind text t) := by
  have give : ∀ b, Swapless s (s.giveUp text b) := by
    intro b
    cases b with
    | none => exact .idle rfl
    | some b => exact .pushes [_, _] (by simp) rfl
  cases t with
  | leave c counted => exact .idle rfl
  | unlock c => exact .idle rfl
  | join waiting => exact .idle rfl
  | report => exact .idle rfl
  | resume text' => exact .idle rfl
  | _ =>
    simp only [unwind]
    exact give _

/-! ### A swap comes right after the call -/

/-- A swap is next as soon as it is on the agenda, and the run goes on. -/
structure SwapsNext (s : State) : Prop where
  below : ∀ c next, .swap c next ∉ s.agenda.tail
  running : ∀ c next ts, s.agenda = .swap c next :: ts → s.condition = .running

/-- A step either is that of a call, or leaves no swap on the agenda. -/
theorem SwapsNext.step_cases (h : SwapsNext s) :
    (∃ c next t ts, Calls s c next t ts) ∨ ∀ c next, .swap c next ∉ s.step.1.agenda := by
  by_cases hstop : s.halted = true
  · rw [step_of_halted hstop]
    refine .inr fun c next hmem => ?_
    cases ha : s.agenda with
    | nil =>
      rw [ha] at hmem
      cases hmem
    | cons t ts =>
      have hts := h.below c next
      rw [ha] at hmem hts
      obtain rfl := (List.mem_cons.mp hmem).resolve_right hts
      have hgoes : s.halted = false := by simp only [halted, h.running c next ts ha, ha]
      rw [hgoes] at hstop
      cases hstop
  · unfold halted at hstop
    split at hstop
    · next t ts hc ha =>
      cases hcall : call? s.world t with
      | some x => exact .inl ⟨x.1, x.2, t, ts, hc, ha, hcall⟩
      | none =>
        refine .inr fun c next hmem => h.below c next ?_
        rw [step_of_running hc ha] at hmem
        rw [ha]
        exact swapless_perform (s := { s with agenda := ts }) hcall c next hmem
    · next text t ts hc ha =>
      refine .inr fun c next hmem => h.below c next ?_
      simp only [step, hc, ha] at hmem
      rw [ha]
      exact swapless_unwind _ text t c next hmem
    · exact absurd rfl hstop

theorem SwapsNext.step (h : SwapsNext s) : SwapsNext s.step.1 := by
  rcases h.step_cases with ⟨c, next, t, ts, hcall⟩ | hnone
  · obtain ⟨w, -, hstep⟩ := hcall.step
    rw [hstep]
    refine ⟨fun d i hmem => ?_, fun d i us _ => hcall.running⟩
    have hts := h.below d i
    rw [hcall.agenda] at hts
    exact hts ((List.mem_cons.mp hmem).resolve_left nofun)
  · refine ⟨fun c next hmem => hnone c next (List.mem_of_mem_tail hmem), fun c next ts ha => ?_⟩
    exact absurd (ha ▸ List.mem_cons_self ..) (hnone c next)

theorem swapsNext_start (program : Program) : SwapsNext (start program) where
  below c next := List.not_mem_nil
  running c next ts ha := by cases ha

theorem swapsNext_run (program : Program) (n : Nat) : SwapsNext (run n (start program)).1 :=
  run_induction (fun _ => SwapsNext.step) n (swapsNext_start program)

theorem SwapsNext.call_of_swap {us : List Task} (h : SwapsNext s)
    (ha : s.step.1.agenda = .swap c next :: us) :
    ∃ t ts, Calls s c next t ts ∧ us = .respond (reply t) :: ts := by
  rcases h.step_cases with ⟨d, i, t, ts, hcall⟩ | hnone
  · obtain ⟨w, -, hstep⟩ := hcall.step
    rw [hstep] at ha
    obtain ⟨hswap, rfl⟩ := List.cons_eq_cons.mp ha
    obtain ⟨rfl, rfl⟩ := Task.swap.inj hswap
    exact ⟨t, ts, hcall, rfl⟩
  · exact absurd (ha ▸ List.mem_cons_self ..) (hnone c next)

/-! ### Every event belongs to a call -/

/-- The event of a call: the thread may be refused the context. -/
def verdict (s : State) (c : ContextId) (next : Option Installed) : Event :=
  if s.ShutOut c then notSwapped next else swapped next

/-- The event that is emitted after `k` steps is that of the call which begins after `i`. The swap is
next, and from then on the event waits below whatever is done. -/
structure Reports (s : State) (i k : Nat) (c : ContextId) (next : Option Installed) (t : Task)
    (ts : List Task) (e : Event) : Prop where
  call : Calls (run i s).1 c next t ts
  verdict : e = (run i s).1.verdict c next
  before : i + 1 < k
  agenda : (run k s).1.agenda = .emit e :: .respond (reply t) :: ts
  waits : ∀ j, i + 1 < j → j ≤ k →
    ∃ ys, (run j s).1.agenda = ys ++ .emit e :: .respond (reply t) :: ts

variable {e : Event}

theorem verdict_of_access (h : Disciplined s)
    (hc : s.world.access c = .granted ∧ e = swapped next ∨
      s.world.access c = .refused ∧ e = notSwapped next) : e = s.verdict c next := by
  rw [verdict]
  rcases hc with ⟨hg, rfl⟩ | ⟨hr, rfl⟩
  · rw [if_neg]
    intro hs
    rw [(h.refused_iff c).mpr hs] at hg
    cases hg
  · rw [if_pos ((h.refused_iff c).mp hr)]

/-- An event of a swap is that of a call. -/
theorem exists_reports (program : Program) {k : Nat} (he : e.isLifecycle = true)
    (hm : .emitted e ∈ (run k (start program)).1.step.2) :
    ∃ i c next t ts, Reports (start program) i k c next t ts e := by
  obtain ⟨us, hus, -⟩ := emit_of_lifecycle he hm
  obtain ⟨j, c, next, hjk, -, hswap, haccess, hwaits⟩ := (exists_pending [] hus).resolve_left (by
    rintro ⟨ys, hys⟩
    have hmem : Task.emit e ∈ (start program).agenda := by simp [hys]
    cases List.mem_singleton.mp hmem)
  cases j with
  | zero => cases hswap
  | succ i =>
    have hstep := hswap
    rw [run_next] at hstep
    obtain ⟨t, ts, hcall, rfl⟩ := (swapsNext_run program i).call_of_swap hstep
    obtain ⟨w, halike, hnext⟩ := hcall.step
    refine ⟨i, c, next, t, ts, hcall, verdict_of_access (disciplined_run program i) ?_, hjk, hus,
      hwaits⟩
    -- the swap finds the context as the call does
    have hworld : (run (i + 1) (start program)).1.world = w := by rw [run_next, hnext]
    rwa [hworld, halike.access] at haccess

/-- And of that call only. -/
theorem Reports.unique {i j k : Nat} {d : ContextId} {next' : Option Installed} {t' : Task}
    {ts' : List Task} {e' : Event} (h : Reports s i k c next t ts e)
    (h' : Reports s j k d next' t' ts' e') : i = j := by
  have apart : ∀ {i j c d next next' t t' ts ts' e e'}, Reports s i k c next t ts e →
      Reports s j k d next' t' ts' e' → ¬ i < j := by
    intro i j c d next next' t t' ts ts' e e' h h' hij
    have hbefore := h'.before
    obtain rfl : ts = ts' :=
      (List.cons_eq_cons.mp (List.cons_eq_cons.mp (h.agenda.symm.trans h'.agenda)).2).2
    have hj := h'.call.agenda
    rcases Nat.lt_or_eq_of_le (Nat.succ_le_of_lt hij) with hlt | rfl
    · obtain ⟨ys, hys⟩ := h.waits j hlt (by omega)
      rw [hj] at hys
      have hlength := congrArg List.length hys
      simp only [List.length_append, List.length_cons] at hlength
      omega
    · obtain ⟨w, -, hstep⟩ := h.call.step
      rw [run_next, hstep] at hj
      have hlength := congrArg List.length hj
      simp only [List.length_cons] at hlength
      omega
  exact Nat.le_antisymm (Nat.le_of_not_lt (apart h' h)) (Nat.le_of_not_lt (apart h h'))

/-- The state that a program has reached may be taken for the first one. -/
theorem reports_add {m i k : Nat} :
    Reports s (m + i) (m + k) c next t ts e ↔ Reports (run m s).1 i k c next t ts e := by
  have hrun : ∀ j, (run (m + j) s).1 = (run j (run m s).1).1 := fun j => by rw [run_add]
  constructor
  · rintro ⟨hcall, hverdict, hik, hk, hwaits⟩
    refine ⟨hrun i ▸ hcall, hrun i ▸ hverdict, by omega, hrun k ▸ hk, fun j hij hjk => ?_⟩
    have := hwaits (m + j) (by omega) (by omega)
    rwa [hrun] at this
  · rintro ⟨hcall, hverdict, hik, hk, hwaits⟩
    refine ⟨hrun i ▸ hcall, hrun i ▸ hverdict, by omega, hrun k ▸ hk, fun j hij hjk => ?_⟩
    have := hwaits (j - m) (by omega) (by omega)
    rwa [← hrun, show m + (j - m) = j by omega] at this

/-- The events that go out in the course of a task are those of calls that are made meanwhile. -/
theorem exists_reports_within (program : Program) {m k : Nat} (hs : s = (run m (start program)).1)
    (ha : s.agenda = t :: ts) (ht : t.isErrand = false)
    (hk : ts.length < (run k s).1.agenda.length) (he : e.isLifecycle = true)
    (hm : .emitted e ∈ (run k s).1.step.2) : ∃ i d i' t' ts', Reports s i k d i' t' ts' e := by
  subst hs
  have hm' : .emitted e ∈ (run (m + k) (start program)).1.step.2 := by rwa [run_add]
  obtain ⟨i, d, next, t', ts', hreports⟩ := exists_reports program he hm'
  have hmi : m ≤ i := by
    by_contra hlt
    have hlast := hreports.agenda
    rw [run_add] at hlast
    rcases Nat.lt_or_eq_of_le (Nat.succ_le_of_lt (Nat.lt_of_not_le hlt)) with hlt | rfl
    · -- the event has been waiting since before the task
      obtain ⟨ys, hys⟩ := hreports.waits m hlt (by omega)
      rw [hlast, List.length_cons] at hk
      rw [ha] at hys
      have hlength := congrArg List.length hys
      simp only [List.length_append, List.length_cons] at hlength hk
      obtain rfl : ys = [] := List.eq_nil_of_length_eq_zero (by omega)
      obtain ⟨rfl, -⟩ := List.cons_eq_cons.mp hys
      cases ht
    · obtain ⟨w, -, hstep⟩ := hreports.call.step
      rw [run_next, hstep] at ha
      obtain ⟨rfl, -⟩ := List.cons_eq_cons.mp ha
      cases ht
  refine ⟨i - m, d, next, t', ts', reports_add.mp ?_⟩
  rwa [show m + (i - m) = i by omega]

end GatedLog.State
