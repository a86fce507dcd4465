import GatedLog.Proofs.Machine.Agreement
import GatedLog.Proofs.Machine.Strictness
import GatedLog.Proofs.Machine.Unwinding

/-!
# Discreet backends

What a backend does with a message is its own business: it may run operations, on other contexts and
on its own, and it may panic. A discreet backend comes to its end and leaves the open messages and the
name of its context alone (`Discreet`). All else follows from the discipline of runs: meanwhile the
context is locked, so that its gate stays as it is and nothing more is handed over. So commands on the
context are carried out at its desk (`Discreet.served_commands`), as they are for the backends of the
library; only the messages that are made elsewhere meanwhile keep the numbers from being the same.
-/

namespace GatedLog

/-- What a context hands to its backends. -/
def deliveredBy (c : ContextId) (hs : List Happening) : List (Backend × Message) :=
  (deliveries hs).filterMap fun x => if x.1 = c then some x.2 else none

section

variable {c : ContextId} {hs : List Happening}

theorem deliveredBy_append (c : ContextId) (hs is : List Happening) :
    deliveredBy c (hs ++ is) = deliveredBy c hs ++ deliveredBy c is := by
  simp only [deliveredBy, deliveries, List.filterMap_append]

theorem deliveredBy_cons (c : ContextId) (b : Backend) (m : Message) (hs : List Happening) :
    deliveredBy c (.delivered c b m :: hs) = (b, m) :: deliveredBy c hs := by
  simp [deliveredBy, deliveries, Happening.delivery?]

theorem deliveredBy_of_deliveries (h : deliveries hs = []) : deliveredBy c hs = [] := by
  rw [deliveredBy, h, List.filterMap_nil]

/-- Where the backend of a context does not begin to run the context hands nothing over. -/
theorem deliveredBy_of_not_begins (h : ∀ e ∈ hs, ∀ b, e.begins? ≠ some (c, b)) :
    deliveredBy c hs = [] := by
  refine List.filterMap_eq_nil_iff.mpr fun x hx => if_neg ?_
  obtain ⟨e, he, hdelivery⟩ := List.mem_filterMap.mp hx
  rintro rfl
  cases e <;> cases hdelivery
  exact h _ he _ rfl

end

/-- The run goes on, or unwinds. -/
def Condition.isLive : Condition → Bool
  | running => true
  | unwinding _ => true
  | _ => false

namespace State

variable {p : Post} {I : World → Prop} {d : Desk} {s : State} {ts us : List Task}
  {ms ns : List Message} {n : Nat}

/-- The backend of the context comes to its end, if only by a panic, and leaves the open messages and
the name of the context alone. -/
structure Returns (p : Post) (I : World → Prop) (s : State) (n : Nat) : Prop where
  completes : s.Completes n
  live : (run n s).1.condition.isLive = true
  held : (run n s).1.world.held = s.world.held
  lookUp : (run n s).1.world.lookUp p.name = s.world.lookUp p.name
  stays : I (run n s).1.world

/-- In the worlds of `I` the backend of the context always returns. -/
structure Discreet (p : Post) (I : World → Prop) : Prop where
  /-- Neither the messages nor the gate of the context lead out of these worlds. -/
  messages : ∀ w held count, I w → I { w with held := held, messages := count }
  gate : ∀ w f, I w → I (w.configure p.id f)
  returns : ∀ s d, Disciplined s → Manned p s.world d → I s.world → ∀ e ∈ s.step.2, ∀ b,
    e.begins? = some (p.id, b) → ∃ n, Returns p I s n

/-- After `n` steps the tasks `ts` are left, at the desk `d` but for the number of messages; meanwhile
the context has handed over the messages `ms`. -/
structure Served (p : Post) (I : World → Prop) (s : State) (d : Desk) (ts : List Task)
    (ms : List Message) (n : Nat) : Prop where
  agenda : (run n s).1.agenda = ts
  condition : (run n s).1.condition = .running
  manned : Manned p (run n s).1.world { d with messages := (run n s).1.world.messages }
  stays : I (run n s).1.world
  delivered : deliveredBy p.id (run n s).2 = ms.map fun m => (p.backend, m)

theorem Served.after {k : Nat} (h : Served p I (run k s).1 d ts ns n)
    (hk : deliveredBy p.id (run k s).2 = ms.map fun m => (p.backend, m)) :
    Served p I s d ts (ms ++ ns) (k + n) := by
  constructor <;> rw [run_add]
  · exact h.agenda
  · exact h.condition
  · exact h.manned
  · exact h.stays
  · rw [deliveredBy_append, hk, h.delivered, List.map_append]

/-- So far nothing has been handed over. -/
theorem Served.after_quiet {k : Nat} (h : Served p I (run k s).1 d ts ms n)
    (hq : deliveries (run k s).2 = []) : Served p I s d ts ms (k + n) := by
  have hk : deliveredBy p.id (run k s).2 = ([] : List Message).map fun m => (p.backend, m) :=
    deliveredBy_of_deliveries hq
  exact h.after hk

/-! ### The ends of operations -/

/-- What an operation still has to do when it has begun: one thing at most, which hands over these
messages, and then the answer. -/
inductive Remainder (p : Post) : List Task → List Message → Prop
  | none : Remainder p [] []
  | respond (a : Answer) : Remainder p [.respond a] []
  | drop {m : Message} (hm : m.context = p.id) (a : Answer) :
    Remainder p [.drop m, .respond a] (Desk.ended m)
  | write (m : Message) (a : Answer) : Remainder p [.write p.id m, .respond a] [m]
  | flush (a : Answer) : Remainder p [.flush p.id, .respond a] []

/-- Whether the run goes on or unwinds, an operation of the program ends with its report. -/
theorem run_responded {a : Answer} (ha : s.agenda = .respond a :: .report :: ts)
    (hc : s.condition.isLive = true) :
    ∃ b e, run 2 s = (⟨s.world, ts, b, .running, s.registered⟩, [.answered e]) := by
  obtain ⟨w, agenda, answer, condition, l⟩ := s
  obtain rfl : agenda = _ := ha
  cases condition with
  | running => exact ⟨_, _, rfl⟩
  | unwinding text => exact ⟨_, _, rfl⟩
  | blocked => cases hc
  | aborted => cases hc

theorem served_of_responded {a : Answer} (ha : s.agenda = .respond a :: .report :: ts)
    (hc : s.condition.isLive = true) (hd : Manned p s.world { d with messages := s.world.messages })
    (hI : I s.world) : Served p I s d ts [] 2 := by
  obtain ⟨b, e, hrun⟩ := run_responded ha hc
  constructor <;> rw [hrun]
  · exact hd
  · exact hI
  · rfl

/-- Where the backend begins to run it is left in the end, with the context as it was, and nothing
more has been handed over. -/
theorem Discreet.served (hp : Discreet p I) {t : Task} {a : Answer} (hs : Disciplined s)
    (hd : Manned p s.world d) (hI : I s.world) (ha : s.agenda = t :: .respond a :: .report :: ts)
    {e : Happening} (he : e ∈ s.step.2) {b : Backend} (hb : e.begins? = some (p.id, b))
    (hms : deliveredBy p.id s.step.2 = ms.map fun m => (p.backend, m)) :
    ∃ n, Served p I s d ts ms n := by
  obtain ⟨n, hn⟩ := hp.returns s d hs hd hI e he b hb
  have ht := steady_of_begins he hb ha
  obtain ⟨hagenda, -⟩ := hn.completes.thread_eq ha ht
  obtain ⟨hrestored, -⟩ := hs.running_consistent he hb hn.completes
  have hgranted : (run n s).1.world.access p.id = .granted := by
    have hentered := (hs.granted_iff p.id).mp hd.granted
    rw [entered, ha, enteredOn_cons_of_plain (Task.isPlain_of_isSteady ht)] at hentered
    rwa [(hs.after n).granted_iff, entered, hagenda]
  have hmanned : Manned p (run n s).1.world { d with messages := (run n s).1.world.messages } :=
    ⟨hn.lookUp.trans hd.lookUp, hgranted, hrestored.installed.trans hd.installed,
      hn.held.trans hd.held, rfl, hd.own⟩
  have hdelivered : deliveredBy p.id (run n s).2 = ms.map fun m => (p.backend, m) := by
    cases n with
    | zero => exact absurd hn.completes.1 (Nat.lt_irrefl _)
    | succ n =>
      have hentered := entered_of_begins he hb (n := n) fun k hk => by
        have := hn.completes.2 (k + 1) (by omega)
        rwa [run_succ] at this
      rw [run_succ, deliveredBy_append, hms,
        deliveredBy_of_not_begins (hs.step.frozen_run hentered).2, List.append_nil]
  have hlast := (served_of_responded (d := d) hagenda hn.live hmanned hn.stays).after hdelivered
  rw [List.append_nil] at hlast
  exact ⟨_, hlast⟩

/-- A message is handed to the backend before anything else happens, and to no other one. -/
theorem happenings_write (hd : Manned p s.world d) (m : Message) :
    ∃ hs, (s.write p.id m).2 = .delivered p.id p.backend m :: hs ∧ deliveries hs = [] := by
  have hwrite : s.write p.id m = s.running p.id (.delivered p.id p.backend m)
      ((s.world.enter p.id).receive m p.backend.kind) := by
    simp only [State.write, accessing, hd.granted, hd.installed, register_running]
  refine ⟨((s.world.enter p.id).receive m p.backend.kind).happenings, by rw [hwrite]; rfl, ?_⟩
  exact deliveries_of_minor (World.outward_receive _ m p.backend.kind).minor

section Entries

variable {a : Answer} (hp : Discreet p I) (hs : Disciplined s) (hr : s.condition = .running)
  (hd : Manned p s.world d) (hI : I s.world)

include hp hs hr hd hI

theorem served_write {m : Message} (ha : s.agenda = .write p.id m :: .respond a :: .report :: ts) :
    ∃ n, Served p I s d ts [m] n := by
  obtain ⟨hs', hwrite, hq⟩ := happenings_write
    (s := { s with agenda := .respond a :: .report :: ts }) hd m
  have hstep : s.step.2 = .delivered p.id p.backend m :: hs' := by
    rw [step_of_running hr ha]
    exact hwrite
  refine hp.served hs hd hI ha (hstep ▸ List.mem_cons_self ..) rfl ?_
  rw [hstep, deliveredBy_cons, deliveredBy_of_deliveries hq]
  rfl

theorem served_flush (ha : s.agenda = .flush p.id :: .respond a :: .report :: ts) :
    ∃ n, Served p I s d ts [] n := by
  have hq : deliveries ((s.world.enter p.id).flushed p.backend.kind).happenings = [] :=
    deliveries_of_minor (World.outward_flushed _ p.backend.kind).minor
  have hstep : s.step.2 = .flushed p.id p.backend ::
      ((s.world.enter p.id).flushed p.backend.kind).happenings := by
    rw [step_of_running hr ha, perform]
    simp only [State.flush, accessing, hd.granted, hd.installed]
    rfl
  refine hp.served hs hd hI ha (hstep ▸ List.mem_cons_self ..) rfl ?_
  rw [hstep]
  exact deliveredBy_of_deliveries hq

/-- A message that ends is handed over if it is worth reporting. -/
theorem served_drop {m : Message} (hm : m.context = p.id)
    (ha : s.agenda = .drop m :: .respond a :: .report :: ts) :
    ∃ n, Served p I s d ts (Desk.ended m) n := by
  have hdrop : s.step = ({ s with agenda := .respond a :: .report :: ts } : State).drop m :=
    step_of_running hr ha
  cases hw : m.worth with
  | false =>
    have hended : Desk.ended m = [] := by simp [Desk.ended, hw]
    have hrun : run 1 s = ({ s with agenda := .respond a :: .report :: ts }, [.dropped m]) := by
      rw [run_succ, run_zero, hdrop]
      simp only [State.drop, hw]
      rfl
    rw [hended]
    refine ⟨1 + 2, Served.after_quiet ?_ ?_⟩ <;> rw [hrun]
    · exact served_of_responded rfl (by rw [hr]; rfl) hd.recount hI
    · rfl
  | true =>
    have hended : Desk.ended m = [m] := by simp [Desk.ended, hw]
    obtain ⟨hs', hwrite, hq⟩ := happenings_write
      (s := { s with agenda := .respond a :: .report :: ts }) hd m
    have hstep : s.step.2 = .dropped m :: .delivered p.id p.backend m :: hs' := by
      rw [hdrop, ← hwrite]
      simp only [State.drop, hw, hm]
      rfl
    have hmem : .delivered p.id p.backend m ∈ s.step.2 := by simp [hstep]
    rw [hended]
    refine hp.served hs hd hI ha hmem rfl ?_
    rw [hstep]
    show deliveredBy p.id (.delivered p.id p.backend m :: hs') = _
    rw [deliveredBy_cons, deliveredBy_of_deliveries hq]
    rfl

end Entries

/-- The rest of an operation is done, and the operation reported. -/
theorem Remainder.served (h : Remainder p us ms) (hp : Discreet p I) (hs : Disciplined s)
    (hr : s.condition = .running) (ha : s.agenda = us ++ .report :: ts)
    (hd : Manned p s.world d) (hI : I s.world) : ∃ n, Served p I s d ts ms n := by
  cases h with
  | none =>
    have ha : s.agenda = .report :: ts := ha
    have hrun : run 1 s = ({ s with agenda := ts }, [.answered s.answer]) := by
      rw [run_succ, run_zero, step_of_running hr ha]
      rfl
    refine ⟨1, ?_⟩
    constructor <;> rw [hrun]
    · exact hr
    · exact hd.recount
    · exact hI
    · rfl
  | respond a => exact ⟨2, served_of_responded ha (by rw [hr]; rfl) hd.recount hI⟩
  | drop hm a => exact served_drop hp hs hr hd hI hm ha
  | write m a => exact served_write hp hs hr hd hI ha
  | flush a => exact served_flush hp hs hr hd hI ha

/-! ### The beginnings of operations -/

/-- An operation has begun: the desk is the one after it, and nothing has been handed over so far. -/
structure Begun (p : Post) (I : World → Prop) (o : Outcome) (d : Desk) (agenda : List Task) :
    Prop where
  agenda : o.1.agenda = agenda
  condition : o.1.condition = .running
  manned : Manned p o.1.world d
  stays : I o.1.world
  quiet : deliveries o.2 = []

theorem deliveries_made (m : Message) (parts : List Part) :
    deliveries (.made m :: additions m parts) = [] :=
  deliveries_of_silent (List.forall_mem_cons.mpr ⟨rfl, additions_silent m parts⟩)

/-- A statement that ends as soon as it has been made. -/
theorem Discreet.begun_statement (hp : Discreet p I) (hr : s.condition = .running)
    (hd : Manned p s.world d) (hI : I s.world) {o : Op} (sev : Severity) (k : Component)
    (parts : List Part) (answer : Message → Answer)
    (ho : s.begin o = s.making (s.world.lookUp p.name) sev k parts fun s m =>
      s.push [.drop m, .respond (answer m)]) :
    ∃ us, Remainder p us (Desk.ended (d.draft p.id sev k parts)) ∧
      Begun p I (s.begin o) { d with messages := d.messages + 1 } (us ++ s.agenda) := by
  refine ⟨_, .drop (d.context_draft p.id sev k parts) (answer (d.draft p.id sev k parts)), ?_⟩
  rw [ho, making_of_manned hd]
  exact ⟨rfl, hr, hd.count, hp.messages _ _ _ hI, deliveries_made _ _⟩

/-- What concerns a message that is open under a name. -/
theorem begun_held (hr : s.condition = .running) (hd : Manned p s.world d) (hI : I s.world) (o : Op)
    (id : String) {next : Message → Outcome} (ho : s.begin o = s.withHeld id next) :
    (d.held.get? id = none → Begun p I (s.begin o) d s.agenda) ∧
      ∀ m, d.held.get? id = some m → s.begin o = next m := by
  rw [ho, withHeld, hd.held]
  constructor
  · intro hm
    rw [hm]
    exact ⟨rfl, hr, hd, hI, rfl⟩
  · intro m hm
    rw [hm]

/-- A message that is to stay open; one of the same name makes way for it, and ends. -/
theorem Discreet.begun_hold (hp : Discreet p I) (hr : s.condition = .running)
    (hd : Manned p s.world d) (hI : I s.world) (id : String) (sev : Severity) (k : Component)
    (parts : List Part) :
    ∃ us, Remainder p us (d.perform p.id (.hold id sev k parts)).2 ∧
      Begun p I (s.begin (.hold id p.name sev k parts))
        (d.perform p.id (.hold id sev k parts)).1 (us ++ s.agenda) := by
  refine ⟨((d.held.get? id).map Task.drop).toList ++
    [.respond (.message (d.draft p.id sev k parts))], ?_, ?_⟩
  · cases hm : d.held.get? id with
    | none =>
      simp only [Desk.perform, hm]
      exact .respond _
    | some m =>
      have hown : m.context = p.id := hd.own m (Table.mem_values_of_get? hm)
      simpa [Desk.perform, hm] using Remainder.drop hown _
  · show Begun p I (s.making (s.world.lookUp p.name) sev k parts fun s m =>
      (s.withWorld (s.world.hold id m)).push
        (((s.world.held.get? id).map Task.drop).toList ++ [.respond (.message m)])) _ _
    rw [making_of_manned hd]
    refine ⟨?_, hr, hd.count.hold (d.context_draft ..), hp.messages s.world _ _ hI,
      deliveries_made _ _⟩
    rw [← hd.held]
    rfl

theorem Discreet.begun_onGate (hp : Discreet p I) (hr : s.condition = .running)
    (hd : Manned p s.world d) (hI : I s.world) {o : ContextOp}
    (ho : o = .name → World.nameOps p.backend.kind = []) :
    Begun p I (s.begin (.onContext p.name o)) { d with gate := o.retune d.gate } s.agenda := by
  have hworld : Manned p (s.world.applyContext p.id o).1 { d with gate := o.retune d.gate } ∧
      I (s.world.applyContext p.id o).1 := by
    rcases s.world.applyContext_cases p.id o with ⟨hw, ho⟩ | ⟨-, hw⟩
    · rw [hw, ho]
      exact ⟨hd, hI⟩
    · rw [hw]
      exact ⟨hd.configure _, hp.gate _ _ hI⟩
  rw [onContext_of_manned hd ho]
  exact ⟨rfl, hr, hworld.1, hworld.2, rfl⟩

/-- An operation begins with what the command does to the desk. -/
theorem Discreet.begun (hp : Discreet p I) {o : Command}
    (ho : o = .onGate .name → World.nameOps p.backend.kind = []) (hr : s.condition = .running)
    (hd : Manned p s.world d) (hI : I s.world) :
    ∃ us, Remainder p us (d.perform p.id o).2 ∧
      Begun p I (s.begin (o.op p.name)) (d.perform p.id o).1 (us ++ s.agenda) := by
  cases o with
  | log sev k parts =>
    exact hp.begun_statement hr hd hI sev k parts (fun m => .statement m.worth m.text) rfl
  | logLabelled sev k label n =>
    exact hp.begun_statement hr hd hI sev k [.labelled label n]
      (fun m => .evaluated (m.rendered [.labelled label n]).length) rfl
  | hold id sev k parts => exact hp.begun_hold hr hd hI id sev k parts
  | add id parts =>
    obtain ⟨hnone, hsome⟩ := begun_held (I := I) hr hd hI ((Command.add id parts).op p.name) id rfl
    cases hm : d.held.get? id with
    | none =>
      simp only [Desk.perform, hm]
      exact ⟨[], .none, hnone hm⟩
    | some m =>
      have hcontext : (m.appendAll parts).context = p.id := by
        rw [Message.appendAll_eq]
        exact hd.own m (Table.mem_values_of_get? hm)
      simp only [Desk.perform, hm]
      rw [hsome m hm]
      exact ⟨[], .none, rfl, hr, hd.hold hcontext, hp.messages _ _ _ hI,
        deliveries_of_silent (additions_silent m parts)⟩
  | write id =>
    obtain ⟨hnone, hsome⟩ := begun_held (I := I) hr hd hI ((Command.write id).op p.name) id rfl
    cases hm : d.held.get? id with
    | none =>
      simp only [Desk.perform, hm]
      exact ⟨[], .none, hnone hm⟩
    | some m =>
      simp only [Desk.perform, hm]
      rw [hsome m hm, hd.lookUp]
      exact ⟨_, .write m .nothing, rfl, hr, hd, hI, rfl⟩
  | finish id =>
    obtain ⟨hnone, hsome⟩ := begun_held (I := I) hr hd hI ((Command.finish id).op p.name) id rfl
    cases hm : d.held.get? id with
    | none =>
      simp only [Desk.perform, hm]
      exact ⟨[], .none, hnone hm⟩
    | some m =>
      have hown : m.context = p.id := hd.own m (Table.mem_values_of_get? hm)
      simp only [Desk.perform, hm]
      rw [hsome m hm]
      exact ⟨_, .drop hown .nothing, rfl, hr, hd.erase id, hp.messages _ _ _ hI, rfl⟩
  | onGate o => exact ⟨[], .none, hp.begun_onGate hr hd hI fun h => ho (congrArg _ h)⟩
  | flush =>
    refine ⟨_, .flush .nothing, ?_⟩
    show Begun p I (s.push [.flush (s.world.lookUp p.name), .respond .nothing]).quietly _ _
    rw [hd.lookUp]
    exact ⟨rfl, hr, hd, hI, rfl⟩

/-- A command, from its beginning to its report. -/
theorem Discreet.served_command (hp : Discreet p I) {o : Command}
    (ho : o = .onGate .name → World.nameOps p.backend.kind = []) (hs : Disciplined s)
    (hr : s.condition = .running) (ha : s.agenda = .begin (o.op p.name) :: .report :: ts)
    (hd : Manned p s.world d) (hI : I s.world) :
    ∃ n, Served p I s (d.perform p.id o).1 ts (d.perform p.id o).2 n := by
  obtain ⟨us, hrest, hbegun⟩ := hp.begun (s := { s with agenda := .report :: ts }) ho hr hd hI
  have hrun : run 1 s = ({ s with agenda := .report :: ts } : State).begin (o.op p.name) := by
    rw [run_succ, run_zero, step_of_running hr ha, List.append_nil]
    rfl
  rw [← hrun] at hbegun
  obtain ⟨n, hn⟩ :=
    hrest.served hp (hs.after 1) hbegun.condition hbegun.agenda hbegun.manned hbegun.stays
  exact ⟨1 + n, hn.after_quiet hbegun.quiet⟩

/-- The commands of a program that go on to others. -/
theorem Discreet.served_commands (hp : Discreet p I) (os rest : List Command)
    (hos : .onGate .name ∈ os → World.nameOps p.backend.kind = []) (hs : Disciplined s)
    (hr : s.condition = .running)
    (ha : s.agenda = .program ((os ++ rest).map (Command.op p.name)) :: ts)
    (hd : Manned p s.world d) (hI : I s.world) :
    ∃ n ms e, Served p I s e (.program (rest.map (Command.op p.name)) :: ts) ms n ∧
      d.Serves p.id os ms e := by
  induction os generalizing s d with
  | nil =>
    exact ⟨0, [], d, ⟨ha, hr, hd.recount, hI, rfl⟩, .nil d⟩
  | cons o os ih =>
    have ha : s.agenda = .program (o.op p.name :: (os ++ rest).map (Command.op p.name)) :: ts := ha
    have hrun : run 1 s = ({ s with
        agenda := .begin (o.op p.name) :: .report ::
          .program ((os ++ rest).map (Command.op p.name)) :: ts }, []) := by
      rw [run_succ, run_zero, step_of_running hr ha]
      rfl
    have hbegins := hs.after 1
    rw [hrun] at hbegins
    have ho : o = .onGate .name → World.nameOps p.backend.kind = [] := fun h =>
      hos (h ▸ List.mem_cons_self ..)
    obtain ⟨k, hk⟩ := hp.served_command ho hbegins hr rfl hd hI
    obtain ⟨n, ms, e, hn, hserves⟩ := ih (fun h => hos (List.mem_cons_of_mem _ h))
      (hbegins.after k) hk.condition hk.agenda hk.manned hk.stays
    refine ⟨1 + (k + n), (d.perform p.id o).2 ++ ms, e, ?_, .cons _ hserves⟩
    refine Served.after_quiet ?_ ?_ <;> rw [hrun]
    · exact hn.after hk.delivered
    · rfl

end State

end GatedLog
