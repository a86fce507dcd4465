import GatedLog.Proofs.Machine.Desk

/-!
# Backends agree

A triple `Carries p ts d ms d'` says that the tasks `ts`, with the desk `d` in front of them, are
carried out, hand over the messages `ms` and leave the desk `d'`. There is a rule for every task
that a command comes to, and by these rules the machine does with a program of commands what they do
to the desk (`carries_program`). As the desk knows no backend, all backends of the library are
handed the same messages, and put out the same statements (`backends_agree`).
-/

namespace GatedLog

namespace State

variable {p : Post} {d d₁ d₂ : Desk} {s : State} {t : Task} {ts us vs : List Task}
  {ms ns : List Message}

/-- With the desk `d` the tasks `us` are carried out, hand over the messages `ms` and leave the desk
`d'`. -/
def Carries (p : Post) (us : List Task) (d : Desk) (ms : List Message) (d' : Desk) : Prop :=
  ∀ (s : State) (ts : List Task), s.agenda = us ++ ts → s.condition = .running →
    Staffed p s.world d → ∃ n, (run n s).1.agenda = ts ∧ (run n s).1.condition = .running ∧
      Staffed p (run n s).1.world d' ∧ Handed p s.world (run n s).1.world (run n s).2 ms

theorem Carries.nil : Carries p [] d [] d := fun s _ ha hr hd =>
  ⟨0, ha, hr, hd, .refl s.world⟩

/-- The open messages of a desk are those of the context. -/
theorem Carries.of_own (h : (∀ m ∈ d.held.values, m.context = p.id) → Carries p us d ms d₁) :
    Carries p us d ms d₁ := fun s ts ha hr hd => h hd.own s ts ha hr hd

theorem Carries.append (h : Carries p us d ms d₁) (h' : Carries p vs d₁ ns d₂) :
    Carries p (us ++ vs) d (ms ++ ns) d₂ := by
  intro s ts ha hr hd
  obtain ⟨m, ha₁, hr₁, hd₁, hh₁⟩ := h s (vs ++ ts) (by rw [ha, List.append_assoc]) hr hd
  obtain ⟨n, ha₂, hr₂, hd₂, hh₂⟩ := h' _ ts ha₁ hr₁ hd₁
  refine ⟨m + n, ?_⟩
  rw [run_add]
  exact ⟨ha₂, hr₂, hd₂, hh₁.trans hh₂⟩

/-- A step that hands nothing over and replaces a task by others. -/
structure Turns (p : Post) (s : State) (o : Outcome) (d : Desk) (agenda : List Task) : Prop where
  agenda : o.1.agenda = agenda
  condition : o.1.condition = .running
  staffed : Staffed p o.1.world d
  handed : Handed p s.world o.1.world o.2 []

theorem Carries.turn (h : ∀ s : State, s.condition = .running → Staffed p s.world d →
    Turns p s (s.perform t) d₁ (us ++ s.agenda)) (h' : Carries p us d₁ ms d₂) :
    Carries p [t] d ms d₂ := by
  intro s ts ha hr hd
  have ha : s.agenda = t :: ts := ha
  have hturn := h { s with agenda := ts } hr hd
  obtain ⟨n, ha₂, hr₂, hd₂, hh₂⟩ := h' _ ts hturn.agenda hturn.condition hturn.staffed
  refine ⟨n + 1, ?_⟩
  rw [run_succ, step_of_running hr ha]
  exact ⟨ha₂, hr₂, hd₂, hturn.handed.trans hh₂⟩

theorem Carries.done (h : ∀ s : State, s.condition = .running → Staffed p s.world d →
    Turns p s (s.perform t) d₁ s.agenda) : Carries p [t] d [] d₁ := by
  have h : ∀ s : State, s.condition = .running → Staffed p s.world d →
      Turns p s (s.perform t) d₁ ([] ++ s.agenda) := h
  exact .turn h .nil

/-! ### Tasks that run the backend -/

/-- A backend for which nothing is left to run is left. -/
theorem run_left {c : ContextId} {counted : Bool}
    (ha : s.agenda = .script [] :: .leave c counted :: ts) (hr : s.condition = .running) :
    run 2 s = ({ s with agenda := ts, world := s.world.leave c counted }, []) := by
  obtain ⟨w, agenda, a, condition⟩ := s
  obtain rfl : agenda = _ := ha
  obtain rfl : condition = .running := hr
  rfl

/-- A step that enters the backend and hands over messages, for which nothing is left to run. -/
structure Enters (p : Post) (s : State) (o : Outcome) (d : Desk) (ms : List Message) : Prop where
  agenda : o.1.agenda = .script [] :: .leave p.id s.world.thread.tracking :: s.agenda
  condition : o.1.condition = .running
  staffed : Staffed p (o.1.world.leave p.id s.world.thread.tracking) d
  handed : Handed p s.world (o.1.world.leave p.id s.world.thread.tracking) o.2 ms

theorem Carries.entry (h : ∀ s : State, s.condition = .running → Staffed p s.world d →
    Enters p s (s.perform t) d₁ ms) : Carries p [t] d ms d₁ := by
  intro s ts ha hr hd
  have ha : s.agenda = t :: ts := ha
  have henters := h { s with agenda := ts } hr hd
  refine ⟨3, ?_⟩
  rw [run_succ, step_of_running hr ha]
  show (run 2 _).1.agenda = ts ∧ _
  rw [run_left henters.agenda henters.condition]
  refine ⟨rfl, henters.condition, henters.staffed, ?_⟩
  rw [List.append_nil]
  exact henters.handed

/-- The backend reacts, and what it has left behind in the end is as good as before. -/
theorem running_enters {w : World} {first : Happening} {r : Reaction}
    (hr : s.condition = .running) (hops : r.ops = [])
    (hleave : r.world.leave p.id s.world.thread.tracking = w) (hd : Staffed p w d)
    (hh : Handed p s.world w (first :: r.happenings) ms) :
    Enters p s (s.running p.id first r) d ms := by
  subst hleave
  refine ⟨?_, hr, hd, hh⟩
  rw [State.running, hops]
  rfl

theorem write_enters (hr : s.condition = .running) (hd : Staffed p s.world d) (m : Message) :
    Enters p s (s.write p.id m) d [m] := by
  obtain ⟨hhappenings, hops⟩ := s.world.receive_enter p.id m p.backend.kind
  have hl := World.not_locked_of_granted hd.granted
  have hwrite : s.write p.id m = s.running p.id (.delivered p.id p.backend m)
      ((s.world.enter p.id).receive m p.backend.kind) := by
    simp only [State.write, accessing, hd.granted, hd.installed, register_running]
  rw [hwrite]
  refine running_enters hr ?_ (World.leave_receive_enter hl m) (hd.receive m) ?_
  · rw [hops]
    exact (World.ready_receive hd.ready m).2
  · rw [hhappenings]
    exact .receive hd.ready m

theorem carries_write (p : Post) (d : Desk) (m : Message) : Carries p [.write p.id m] d [m] d :=
  .entry fun _ hr hd => write_enters hr hd m

theorem carries_drop {m : Message} (hm : m.context = p.id) :
    Carries p [.drop m] d (Desk.ended m) d := by
  have dropped : ∀ w : World, Handed p w w [.dropped m] [] := fun w =>
    .of_silent rfl rfl rfl rfl (List.forall_mem_singleton.mpr rfl)
  cases hw : m.worth with
  | false =>
    have hended : Desk.ended m = [] := by simp [Desk.ended, hw]
    rw [hended]
    refine .done fun s hr hd => ?_
    simp only [perform, State.drop, hw]
    exact ⟨rfl, hr, hd, dropped _⟩
  | true =>
    have hended : Desk.ended m = [m] := by simp [Desk.ended, hw]
    rw [hended]
    refine .entry fun s hr hd => ?_
    have h := write_enters hr hd m
    simp only [perform, State.drop, hw, hm]
    exact ⟨h.agenda, h.condition, h.staffed, (dropped _).trans h.handed⟩

theorem carries_flush (p : Post) (d : Desk) : Carries p [.flush p.id] d [] d := by
  refine .entry fun s hr hd => ?_
  obtain ⟨hworld, hops, hsilent⟩ := World.flushed_of_ready hd.ready (s.world.enter p.id)
  have hflush : s.perform (.flush p.id) = s.running p.id (.flushed p.id p.backend)
      ((s.world.enter p.id).flushed p.backend.kind) := by
    simp only [perform, State.flush, accessing, hd.granted, hd.installed, register_running]
  rw [hflush]
  refine running_enters hr hops ?_ hd
    (.of_silent rfl rfl rfl rfl (List.forall_mem_cons.mpr ⟨rfl, hsilent⟩))
  rw [hworld]
  exact World.leave_enter (World.not_locked_of_granted hd.granted)

theorem carries_respond (p : Post) (d : Desk) (a : Answer) : Carries p [.respond a] d [] d :=
  .done fun _ hr hd => ⟨rfl, hr, hd, .refl _⟩

theorem Carries.answered (h : Carries p us d ms d₁) (a : Answer) :
    Carries p (us ++ [.respond a]) d ms d₁ := by
  have hrespond := h.append (carries_respond p d₁ a)
  rwa [List.append_nil] at hrespond

theorem carries_report (p : Post) (d : Desk) : Carries p [.report] d [] d :=
  .done fun _ hr hd =>
    ⟨rfl, hr, hd, .of_silent rfl rfl rfl rfl (List.forall_mem_singleton.mpr rfl)⟩

/-! ### Operations -/

theorem additions_silent (m : Message) (parts : List Part) :
    ∀ e ∈ additions m parts, e.isSilent = true := by
  intro e he
  rcases mem_additions he with rfl | ⟨p, rfl⟩ <;> rfl

/-- A message is made by the gate of the desk. -/
theorem making_of_manned (hd : Manned p s.world d) (sev : Severity) (k : Component)
    (parts : List Part) (next : State → Message → State) :
    s.making (s.world.lookUp p.name) sev k parts next =
      ((next (s.withWorld s.world.countMessage) (d.draft p.id sev k parts)).register,
        .made (s.world.newMessage p.id sev k) ::
          additions (s.world.newMessage p.id sev k) parts) := by
  have hdraft : (s.world.newMessage p.id sev k).appendAll parts = d.draft p.id sev k parts := by
    rw [World.newMessage, World.shouldLog, World.visible, if_pos hd.granted, hd.installed,
      hd.messages]
    rfl
  rw [hd.lookUp, making, hdraft]
  simp only [accessing, hd.granted]

/-- A step that makes a message, by the gate of the desk. -/
theorem making_turns (hd : Staffed p s.world d) (sev : Severity)
    (k : Component) (parts : List Part) {next : State → Message → State} {agenda : List Task}
    (h : ∀ u : State, u = s.withWorld s.world.countMessage → Turns p u
      (next u (d.draft p.id sev k parts), []) d₁ agenda) :
    Turns p s (s.making (s.world.lookUp p.name) sev k parts next) d₁ agenda := by
  have hnext := h _ rfl
  have hmade : Handed p s.world s.world.countMessage
      (.made (s.world.newMessage p.id sev k) ::
        additions (s.world.newMessage p.id sev k) parts) [] :=
    .of_silent rfl rfl rfl rfl (List.forall_mem_cons.mpr ⟨rfl, additions_silent _ _⟩)
  rw [making_of_manned hd.manned]
  refine ⟨hnext.agenda, hnext.condition, hnext.staffed, ?_⟩
  have := hmade.trans hnext.handed
  rwa [List.append_nil] at this

/-- A statement that ends as soon as it has been made. -/
theorem carries_statement {o : Op} (sev : Severity) (k : Component) (parts : List Part)
    (answer : Message → Answer)
    (ho : ∀ s : State, s.begin o = s.making (s.world.lookUp p.name) sev k parts fun s m =>
      s.push [.drop m, .respond (answer m)]) :
    Carries p [.begin o] d (Desk.ended (d.draft p.id sev k parts))
      { d with messages := d.messages + 1 } := by
  refine .turn (fun s hr hd => ?_)
    ((carries_drop (d.context_draft p.id sev k parts)).answered (answer (d.draft p.id sev k parts)))
  show Turns p s (s.begin o) _ _
  rw [ho]
  refine making_turns hd sev k parts ?_
  rintro u rfl
  exact ⟨rfl, hr, hd.count, .refl _⟩

/-- The end of what was held under a name, if anything was. -/
theorem carries_drops {old : Option Message} (hold : ∀ m ∈ old, m.context = p.id) :
    Carries p (old.map Task.drop).toList d (old.toList.flatMap Desk.ended) d := by
  cases old with
  | none => exact .nil
  | some m =>
    have hdrop := carries_drop (d := d) (hold m rfl)
    simpa using hdrop

/-- A message that stays open, in the place of one that ends. -/
theorem carries_hold (p : Post) (d : Desk) (id : String) (sev : Severity) (k : Component)
    (parts : List Part) : Carries p [.begin (.hold id p.name sev k parts)] d
      (d.perform p.id (.hold id sev k parts)).2 (d.perform p.id (.hold id sev k parts)).1 := by
  refine .of_own fun hown => ?_
  have hold : ∀ m ∈ d.held.get? id, m.context = p.id := fun m hm =>
    hown m (Table.mem_values_of_get? hm)
  refine .turn (fun s hr hd => ?_)
    ((carries_drops hold).answered (.message (d.draft p.id sev k parts)))
  show Turns p s (s.making (s.world.lookUp p.name) sev k parts fun s m =>
    (s.withWorld (s.world.hold id m)).push
      (((s.world.held.get? id).map Task.drop).toList ++ [.respond (.message m)])) _ _
  refine making_turns hd sev k parts ?_
  rintro u rfl
  refine ⟨?_, hr, hd.count.hold (d.context_draft ..), .quiet rfl rfl rfl rfl⟩
  rw [← hd.held]
  rfl

/-- A name that no message is held under. -/
theorem carries_unheld {o : Op} {id : String} {next : State → Message → Outcome}
    (ho : ∀ s : State, s.begin o = s.withHeld id (next s)) (hm : d.held.get? id = none) :
    Carries p [.begin o] d [] d := by
  refine .done fun s hr hd => ?_
  have hbegin : s.perform (.begin o) = (s.respond .nothing).quietly := by
    rw [perform, ho, withHeld, hd.held, hm]
  rw [hbegin]
  exact ⟨rfl, hr, hd, .refl _⟩

/-- A name that a message is held under. -/
theorem carries_held {o : Op} {id : String} {next : State → Message → Outcome} {m : Message}
    (ho : ∀ s : State, s.begin o = s.withHeld id (next s)) (hm : d.held.get? id = some m)
    (h : ∀ s : State, s.condition = .running → Staffed p s.world d →
      Turns p s (next s m) d₁ (us ++ s.agenda)) (h' : Carries p us d₁ ms d₂) :
    Carries p [.begin o] d ms d₂ := by
  refine .turn (fun s hr hd => ?_) h'
  have hbegin : s.perform (.begin o) = next s m := by
    rw [perform, ho, withHeld, hd.held, hm]
  rw [hbegin]
  exact h s hr hd

theorem onContext_of_manned (hd : Manned p s.world d) {o : ContextOp}
    (ho : o = .name → World.nameOps p.backend.kind = []) :
    s.begin (.onContext p.name o) =
      ((s.withWorld (s.world.applyContext p.id o).1).respond
        (s.world.applyContext p.id o).2).register.quietly := by
  rw [State.begin, onContext, hd.lookUp]
  simp only [accessing, hd.granted, id, World.asked_of_installed hd.installed ho]
  rfl

theorem nameOps_of_ready {w : World} {k : BackendKind} (h : w.Ready k) : World.nameOps k = [] := by
  cases k <;> first | rfl | exact h.elim

theorem carries_onContext (p : Post) (d : Desk) (o : ContextOp) :
    Carries p [.begin (.onContext p.name o)] d [] { d with gate := o.retune d.gate } := by
  refine .done fun s hr hd => ?_
  have hworld : Staffed p (s.world.applyContext p.id o).1 { d with gate := o.retune d.gate } ∧
      Handed p s.world (s.world.applyContext p.id o).1 [] [] := by
    rcases s.world.applyContext_cases p.id o with ⟨hw, ho⟩ | ⟨-, hw⟩
    · rw [hw, ho]
      exact ⟨hd, .refl _⟩
    · rw [hw]
      exact ⟨hd.configure _, .configure ..⟩
  rw [perform, onContext_of_manned hd.manned fun _ => nameOps_of_ready hd.ready]
  exact ⟨rfl, hr, hworld.1, hworld.2⟩

theorem carries_add (p : Post) (d : Desk) (id : String) (parts : List Part) :
    Carries p [.begin (.add id parts)] d (d.perform p.id (.add id parts)).2
      (d.perform p.id (.add id parts)).1 := by
  have ho : ∀ s : State, s.begin (.add id parts) = s.withHeld id (s.adding id parts) :=
    fun s => rfl
  cases hm : d.held.get? id with
  | none =>
    simp only [Desk.perform, hm]
    exact carries_unheld ho hm
  | some m =>
    refine .of_own fun hown => ?_
    have hcontext : (m.appendAll parts).context = p.id := by
      rw [Message.appendAll_eq]
      exact hown m (Table.mem_values_of_get? hm)
    have hturn : ∀ s : State, s.condition = .running → Staffed p s.world d →
        Turns p s (s.adding id parts m) { d with held := d.held.put id (m.appendAll parts) }
          ([] ++ s.agenda) := fun s hr hd =>
      ⟨rfl, hr, hd.hold hcontext, .of_silent rfl rfl rfl rfl (additions_silent m parts)⟩
    simp only [Desk.perform, hm]
    exact carries_held ho hm hturn .nil

/-- A message that is handed to the context stays open. -/
theorem carries_hand (p : Post) (d : Desk) (id : String) :
    Carries p [.begin (.write p.name id)] d (d.perform p.id (.write id)).2
      (d.perform p.id (.write id)).1 := by
  have ho : ∀ s : State, s.begin (.write p.name id) = s.withHeld id fun m =>
    (s.push [.write (s.world.lookUp p.name) m, .respond .nothing]).quietly := fun s => rfl
  cases hm : d.held.get? id with
  | none =>
    simp only [Desk.perform, hm]
    exact carries_unheld ho hm
  | some m =>
    simp only [Desk.perform, hm]
    refine carries_held ho hm (fun s hr hd => ⟨?_, hr, hd, .refl _⟩)
      ((carries_write p d m).answered .nothing)
    rw [← hd.lookUp]
    rfl

theorem carries_finish (p : Post) (d : Desk) (id : String) :
    Carries p [.begin (.finish id)] d (d.perform p.id (.finish id)).2
      (d.perform p.id (.finish id)).1 := by
  have ho : ∀ s : State, s.begin (.finish id) = s.withHeld id fun m =>
    ((s.withWorld { s.world with held := s.world.held.erase id }).push
      [.drop m, .respond .nothing]).quietly := fun s => rfl
  cases hm : d.held.get? id with
  | none =>
    simp only [Desk.perform, hm]
    exact carries_unheld ho hm
  | some m =>
    refine .of_own fun hown => ?_
    have hcontext : m.context = p.id := hown m (Table.mem_values_of_get? hm)
    simp only [Desk.perform, hm]
    exact carries_held ho hm (fun s hr hd => ⟨rfl, hr, hd.erase id, .quiet rfl rfl rfl rfl⟩)
      ((carries_drop hcontext).answered .nothing)

/-- The machine does with a command what the command does to the desk. -/
theorem carries_begin (p : Post) (d : Desk) (o : Command) :
    Carries p [.begin (o.op p.name)] d (d.perform p.id o).2 (d.perform p.id o).1 := by
  cases o with
  | log sev k parts =>
    exact carries_statement sev k parts (fun m => .statement m.worth m.text) fun s => rfl
  | logLabelled sev k label n =>
    exact carries_statement sev k [.labelled label n]
      (fun m => .evaluated (m.rendered [.labelled label n]).length) fun s => rfl
  | hold id sev k parts => exact carries_hold p d id sev k parts
  | add id parts => exact carries_add p d id parts
  | write id => exact carries_hand p d id
  | finish id => exact carries_finish p d id
  | onGate o => exact carries_onContext p d o
  | flush =>
    refine .turn (fun s hr hd => ⟨?_, hr, hd, .refl _⟩) ((carries_flush p d).answered .nothing)
    rw [← hd.lookUp]
    rfl

/-- A program of commands does what they do to the desk. -/
theorem carries_program (p : Post) (d : Desk) (os : List Command) :
    Carries p [.program (os.map (Command.op p.name))] d (d.serve p.id os).2
      (d.serve p.id os).1 := by
  induction os generalizing d with
  | nil => exact .done fun s hr hd => ⟨rfl, hr, hd, .refl _⟩
  | cons o os ih =>
    have hreport := (carries_begin p d o).append (carries_report p (d.perform p.id o).1)
    have hall := hreport.append (ih (d.perform p.id o).1)
    rw [List.append_nil] at hall
    exact .turn (fun s hr hd => ⟨rfl, hr, hd, .refl _⟩) hall

end State

/-! ### Agreement -/

/-- The backend is one of the library; a forwarding one has a callback. -/
def BackendSpec.isProvided : BackendSpec → Bool
  | .forwarding hook => hook.isSome
  | .custom _ _ _ _ _ => false
  | _ => true

/-- A context to log to: nothing keeps the thread from it, and the open messages are its own. -/
structure Site where
  world : World
  name : ContextName
  known : world.lookUp name < world.contexts.length
  granted : world.access (world.lookUp name) = .granted
  own : ∀ m ∈ world.held.values, m.context = world.lookUp name

namespace Site

instance : Inhabited Site where
  default :=
    { world := .initial .epoch
      name := .global
      known := by decide
      granted := by decide
      own := fun _ h => absurd h List.not_mem_nil }

variable (x : Site) (g : Gate)

/-- The context itself. -/
def id : ContextId := x.world.lookUp x.name

/-- The context gets a backend behind a gate. -/
def fit (b : Backend) : World := x.world.replace x.id (some ⟨g, b⟩)

/-- What commands depend on. -/
def desk : Desk := ⟨g, x.world.held, x.world.messages⟩

/-- The messages that commands hand over. -/
def messages (os : List Command) : List Message := ((x.desk g).serve x.id os).2

/-- The state in front of commands and of what comes after them. -/
def before (b : Backend) (os : List Command) (ts : List Task) : State :=
  { world := x.fit g b, agenda := .program (os.map (Command.op x.name)) :: ts }

theorem staffed {b : Backend} (hb : x.world.Ready b.kind) :
    Staffed ⟨x.name, x.id, b⟩ (x.fit g b) (x.desk g) where
  lookUp := rfl
  granted := by
    have hlocked : ((x.fit g b).context x.id).locked = (x.world.context x.id).locked :=
      World.locked_modifyContext _ _ _ fun _ => rfl
    have haccess : (x.fit g b).access x.id = x.world.access x.id :=
      World.access_congr (w := x.world) rfl hlocked
    exact haccess.trans x.granted
  installed := by
    have hcontext : (x.fit g b).context x.id =
        { x.world.context x.id with installed := some ⟨g, b⟩ } := by
      rw [fit, World.replace, World.context_modifyContext, if_pos ⟨rfl, x.known⟩]
    rw [World.installed, hcontext]
    rfl
  ready := hb
  held := rfl
  messages := rfl
  own := x.own

end Site

namespace State

/-- The commands have been carried out: the messages were handed to the backend, in their order, and
this is what has been put out since. -/
structure Completed (x : Site) (b : Backend) (ts : List Task) (ms : List Message) (out : Output)
    (o : Outcome) : Prop where
  agenda : o.1.agenda = ts
  condition : o.1.condition = .running
  delivered : deliveries o.2 = ms.map fun m => (x.id, b, m)
  output : o.1.world.output o.2 = x.world.output [] ++ out

/-- All backends of the library do the same with commands. -/
structure Agreement (x : Site) (g : Gate) (os : List Command) (ts : List Task) : Prop where
  /-- The messages are the same for every backend, and those worth reporting are put out. -/
  completed : ∀ b : Backend, x.world.Ready b.kind → ∃ n, Completed x b ts (x.messages g os)
    (b.kind.output x.world ((x.messages g os).filter (·.worth))) (run n (x.before g b os ts))
  /-- Where a console shows no headings, a line is four spaces, the text and a newline. -/
  bare : ∀ serial layout buffer, layout.isBare = true → x.world.Ready (.console layout buffer) →
    ∃ n, Completed x ⟨serial, .console layout buffer⟩ ts (x.messages g os)
      (.printed buffer (((x.messages g os).filter (·.worth)).map fun m => "    " ++ m.text ++ "\n"))
      (run n (x.before g ⟨serial, .console layout buffer⟩ os ts))

/-- **Backends agree**, on all commands and wherever there is a context for them. -/
theorem backends_agree (x : Site) (g : Gate) (os : List Command) (ts : List Task) :
    Agreement x g os ts := by
  have hall : ∀ b : Backend, x.world.Ready b.kind → ∃ n, Completed x b ts (x.messages g os)
      (b.kind.output x.world ((x.messages g os).filter (·.worth)))
      (run n (x.before g b os ts)) := by
    intro b hb
    obtain ⟨n, ha, hr, -, hh⟩ := carries_program ⟨x.name, x.id, b⟩ (x.desk g) os
      (x.before g b os ts) ts rfl rfl (x.staffed g hb)
    refine ⟨n, ha, hr, hh.delivered, hh.output.trans ?_⟩
    exact congrArg _ (BackendKind.output_congr rfl rfl b.kind _)
  refine ⟨hall, fun serial layout buffer hl hb => ?_⟩
  rw [← BackendKind.output_console_of_isBare hl x.world]
  exact hall ⟨serial, .console layout buffer⟩ hb

/-! ### Programs that make a context and log to it -/

variable (clock : Clock)

/-- The first backend that is made is in order, and nothing has been put out. -/
theorem make_initial {spec : BackendSpec} (hs : spec.isProvided = true) :
    ((World.initial clock).make spec).2.Ready ((World.initial clock).make spec).1.kind ∧
      ((World.initial clock).make spec).2.output [] = {} ∧
      ((World.initial clock).make spec).2.stamp = (World.initial clock).stamp ∧
      ((World.initial clock).make spec).2.colors = (World.initial clock).colors := by
  have empty : ∀ h : HandleId, (([[]] : List (List Captured))[h]?.getD []).reverse = [] :=
    fun h => by cases h <;> rfl
  cases spec with
  | memory handle storeAs =>
    cases handle <;> exact ⟨Nat.zero_lt_one, Output.ext (funext empty) rfl rfl rfl rfl, rfl, rfl⟩
  | forwarding hook =>
    cases hook with
    | none => cases hs
    | some hook => exact ⟨fun _ => rfl, rfl, rfl, rfl⟩
  | tracing => exact ⟨trivial, rfl, rfl, rfl⟩
  | console layout buffer => cases buffer <;> exact ⟨by trivial, rfl, rfl, rfl⟩
  | custom tag onWrite onFlush onDestroy onName => cases hs

theorem manned_created (spec : BackendSpec) (name : String) (g : Gate) :
    Manned ⟨.named name, 1, ((World.initial clock).make spec).1⟩
      (((World.initial clock).make spec).2.addContext name (some ⟨g, ((World.initial clock).make spec).1⟩))
      ⟨g, {}, 0⟩ := by
  have halike := World.alike_make (World.initial clock) spec
  have hcontext : (((World.initial clock).make spec).2.addContext name
      (some ⟨g, ((World.initial clock).make spec).1⟩)).context 1 =
        { installed := some ⟨g, ((World.initial clock).make spec).1⟩ } := by
    rw [World.context, World.addContext, halike.contexts]
    rfl
  refine ⟨?_, ?_, ?_, halike.held, halike.messages, fun m hm => absurd hm List.not_mem_nil⟩
  · rw [World.lookUp, World.addContext, Table.get?_put_self, halike.contexts]
    rfl
  · rw [World.access, hcontext, World.addContext, halike.thread]
    rfl
  · rw [World.installed, hcontext]

theorem staffed_created {spec : BackendSpec} (hs : spec.isProvided = true) (name : String)
    (g : Gate) : Staffed ⟨.named name, 1, ((World.initial clock).make spec).1⟩
      (((World.initial clock).make spec).2.addContext name (some ⟨g, ((World.initial clock).make spec).1⟩))
      ⟨g, {}, 0⟩ :=
  (manned_created clock spec name g).staffed (make_initial clock hs).1

/-- A program makes a context around a backend of the library, whichever it is, and goes on with
commands on it. -/
theorem created_agree {spec : BackendSpec} (hs : spec.isProvided = true) (name : String) (g : Gate)
    (os : List Command) : ∃ n,
      let o := run n (start ⟨.create name (some spec) g :: os.map (Command.op (.named name)), clock⟩)
      let ms := (Desk.serve ⟨g, {}, 0⟩ 1 os).2
      o.1.agenda = [] ∧ o.1.condition = .running ∧
        deliveries o.2 = ms.map (fun m => (1, ((World.initial clock).make spec).1, m)) ∧
        o.1.world.output o.2 =
          ((World.initial clock).make spec).1.kind.output (World.initial clock) (ms.filter (·.worth)) := by
  obtain ⟨n, ha, hr, -, hh⟩ := carries_program ⟨.named name, 1, ((World.initial clock).make spec).1⟩
    ⟨g, {}, 0⟩ os ⟨_, [.program _], .nothing, .running, []⟩ [] rfl rfl (staffed_created clock hs name g)
  have hstart : run 3 (start ⟨.create name (some spec) g :: os.map (Command.op (.named name)), clock⟩) =
      (⟨((World.initial clock).make spec).2.addContext name (some ⟨g, ((World.initial clock).make spec).1⟩),
        [.program (os.map (Command.op (.named name)))], .nothing, .running, []⟩,
        [.answered .nothing]) := rfl
  refine ⟨3 + n, ?_⟩
  rw [run_add, hstart]
  obtain ⟨-, hempty, hstamp, hcolors⟩ := make_initial clock hs
  refine ⟨ha, hr, hh.delivered, hh.output.trans ?_⟩
  show ((World.initial clock).make spec).2.output [] ++
    ((World.initial clock).make spec).1.kind.output _ _ = _
  rw [hempty, Output.empty_append]
  exact BackendKind.output_congr hstamp hcolors _ _

-- the callback sees what stands in front of the NUL
example : (run 12 (start { ops := [.create "c" (some (.forwarding (some .firstListener))) {},
    .log (.named "c") .info .rpc [.text "a\x00b"]] })).2.filterMap Happening.call? =
      [(.firstListener, { text := some [97], level := 2, component := 2 })] := by decide

end State

end GatedLog
