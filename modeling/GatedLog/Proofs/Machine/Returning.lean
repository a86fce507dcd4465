import GatedLog.Proofs.Machine.Discretion

/-!
# Backends that return

Two kinds of discreet backends: those that run no operations of their own, as
all backends of the library but a calling callback (`discreet_of_isIdle`), and those that log, flush
and change gates through their own context, where everything is refused, and may panic in the end
(`discreet_of_isAside`). What they do is done in passing (`Passes`): the open messages and the names
of the contexts stay as they are, and the backend comes to its end.
-/

namespace GatedLog

/-- Whether the command leaves the open messages alone. -/
def Command.isAside : Command → Bool
  | hold _ _ _ _ => false
  | add _ _ => false
  | finish _ => false
  | _ => true

/-- The backend runs no operations when it is written to, flushed or asked for its name. -/
def BackendKind.IsIdle (w : World) : BackendKind → Prop
  | .custom _ onWrite onFlush _ onName => onWrite = [] ∧ onFlush = [] ∧ onName = []
  | .forwarding (some .caller) => w.callerScript = []
  | _ => True

theorem BackendKind.isIdle_congr {w v : World} (h : v.callerScript = w.callerScript)
    (k : BackendKind) : k.IsIdle v ↔ k.IsIdle w := by
  unfold IsIdle
  rw [h]

theorem World.lookUp_congr {w v : World} (h : v.names = w.names) (name : ContextName) :
    v.lookUp name = w.lookUp name := by
  cases name with
  | global => rfl
  | named name => rw [lookUp, h, lookUp]

theorem BackendKind.IsIdle.nameOps_eq {w : World} {k : BackendKind} (hk : k.IsIdle w) :
    World.nameOps k = [] := by
  cases k with
  | custom tag onWrite onFlush onDestroy onName => exact hk.2.2
  | _ => rfl

theorem World.ops_of_isIdle {w : World} {k : BackendKind} (hk : k.IsIdle w) (m : Message) :
    (w.receive m k).ops = [] ∧ (w.flushed k).ops = [] := by
  cases hw : m.worth <;> cases k with
  | custom tag onWrite onFlush onDestroy onName => exact ⟨hk.1, hk.2.1⟩
  | forwarding hook =>
    cases hook with
    | none => simp [receive, record, flushed, hw]
    | some hook =>
      cases hook <;> simp [receive, record, call, flushed, hw]
      try exact hk
  | console layout buffer => cases buffer <;> simp [receive, record, print, flushed, hw]
  | _ => simp [receive, record, flushed, hw]

namespace State

variable {p : Post} {I : World → Prop} {s : State} {a b : Condition} {ts us : List Task}
  {depth n : Nat}

/-- Where a backend begins to run its context is entered and the backend reacts. -/
theorem step_of_begins {c : ContextId} {b : Backend} {e : Happening} (he : e ∈ s.step.2)
    (hb : e.begins? = some (c, b)) : ∃ t ts r, s.agenda = t :: ts ∧ s.condition = .running ∧
      (∃ g, s.world.installed c = some ⟨g, b⟩) ∧
      ((∃ m, r = (s.world.enter c).receive m b.kind) ∨ r = (s.world.enter c).flushed b.kind) ∧
      s.step.1 = (({ s with agenda := ts } : State).register.withWorld r.world).push
        [.script r.ops, .leave c s.world.thread.tracking] := by
  obtain ⟨t, ts, ha, hmove⟩ := exists_move he
  obtain ⟨hc, ⟨g, hi⟩, ⟨first, ht⟩, -⟩ := hmove.entered_of_begins he hb
  have hc : s.world.access c = .granted := hc
  have hi : s.world.installed c = some ⟨g, b⟩ := hi
  have hr : s.condition = .running := by
    cases hcondition : s.condition with
    | running => rfl
    | unwinding text =>
      simp only [step, hcondition, ha] at he
      cases ht <;> cases he
    | blocked =>
      simp only [step, hcondition] at he
      cases he
    | aborted =>
      simp only [step, hcondition] at he
      cases he
  rw [step_of_running hr ha]
  cases ht with
  | write c m =>
    refine ⟨_, ts, _, ha, hr, ⟨g, hi⟩, .inl ⟨m, rfl⟩, ?_⟩
    simp only [perform, State.write, accessing, hc, hi, register_running]
    rfl
  | flush c =>
    refine ⟨_, ts, _, ha, hr, ⟨g, hi⟩, .inr rfl, ?_⟩
    simp only [perform, State.flush, accessing, hc, hi, register_running]
    rfl
  | drop m hm =>
    refine ⟨_, ts, _, ha, hr, ⟨g, hi⟩, .inl ⟨m, rfl⟩, ?_⟩
    simp only [perform, State.drop, State.write, accessing, hm, hc, hi, register_running]
    rfl

/-- The world may have changed, but not in the open messages, the names of the contexts and the
operations of the calling callback. -/
structure Passing (w v : World) : Prop where
  held : v.held = w.held
  names : v.names = w.names
  callerScript : v.callerScript = w.callerScript

theorem Passing.refl (w : World) : Passing w w := ⟨rfl, rfl, rfl⟩

theorem Passing.trans {w v u : World} (h : Passing w v) (h' : Passing v u) : Passing w u :=
  ⟨h'.held.trans h.held, h'.names.trans h.names, h'.callerScript.trans h.callerScript⟩

theorem passing_enter (w : World) (c : ContextId) : Passing w (w.enter c) := by
  unfold World.enter
  split <;> exact ⟨rfl, rfl, rfl⟩

theorem passing_leave (w : World) (c : ContextId) (counted : Bool) :
    Passing w (w.leave c counted) := by
  unfold World.leave
  split <;> exact ⟨rfl, rfl, rfl⟩

theorem passing_of_outward {w : World} {r : Reaction} (h : w.Outward r) : Passing w r.world := by
  obtain ⟨captures, buffers, foreign, copies, hw⟩ := h.world
  rw [hw]
  exact ⟨rfl, rfl, rfl⟩

/-- The backend of a manned context that begins to run reacts, and has its operations in front. -/
theorem exists_reaction {d : Desk} {e : Happening} {b : Backend} (hd : Manned p s.world d)
    (he : e ∈ s.step.2) (hb : e.begins? = some (p.id, b)) : ∃ t ts r, s.agenda = t :: ts ∧
      ((∃ m, r = (s.world.enter p.id).receive m p.backend.kind) ∨
        r = (s.world.enter p.id).flushed p.backend.kind) ∧
      s.step.1.agenda = .script r.ops :: .leave p.id s.world.thread.tracking :: ts ∧
      s.step.1.condition = .running ∧ Passing s.world s.step.1.world := by
  obtain ⟨t, ts, r, ha, hr, ⟨g, hi⟩, hreact, hstep⟩ := step_of_begins he hb
  obtain rfl : p.backend = b := by
    rw [hd.installed] at hi
    exact congrArg Installed.backend (Option.some.inj hi)
  have houtward : (s.world.enter p.id).Outward r := by
    rcases hreact with ⟨m, rfl⟩ | rfl
    · exact World.outward_receive _ _ _
    · exact World.outward_flushed _ _
  refine ⟨t, ts, r, ha, hreact, by rw [hstep]; rfl, by rw [hstep]; exact hr, ?_⟩
  rw [hstep]
  exact (passing_enter s.world p.id).trans (passing_of_outward houtward)

/-- In `n` steps the tasks in front of `ts` are done in passing or given up, and until then so many
tasks at least are on the agenda. -/
structure Passes (s : State) (b : Condition) (ts : List Task) (depth n : Nat) : Prop where
  agenda : (run n s).1.agenda = ts
  condition : (run n s).1.condition = b
  world : Passing s.world (run n s).1.world
  above : ∀ k < n, depth ≤ (run k s).1.agenda.length

theorem Passes.refl (ha : s.agenda = ts) (hb : s.condition = b) : Passes s b ts depth 0 :=
  ⟨ha, hb, .refl _, fun _ hk => absurd hk (Nat.not_lt_zero _)⟩

theorem Passes.cons (hw : Passing s.world s.step.1.world) (hl : depth ≤ s.agenda.length)
    (h : Passes s.step.1 b ts depth n) : Passes s b ts depth (n + 1) := by
  refine ⟨?_, ?_, ?_, fun k hk => ?_⟩
  · rw [run_succ]
    exact h.agenda
  · rw [run_succ]
    exact h.condition
  · rw [run_succ]
    exact hw.trans h.world
  · cases k with
    | zero => exact hl
    | succ k =>
      rw [run_succ]
      exact h.above k (by omega)

theorem Passes.trans {k : Nat} (h : Passes s a us depth k)
    (h' : Passes (run k s).1 b ts depth n) : Passes s b ts depth (k + n) := by
  refine ⟨?_, ?_, ?_, fun j hj => ?_⟩
  · rw [run_add]
    exact h'.agenda
  · rw [run_add]
    exact h'.condition
  · rw [run_add]
    exact h.world.trans h'.world
  · rcases Nat.lt_or_ge j k with hjk | hjk
    · exact h.above j hjk
    · obtain ⟨i, rfl⟩ := Nat.exists_eq_add_of_le hjk
      rw [run_add]
      exact h'.above i (by omega)

/-- A backend for which nothing is left to run is left. -/
theorem passes_left {c : ContextId} {counted : Bool}
    (ha : s.agenda = .script [] :: .leave c counted :: ts) (hr : s.condition = .running) :
    Passes s .running ts (ts.length + 1) 2 := by
  have hrun := run_left ha hr
  refine ⟨by rw [hrun], by rw [hrun]; exact hr, ?_, fun k hk => ?_⟩
  · rw [hrun]
    exact passing_leave s.world c counted
  · have hnext : (run 1 s).1.agenda = .leave c counted :: ts := by
      rw [run_succ, run_zero, step_of_running hr ha]
      rfl
    obtain rfl | rfl : k = 0 ∨ k = 1 := by omega
    · rw [run_zero, ha]
      exact Nat.le_succ _
    · rw [hnext]
      exact Nat.le_refl _

/-- A backend that panics is left, and what it had still to run is given up. -/
theorem passes_panicked {c : ContextId} {counted : Bool} {text : String} {os : List Op}
    (ha : s.agenda = .script (.panic text :: os) :: .leave c counted :: ts)
    (hr : s.condition = .running) :
    Passes s (.unwinding ("backend panic: " ++ text)) ts (ts.length + 1) 5 := by
  obtain ⟨w, agenda, answer, condition⟩ := s
  obtain rfl : agenda = _ := ha
  obtain rfl : condition = .running := hr
  have deep : ∀ us : List Task, ts.length + 1 ≤ (us ++ .leave c counted :: ts).length := by
    intro us
    rw [List.length_append]
    exact Nat.le_add_left _ _
  -- the panic is begun, and then the note, the script and the entry are given up
  exact .cons (.refl w) (deep [_]) (.cons (.refl w) (deep [_, _, _]) (.cons (.refl w) (deep [_, _])
    (.cons (.refl w) (deep [_]) (.cons (passing_leave w c counted) (deep []) (.refl rfl rfl)))))

/-- A backend that comes to its end in passing returns. -/
theorem Passes.returns {t : Task} (ha : s.agenda = t :: ts) (hb : b.isLive = true)
    (hw : Passing s.world s.step.1.world) (h : Passes s.step.1 b ts (ts.length + 1) n)
    (hI : ∀ v, v.callerScript = s.world.callerScript → I v) : Returns p I s (n + 1) := by
  have hall : Passes s b ts (ts.length + 1) (n + 1) :=
    .cons hw (by rw [ha]; exact Nat.le_refl _) h
  refine ⟨⟨?_, fun k hk => ?_⟩, ?_, hall.world.held, World.lookUp_congr hall.world.names _,
    hI _ hall.world.callerScript⟩
  · rw [hall.agenda, ha]
    exact Nat.lt_succ_self _
  · rw [ha]
    exact hall.above k hk
  · rw [hall.condition]
    exact hb

/-! ### Backends that run nothing of their own -/

/-- A backend that runs no operations returns at once. -/
theorem discreet_of_isIdle (p : Post) : Discreet p fun w => p.backend.kind.IsIdle w where
  messages w held count hI := (p.backend.kind.isIdle_congr rfl).mpr hI
  gate w f hI := by
    refine (p.backend.kind.isIdle_congr ?_).mpr hI
    unfold World.configure
    split <;> rfl
  returns s d hs hd hI e he b hb := by
    obtain ⟨t, ts, r, ha, hreact, hagenda, hrunning, hworld⟩ := exists_reaction hd he hb
    have hidle := (p.backend.kind.isIdle_congr (passing_enter s.world p.id).callerScript).mpr hI
    have hops : r.ops = [] := by
      rcases hreact with ⟨m, rfl⟩ | rfl
      · exact (World.ops_of_isIdle hidle m).1
      · exact (World.ops_of_isIdle hidle default).2
    rw [hops] at hagenda
    exact ⟨_, Passes.returns ha rfl hworld (passes_left hagenda hrunning) fun v hv =>
      (p.backend.kind.isIdle_congr hv).mpr hI⟩

/-! ### Backends that log through their own context -/

/-- The task is done at once and changes nothing in the world. -/
def Dull (w : World) (t : Task) : Prop :=
  ∀ s : State, s.world = w → (s.perform t).1.world = w ∧ (s.perform t).1.agenda = s.agenda ∧
    (s.perform t).1.condition = s.condition

theorem dull_respond (w : World) (a : Answer) : Dull w (.respond a) := fun _ hs => ⟨hs, rfl, rfl⟩

theorem dull_note (w : World) : Dull w .note := fun _ hs => ⟨hs, rfl, rfl⟩

section Refused

variable {w : World} {c : ContextId} (hc : w.access c = .refused)

include hc

theorem dull_write (m : Message) : Dull w (.write c m) := by
  rintro s rfl
  rw [perform, (refuses_of_access hc).write]
  exact ⟨rfl, rfl, rfl⟩

theorem dull_flush : Dull w (.flush c) := by
  rintro s rfl
  rw [perform, (refuses_of_access hc).flush]
  exact ⟨rfl, rfl, rfl⟩

theorem dull_drop {m : Message} (hm : m.context = c) : Dull w (.drop m) := by
  rintro s rfl
  rw [perform, (refuses_of_access hc).drop m hm]
  exact ⟨rfl, rfl, rfl⟩

end Refused

theorem passes_of_dull (us : List Task) (hus : ∀ t ∈ us, Dull s.world t)
    (ha : s.agenda = us ++ ts) (hr : s.condition = .running) (hl : depth ≤ ts.length) :
    Passes s .running ts depth us.length ∧ (run us.length s).1.world = s.world := by
  induction us generalizing s with
  | nil => exact ⟨.refl ha hr, rfl⟩
  | cons t us ih =>
    obtain ⟨ht, hus⟩ := List.forall_mem_cons.mp hus
    obtain ⟨hw, hagenda, hcondition⟩ := ht { s with agenda := us ++ ts } rfl
    have hstep : s.step = ({ s with agenda := us ++ ts } : State).perform t :=
      step_of_running hr ha
    rw [← hstep] at hw hagenda hcondition
    obtain ⟨hpasses, hworld⟩ := ih (hw ▸ hus) hagenda (hcondition.trans hr)
    have hpassing : Passing s.world s.step.1.world := by
      rw [hw]
      exact .refl _
    refine ⟨.cons hpassing ?_ hpasses, ?_⟩
    · rw [ha, List.length_append]
      omega
    · rw [List.length_cons, run_succ]
      exact hworld.trans hw

/-- An operation has changed no more than the number of messages, and what is left of it is dull. -/
structure Shallow (s : State) (o : Outcome) : Prop where
  running : o.1.condition = .running
  rest : ∃ us count, o.1.world = { s.world with messages := count } ∧
    o.1.agenda = us ++ s.agenda ∧ ∀ t ∈ us, Dull o.1.world t

/-- A statement that ends as soon as it has been made. -/
theorem shallow_statement {c : ContextId} (hc : s.world.access c = .refused)
    (hr : s.condition = .running) (sev : Severity) (k : Component) (parts : List Part)
    (answer : Message → Answer) :
    Shallow s (s.making c sev k parts fun s m => s.push [.drop m, .respond (answer m)]) := by
  have hcontext : ((s.world.newMessage c sev k).appendAll parts).context = c := by
    rw [Message.appendAll_eq]
    rfl
  have hafter : ({ s.world with messages := s.world.messages + 1 } : World).access c = .refused :=
    hc
  rw [making]
  simp only [accessing, hc]
  refine ⟨hr, [.drop _, .respond _], s.world.messages + 1, rfl, rfl, ?_⟩
  exact List.forall_mem_cons.mpr ⟨dull_drop hafter hcontext,
    List.forall_mem_singleton.mpr (dull_respond _ _)⟩

/-- Where the thread is refused the context, a command on it does next to nothing. -/
theorem shallow_aside {o : Command} (ho : o.isAside = true) (hl : s.world.lookUp p.name = p.id)
    (hc : s.world.access p.id = .refused) (hr : s.condition = .running) :
    Shallow s (s.begin (o.op p.name)) := by
  have haddressed : s.world.access (s.world.lookUp p.name) = .refused := by
    rw [hl]
    exact hc
  cases o with
  | log sev k parts =>
    exact shallow_statement haddressed hr sev k parts fun m => .statement m.worth m.text
  | logLabelled sev k label n =>
    exact shallow_statement haddressed hr sev k [.labelled label n] fun m =>
      .evaluated (m.rendered [.labelled label n]).length
  | write id =>
    show Shallow s (s.withHeld id _)
    unfold withHeld
    split
    · exact ⟨hr, [], s.world.messages, rfl, rfl, by simp⟩
    · next m _ =>
      rw [hl]
      refine ⟨hr, [.write p.id m, .respond .nothing], s.world.messages, rfl, rfl, ?_⟩
      exact List.forall_mem_cons.mpr ⟨dull_write hc m,
        List.forall_mem_singleton.mpr (dull_respond _ _)⟩
  | onGate o =>
    have hbegin : s.begin (.onContext p.name o) = (s.respond o.denied).quietly := by
      rw [State.begin, hl, (refuses_of_access hc).context]
      rfl
    show Shallow s (s.begin (.onContext p.name o))
    rw [hbegin]
    exact ⟨hr, [], s.world.messages, rfl, rfl, by simp⟩
  | flush =>
    show Shallow s (s.push [.flush (s.world.lookUp p.name), .respond .nothing]).quietly
    rw [hl]
    refine ⟨hr, [.flush p.id, .respond .nothing], s.world.messages, rfl, rfl, ?_⟩
    exact List.forall_mem_cons.mpr ⟨dull_flush hc,
      List.forall_mem_singleton.mpr (dull_respond _ _)⟩
  | hold id sev k parts => cases ho
  | add id parts => cases ho
  | finish id => cases ho

theorem passing_count (w : World) (count : Nat) : Passing w { w with messages := count } :=
  ⟨rfl, rfl, rfl⟩

/-- One operation of a script, until its end is noted. -/
theorem passes_aside {o : Command} (ho : o.isAside = true) (hl : s.world.lookUp p.name = p.id)
    (hc : s.world.access p.id = .refused) (ha : s.agenda = .begin (o.op p.name) :: .note :: ts)
    (hr : s.condition = .running) (hd : depth ≤ ts.length) :
    ∃ n count, Passes s .running ts depth n ∧
      (run n s).1.world = { s.world with messages := count } := by
  have hstep : s.step = ({ s with agenda := .note :: ts } : State).begin (o.op p.name) :=
    step_of_running hr ha
  obtain ⟨hcondition, us, count, hworld, hagenda, hus⟩ :=
    shallow_aside (s := { s with agenda := .note :: ts }) ho hl hc hr
  rw [← hstep] at hcondition hworld hagenda hus
  have hdull : ∀ t ∈ us ++ [Task.note], Dull s.step.1.world t := by
    intro t ht
    rcases List.mem_append.mp ht with ht | ht
    · exact hus t ht
    · rw [List.mem_singleton.mp ht]
      exact dull_note _
  have hagenda : s.step.1.agenda = (us ++ [.note]) ++ ts := by
    rw [hagenda]
    simp
  obtain ⟨hpasses, hsame⟩ := passes_of_dull _ hdull hagenda hcondition hd
  refine ⟨_, count, .cons ?_ ?_ hpasses, ?_⟩
  · rw [hworld]
    exact passing_count s.world count
  · rw [ha, List.length_cons, List.length_cons]
    omega
  · rw [run_succ]
    exact hsame.trans hworld

/-- The operations of a running backend on its own context are done in passing. -/
theorem passes_script (os : List Command) (hos : ∀ o ∈ os, o.isAside = true) (last : List Op)
    (hl : s.world.lookUp p.name = p.id) (hc : s.world.access p.id = .refused)
    (ha : s.agenda = .script (os.map (Command.op p.name) ++ last) :: ts)
    (hr : s.condition = .running) (hd : depth ≤ ts.length) :
    ∃ n, Passes s .running (.script last :: ts) depth n := by
  induction os generalizing s with
  | nil => exact ⟨0, .refl ha hr⟩
  | cons o os ih =>
    obtain ⟨ho, hos⟩ := List.forall_mem_cons.mp hos
    have hstep : s.step.1 = { s with
        agenda := .begin (o.op p.name) :: .note ::
          .script (os.map (Command.op p.name) ++ last) :: ts } := by
      rw [step_of_running hr ha]
      rfl
    obtain ⟨k, count, hk, hworld⟩ := passes_aside (s := s.step.1) ho (by rw [hstep]; exact hl)
      (by rw [hstep]; exact hc) (by rw [hstep]) (by rw [hstep]; exact hr) (Nat.le_succ_of_le hd)
    have hworld : (run k s.step.1).1.world = { s.world with messages := count } := by
      rw [hworld, hstep]
    have hrest := ih (s := (run k s.step.1).1) hos
    rw [hworld] at hrest
    obtain ⟨n, hn⟩ := hrest hl hc hk.agenda hk.condition
    refine ⟨_, .cons ?_ ?_ (hk.trans hn)⟩
    · rw [hstep]
      exact .refl _
    · rw [ha]
      exact Nat.le_succ_of_le hd

/-- A backend that logs, flushes and changes gates through its own context, and perhaps panics after
that, returns: all of this is refused. -/
theorem discreet_of_isAside {tag : String} {onWrite onFlush : List Command}
    {writeText flushText : Option String} {onDestroy onName : List Op}
    (hk : p.backend.kind = .custom tag
      (onWrite.map (Command.op p.name) ++ (writeText.map Op.panic).toList)
      (onFlush.map (Command.op p.name) ++ (flushText.map Op.panic).toList) onDestroy onName)
    (hos : ∀ o ∈ onWrite ++ onFlush, o.isAside = true) : Discreet p fun _ => True where
  messages _ _ _ _ := trivial
  gate _ _ _ := trivial
  returns s d hs hd _ e he b hb := by
    obtain ⟨t, ts, r, ha, hreact, hagenda, hrunning, hpassing⟩ := exists_reaction hd he hb
    obtain ⟨os, text, hos, hops⟩ : ∃ (os : List Command) (text : Option String),
        (∀ o ∈ os, o.isAside = true) ∧
        r.ops = os.map (Command.op p.name) ++ (text.map Op.panic).toList := by
      rw [hk] at hreact
      rcases hreact with ⟨m, rfl⟩ | rfl
      · exact ⟨onWrite, writeText, fun o ho => hos o (List.mem_append_left _ ho), rfl⟩
      · exact ⟨onFlush, flushText, fun o ho => hos o (List.mem_append_right _ ho), rfl⟩
    have hlookUp : s.step.1.world.lookUp p.name = p.id := by
      rw [World.lookUp_congr hpassing.names, hd.lookUp]
    have hrefused : s.step.1.world.access p.id = .refused := by
      rw [hs.step.access_eq, stack_of_begins he hb, if_pos (List.mem_cons_self ..)]
    rw [hops] at hagenda
    obtain ⟨n, hn⟩ := passes_script os hos _ hlookUp hrefused hagenda hrunning
      (Nat.le_refl (ts.length + 1))
    cases text with
    | none =>
      exact ⟨_, Passes.returns ha rfl hpassing (hn.trans (passes_left hn.agenda hn.condition))
        fun _ _ => trivial⟩
    | some text =>
      exact ⟨_, Passes.returns ha rfl hpassing (hn.trans (passes_panicked hn.agenda hn.condition))
        fun _ _ => trivial⟩

end State

end GatedLog
