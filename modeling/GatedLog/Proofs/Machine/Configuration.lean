import GatedLog.Proofs.Console
import GatedLog.Proofs.Machine.Agreement
import GatedLog.Proofs.Machine.Assembly
import GatedLog.Proofs.Machine.BuilderGates
import GatedLog.Proofs.Machine.Unwinding

/-!
# Configuration takes effect

A builder that is given a configuration document builds a console behind the gate of its settings,
whatever it did before. From then on, until something else is put into the context or its gate is
adjusted, a statement on that context is printed exactly if the settings admit it, in one line that
is laid out as they say (`configuration_effective`).
-/

namespace GatedLog

namespace Settings

/-- What the settings let through: statements from the level on, of the components that are listed,
or of any component where there is no list. -/
def Admits (c : Settings) (s : Severity) (k : Component) : Prop :=
  c.level ≤ s ∧ ∀ ks, c.components = some ks → k ∈ ks

variable {c : Settings} {s : Severity} {k : Component}

theorem gate_allows_iff : c.gate.allows s k = true ↔ c.Admits s k := by
  rw [Gate.allows_iff, gate, Admits]
  cases hc : c.components with
  | none => simp
  | some ks => simp [ComponentMask.contains_ofList]

/-- The mask of the settings: without a list of components every bit is set, with an empty one none
is. -/
structure Masks (c : Settings) : Prop where
  absent : c.components = none → ∀ i < 32, c.gate.mask.has i = true
  empty : c.components = some [] → ∀ i, c.gate.mask.has i = false
  listed : ∀ ks, c.components = some ks →
    ∀ i, c.gate.mask.has i = true ↔ ∃ k ∈ ks, k.position = i

theorem masks (c : Settings) : c.Masks where
  absent h i hi := by simp [gate, h, hi]
  empty h i := by simp [gate, h]
  listed ks h i := by
    rw [gate, h]
    exact ComponentMask.has_ofList ks i

end Settings

/-- The lines that are printed. -/
def lines (hs : List Happening) : List String := hs.filterMap Happening.line?

theorem lines_append (hs is : List Happening) : lines (hs ++ is) = lines hs ++ lines is :=
  List.filterMap_append

theorem lines_of_silent {hs : List Happening} (h : ∀ e ∈ hs, e.isSilent = true) : lines hs = [] := by
  refine List.filterMap_eq_nil_iff.mpr fun e he => ?_
  have hsilent := h e he
  cases e <;> first | rfl | cases hsilent

namespace State

variable {s : State} {d : ContextId} {c : Settings} {l : ConsoleLayout} {m : Message} {t : Task}
  {ts : List Task}

/-! ### Contexts whose console is not running -/

/-- The contexts that are entered change when backends begin to run or are asked for their names, and
where they have done so. -/
theorem Move.entered_cases {o : Outcome} (h : Move s t o) :
    enteredOn o.1.agenda = enteredOn s.agenda ∨
      (∃ d i, s.world.installed d = some i ∧ World.nameOps i.backend.kind ≠ [] ∧
        enteredOn o.1.agenda = d :: enteredOn s.agenda) ∨
      ∃ d i first ops, Entry i.backend d t first ∧ s.world.access d = .granted ∧
        s.world.installed d = some i ∧
        o.1.agenda = .script ops :: .leave d s.world.thread.tracking :: s.agenda := by
  have steady : ∀ ps, (∀ p ∈ ps, p.isSteady = true) → o.1.agenda = ps ++ s.agenda →
      enteredOn o.1.agenda = enteredOn s.agenda := fun ps hp ha => by
    rw [ha, enteredOn_append_of_steady ps _ hp]
  cases h with
  | entered d i first rest ops ht hc hi h hq hr =>
    exact .inr (.inr ⟨d, i, first, ops, ht, hc, hi, h.agenda⟩)
  | asked d i op ops a ht hc hi hn h hq =>
    refine .inr (.inl ⟨d, i, hi, ?_, by rw [h.agenda]; rfl⟩)
    rw [hn]
    exact List.cons_ne_nil op ops
  | unlocked d ht h hq => exact .inl (steady [] (by simp) h.agenda)
  | routine ps ht hp h hq =>
    exact .inl (steady ps (fun p hm => Task.isSteady_of_isOrdinary (hp p hm)) h.agenda)
  | configured d f ht hc h hq => exact .inl (steady [] (by simp) h.agenda)
  | created name i ht h hq => exact .inl (steady [] (by simp) h.agenda)
  | swapped d next ps ht hc hp h hq =>
    exact .inl (steady ps (fun p hm => Task.isSteady_of_isOrdinary (hp p hm)) h.agenda)
  | left d counted ht h hq => exact .inl (steady [] (by simp) h.agenda)
  | forked p exit ht hp h hq =>
    left
    rw [h.agenda, List.cons_append,
      enteredOn_cons_of_plain (Task.isPlain_of_isSteady (Task.isSteady_of_isOrdinary hp))]
    cases exit <;> rfl
  | lost ops ps ht hp h hq =>
    exact .inl (steady ps (fun p hm => Task.isSteady_of_isOrdinary (hp p hm)) h.agenda)
  | joined u ht h hq => exact .inl (steady [] (by simp) h.agenda)
  | opened d sev k parts ps ht hc hp h hr hq =>
    refine .inl (steady _ (List.forall_mem_cons.mpr ⟨rfl, fun p hm => ?_⟩) h.agenda)
    exact Task.isSteady_of_isOrdinary (hp p hm)
  | kept id d sev k parts a ht hc h hr hq =>
    left
    rw [h.agenda]
    cases s.world.held.get? id <;> rfl
  | extended id m parts ht hm h hq => exact .inl (steady [] (by simp) h.agenda)
  | closed id m a ht hm h hr hq => exact .inl (steady _ (by simp [Task.isSteady]) h.agenda)
  | ended m ht hm h hq => exact .inl (steady [] (by simp) h.agenda)

/-- A console that prints on the terminal is installed in the context. -/
def Prints (s : State) (d : ContextId) (l : ConsoleLayout) : Prop :=
  ∃ g n, s.world.installed d = some ⟨g, ⟨n, .console l none⟩⟩

/-- The context is not entered, or nothing is left to run in it before it is left. -/
def Rests (s : State) (d : ContextId) : Prop :=
  d ∉ s.entered ∨ ∃ counted ts, d ∉ enteredOn ts ∧
    (s.agenda = .script [] :: .leave d counted :: ts ∨ s.agenda = .leave d counted :: ts)

/-- A console that is entered has nothing to run. -/
theorem script_of_entry {i : Installed} {first : List Happening} {ops : List Op} {counted : Bool}
    (ha : s.agenda = t :: ts) (ht : Entry i.backend d t first) (hc : s.world.access d = .granted)
    (hi : s.world.installed d = some i) (hk : i.backend.kind = .console l none)
    (hstep : s.step.1.agenda = .script ops :: .leave d counted :: ts) : ops = [] := by
  have hready : ∀ w : World, w.Ready (.console l none) := fun _ => trivial
  have hlength : s.step.1.agenda.length = ts.length + 2 := by rw [hstep]; rfl
  cases hcondition : s.condition with
  | running =>
    have hperform := step_of_running hcondition ha
    -- the operations are those with which the console reacts
    have hreacts : ∀ (u : State) e (r : Reaction), u.agenda = ts → s.step = u.running d e r →
        r.ops = [] → ops = [] := by
      intro u e r hu hrun hops
      rw [hrun, State.running, hops] at hstep
      exact (Task.script.inj (List.cons.inj hstep).1).symm
    cases ht with
    | write d m =>
      refine hreacts { s with agenda := ts } (.delivered d i.backend m)
        ((s.world.enter d).receive m i.backend.kind) rfl ?_ ?_
      · rw [hperform]
        simp only [perform, State.write, accessing, hc, hi, register_running]
      · rw [hk]
        exact (World.ready_receive (hready _) m).2
    | flush d =>
      refine hreacts { s with agenda := ts } (.flushed d i.backend)
        ((s.world.enter d).flushed i.backend.kind) rfl ?_ ?_
      · rw [hperform]
        simp only [perform, State.flush, accessing, hc, hi, register_running]
      · rw [hk]
        rfl
    | drop m hw =>
      have hdrop : s.step.1 = (({ s with agenda := ts } : State).write m.context m).1 := by
        rw [hperform]
        simp only [perform, State.drop, hw, if_true]
      rw [hdrop] at hstep
      simp only [State.write, accessing, hc, hi, State.running, hk,
        (World.ready_receive (hready _) m).2] at hstep
      exact (Task.script.inj (List.cons.inj hstep).1).symm
  | unwinding text =>
    have hunwind : s.step.1.agenda = ts := by
      simp only [step, hcondition, ha]
      cases ht <;> rfl
    rw [hunwind] at hlength
    omega
  | blocked =>
    rw [step_of_halted (halted_of_condition (.inl hcondition)), ha, List.length_cons] at hlength
    omega
  | aborted =>
    rw [step_of_halted (halted_of_condition (.inr hcondition)), ha, List.length_cons] at hlength
    omega

/-- As long as the console is installed, nothing but its own lines comes between entering the
context and leaving it. -/
theorem Rests.step (hp : s.Prints d l) (h : Rests s d) : Rests s.step.1 d := by
  obtain ⟨g, n, hi⟩ := hp
  rcases h with hd | ⟨counted, us, hus, ha | ha⟩
  · rcases s.step_cases with hstep | ⟨t, ts, ha, hmove⟩
    · rw [hstep]
      exact .inl hd
    · have hts : d ∉ enteredOn ts := fun hmem =>
        hd (by rw [entered, ha]; exact ((List.sublist_cons_self t ts).filterMap _).subset hmem)
      rcases hmove.entered_cases with heq | ⟨e, i, hi', hn, heq⟩ |
        ⟨e, i, first, ops, ht, hc, hi', hagenda⟩
      · refine .inl ?_
        rw [entered, heq]
        exact hts
      · -- a console runs no operations to tell its name
        have hed : e ≠ d := by
          rintro rfl
          obtain rfl : i = ⟨g, ⟨n, .console l none⟩⟩ := Option.some.inj (hi'.symm.trans hi)
          exact hn rfl
        refine .inl ?_
        rw [entered, heq]
        exact List.not_mem_cons_of_ne_of_not_mem hed.symm hts
      · by_cases hed : e = d
        · subst hed
          obtain rfl : i = ⟨g, ⟨n, .console l none⟩⟩ := Option.some.inj (hi'.symm.trans hi)
          have hops : ops = [] := script_of_entry ha ht hc hi' rfl hagenda
          subst hops
          exact .inr ⟨_, ts, hts, .inl hagenda⟩
        · refine .inl ?_
          rw [entered, hagenda]
          exact List.not_mem_cons_of_ne_of_not_mem (Ne.symm hed) hts
  · -- the script of the console is empty
    right
    refine ⟨counted, us, hus, ?_⟩
    unfold State.step
    rw [ha]
    cases s.condition with
    | running => exact .inr rfl
    | unwinding text => exact .inr rfl
    | blocked => exact .inl ha
    | aborted => exact .inl ha
  · unfold State.step
    rw [ha]
    cases s.condition with
    | running => exact .inl hus
    | unwinding text => exact .inl hus
    | blocked => exact .inr ⟨counted, us, hus, .inr ha⟩
    | aborted => exact .inr ⟨counted, us, hus, .inr ha⟩

/-- Where an operation begins the context is not entered. -/
theorem Rests.not_entered (h : Rests s d) (ha : s.agenda = t :: ts)
    (hscript : ∀ ops, t ≠ .script ops) (hleave : ∀ e counted, t ≠ .leave e counted) :
    d ∉ s.entered := by
  rcases h with hd | ⟨counted, us, -, hus | hus⟩
  · exact hd
  · rw [ha] at hus
    exact absurd (List.cons.inj hus).1 (hscript [])
  · rw [ha] at hus
    exact absurd (List.cons.inj hus).1 (hleave d counted)

/-- Where something happens the context is not entered. -/
theorem Rests.not_entered_of_happening {e : Happening} (h : Rests s d) (he : e ∈ s.step.2) :
    d ∉ s.entered := by
  rcases h with hd | ⟨counted, us, -, ha⟩
  · exact hd
  · have hquiet : s.step.2 = [] := by
      rcases ha with ha | ha
      · unfold State.step
        rw [ha]
        cases s.condition <;> rfl
      · unfold State.step
        rw [ha]
        cases s.condition <;> rfl
    rw [hquiet] at he
    cases he

/-! ### Statements on a console -/

/-- The operation logs a statement with some values on a context. -/
inductive Logs (ctx : ContextName) (sev : Severity) (k : Component) : Op → List Part → Prop
  | log (parts : List Part) : Logs ctx sev k (.log ctx sev k parts) parts
  | labelled (label : String) (n : Int) :
    Logs ctx sev k (.logLabelled ctx sev k label n) [.labelled label n]

theorem Logs.begin_eq {ctx : ContextName} {sev : Severity} {k : Component} {o : Op}
    {parts : List Part} (h : Logs ctx sev k o parts) : ∃ answer : Message → Answer,
      ∀ s : State, s.begin o = s.making (s.world.lookUp ctx) sev k parts fun s m =>
        s.push [.drop m, .respond (answer m)] := by
  cases h with
  | log => exact ⟨fun m => .statement m.worth m.text, fun _ => rfl⟩
  | labelled label n =>
    exact ⟨fun m => .evaluated (m.rendered [.labelled label n]).length, fun _ => rfl⟩

/-- What a console does with a message that is handed to it, if one is. -/
def consoleReport (w : World) (d : ContextId) (b : Backend) (l : ConsoleLayout) (m : Message) :
    List Happening :=
  if m.worth then
    [.delivered d b m, .printed (l.line w.colors w.stamp m.severity m.component m.text)]
  else []

section Reporting

variable {g : Gate} {b : Backend}

theorem deliveries_consoleReport (w : World) (hw : m.worth = true) :
    deliveries (consoleReport w d b l m) = [(d, b, m)] := by
  rw [consoleReport, if_pos hw]
  rfl

theorem lines_consoleReport (w : World) (hw : m.worth = true) :
    lines (consoleReport w d b l m) =
      [l.line w.colors w.stamp m.severity m.component m.text] := by
  rw [consoleReport, if_pos hw]
  rfl

theorem consoleReport_of_not_worth (w : World) (hw : ¬ m.worth = true) :
    consoleReport w d b l m = [] := if_neg hw

/-- A message that ends is printed, if it is worth reporting. -/
theorem drop_on_console (hg : s.world.access m.context = .granted)
    (hi : s.world.installed m.context = some ⟨g, b⟩) (hk : b.kind = .console l none) :
    (s.drop m).2 = .dropped m :: consoleReport s.world m.context b l m := by
  cases hw : m.worth with
  | false => simp [State.drop, consoleReport, hw, quietly]
  | true =>
    obtain ⟨hhappenings, -⟩ := s.world.receive_enter m.context m b.kind
    have hwrite : (s.write m.context m).2 =
        .delivered m.context b m :: (s.world.receive m b.kind).happenings := by
      simp only [State.write, accessing, hg, hi, State.running, hhappenings]
    simp only [State.drop, hw, if_true, hwrite, consoleReport, hk]
    simp [World.receive, hw, World.record, World.print]

/-- Then the run goes on with the tasks below. -/
theorem run_drop_on_console (hr : s.condition = .running) (ha : s.agenda = .drop m :: ts)
    (hg : s.world.access m.context = .granted)
    (hi : s.world.installed m.context = some ⟨g, b⟩) (hk : b.kind = .console l none) :
    ∃ n, (run n s).1.agenda = ts ∧ (run n s).1.condition = .running ∧
      (run n s).2 = .dropped m :: consoleReport s.world m.context b l m := by
  have hstep : s.step = ({ s with agenda := ts } : State).drop m := step_of_running hr ha
  have hreport := drop_on_console (s := { s with agenda := ts }) (m := m) hg hi hk
  cases hw : m.worth with
  | false =>
    have hstate : s.step.1 = { s with agenda := ts } := by
      rw [hstep]
      simp only [State.drop, hw]
      rfl
    refine ⟨1, ?_⟩
    rw [run_succ, run_zero, hstate, List.append_nil, hstep]
    exact ⟨rfl, hr, hreport⟩
  | true =>
    obtain ⟨-, hops⟩ := s.world.receive_enter m.context m b.kind
    have hready : s.world.Ready b.kind := by rw [hk]; trivial
    have hnone : ((s.world.enter m.context).receive m b.kind).ops = [] := by
      rw [hops]
      exact (World.ready_receive hready m).2
    have hagenda : s.step.1.agenda =
        .script [] :: .leave m.context s.world.thread.tracking :: ts := by
      rw [hstep]
      simp only [State.drop, hw, if_true, State.write, accessing, hg, hi, State.running, hnone]
      rfl
    have hcondition : s.step.1.condition = .running := by
      rw [hstep]
      simp only [State.drop, hw, if_true, State.write, accessing, hg, hi, State.running]
      exact hr
    refine ⟨3, ?_⟩
    rw [run_succ, run_left hagenda hcondition, List.append_nil, hstep]
    exact ⟨rfl, hstep ▸ hcondition, hreport⟩

/-- What happens when a statement is logged on a console. -/
def consoleStatement (w : World) (d : ContextId) (b : Backend) (l : ConsoleLayout) (sev : Severity)
    (k : Component) (parts : List Part) : List Happening :=
  let m := w.newMessage d sev k
  (.made m :: additions m parts) ++
    .dropped (m.appendAll parts) :: consoleReport w d b l (m.appendAll parts)

variable {sev : Severity} {k : Component} {parts : List Part}

theorem deliveries_consoleStatement (w : World) :
    deliveries (consoleStatement w d b l sev k parts) =
      deliveries (consoleReport w d b l ((w.newMessage d sev k).appendAll parts)) := by
  have hsilent : deliveries (.made (w.newMessage d sev k) ::
      additions (w.newMessage d sev k) parts) = [] :=
    deliveries_of_silent (List.forall_mem_cons.mpr ⟨rfl, additions_silent _ _⟩)
  rw [consoleStatement, deliveries, List.filterMap_append]
  exact congrArg (· ++ _) hsilent

theorem lines_consoleStatement (w : World) :
    lines (consoleStatement w d b l sev k parts) =
      lines (consoleReport w d b l ((w.newMessage d sev k).appendAll parts)) := by
  have hsilent : lines (.made (w.newMessage d sev k) ::
      additions (w.newMessage d sev k) parts) = [] :=
    lines_of_silent (List.forall_mem_cons.mpr ⟨rfl, additions_silent _ _⟩)
  rw [consoleStatement, lines_append, hsilent]
  rfl

/-- A statement that is logged on a console is over before the tasks below it. -/
theorem run_log_on_console {o : Op} {ctx : ContextName} (hlogs : Logs ctx sev k o parts)
    (hctx : s.world.lookUp ctx = d) (hr : s.condition = .running) (ha : s.agenda = .begin o :: ts)
    (hg : s.world.access d = .granted) (hi : s.world.installed d = some ⟨g, b⟩)
    (hk : b.kind = .console l none) :
    ∃ n, (run n s).1.agenda = ts ∧ (run n s).1.condition = .running ∧
      (run n s).2 = consoleStatement s.world d b l sev k parts := by
  obtain ⟨answer, hbegin⟩ := hlogs.begin_eq
  obtain ⟨m, hm⟩ : ∃ m, m = (s.world.newMessage d sev k).appendAll parts := ⟨_, rfl⟩
  have hcontext : m.context = d := by rw [hm, Message.appendAll_eq]; rfl
  obtain ⟨u, hu⟩ : ∃ u : State, u = { s.register with
      world := s.world.countMessage
      agenda := .drop m :: .respond (answer m) :: ts } := ⟨_, rfl⟩
  have hmade : s.step = (u, .made (s.world.newMessage d sev k) ::
      additions (s.world.newMessage d sev k) parts) := by
    rw [step_of_running hr ha, perform, hbegin, making, hu, hm]
    simp only [accessing, hctx, hg]
    rfl
  have hrunning : u.condition = .running := by rw [hu]; exact hr
  have haccess : u.world.access m.context = .granted := by rw [hcontext, hu]; exact hg
  have hinstalled : u.world.installed m.context = some ⟨g, b⟩ := by rw [hcontext, hu]; exact hi
  obtain ⟨n, hagenda, hcondition, hreport⟩ :=
    run_drop_on_console hrunning (by rw [hu]) haccess hinstalled hk
  -- the answer is kept for the task below
  have hlast := step_of_running hcondition hagenda
  have hquiet : (run n u).1.step.2 = [] := by rw [hlast]; rfl
  refine ⟨n + 1 + 1, ?_, ?_, ?_⟩
  · rw [run_succ, hmade, run_next, hlast]
    rfl
  · rw [run_succ, hmade, run_next, hlast]
    exact hcondition
  · rw [run_succ, hmade, run_next, hquiet, List.append_nil, hreport, hcontext, hm, hu]
    rfl

end Reporting

/-! ### Contexts that obey settings -/

/-- A statement is printed exactly if the settings admit it, in one line. -/
def Logged (s : State) (d : ContextId) (b : Backend) (c : Settings) (sev : Severity) (k : Component)
    (parts : List Part) (ts : List Task) : Prop :=
  ∃ n m, m.context = d ∧ m.severity = sev ∧ m.component = k ∧
    (run n s).1.agenda = ts ∧ (run n s).1.condition = .running ∧
    (c.Admits sev k → m.text = Part.renderAll parts ∧ deliveries (run n s).2 = [(d, b, m)] ∧
      lines (run n s).2 = [c.console.line s.world.colors s.world.stamp sev k m.text]) ∧
    (¬ c.Admits sev k → deliveries (run n s).2 = [] ∧ lines (run n s).2 = [])

/-- A context that does what settings say, by the backend `b`. -/
structure Obeys (s : State) (d : ContextId) (b : Backend) (c : Settings) : Prop where
  installed : s.world.installed d = some ⟨c.gate, b⟩
  console : b.kind = .console c.console none
  /-- A statement that begins is worth reporting if the settings admit it. -/
  made : ∀ m, .made m ∈ s.step.2 → m.context = d →
    (m.worth = true ↔ c.Admits m.severity m.component)
  /-- A statement that ends is printed if it is worth reporting. -/
  ended : ∀ m, .dropped m ∈ s.step.2 → m.context = d →
    s.step.2 = .dropped m :: consoleReport s.world d b c.console m
  /-- A statement that is logged is printed if the settings admit it. -/
  logged : ∀ o ctx sev k parts ts, Logs ctx sev k o parts → s.world.lookUp ctx = d →
    s.condition = .running → s.agenda = .begin o :: ts → s.Logged d b c sev k parts ts

/-- The console of the settings is installed behind their gate, and is not caught running. -/
structure Configured (s : State) (d : ContextId) (b : Backend) (c : Settings) : Prop where
  disciplined : Disciplined s
  installed : s.world.installed d = some ⟨c.gate, b⟩
  console : b.kind = .console c.console none
  rests : Rests s d

namespace Configured

variable {b : Backend}

theorem step (h : s.Configured d b c) (hr : ¬ Replaces s d) (ha : ¬ Adjusts s d) :
    s.step.1.Configured d b c := by
  have hlength := World.lt_length_of_installed h.installed
  have hprints : s.Prints d c.console := by
    obtain ⟨n, kind⟩ := b
    obtain rfl : kind = .console c.console none := h.console
    exact ⟨c.gate, n, h.installed⟩
  refine ⟨h.disciplined.step, ?_, h.console, h.rests.step hprints⟩
  rcases installed_step hlength hr with hi | ⟨hadjusts, -⟩
  · exact hi.trans h.installed
  · exact absurd hadjusts ha

/-- It stays so until something else is put there or its gate is adjusted. -/
theorem run {n : Nat} (h : s.Configured d b c)
    (hn : ∀ k < n, ¬ Replaces (run k s).1 d ∧ ¬ Adjusts (run k s).1 d) :
    (State.run n s).1.Configured d b c := by
  induction n with
  | zero => exact h
  | succ n ih =>
    have hbefore := ih fun k hk => hn k (by omega)
    obtain ⟨hr, ha⟩ := hn n (by omega)
    rw [run_next]
    exact hbefore.step hr ha

theorem granted (h : s.Configured d b c) (hd : d ∉ s.entered) : s.world.access d = .granted :=
  (h.disciplined.granted_iff d).mpr hd

theorem worth_newMessage (h : s.Configured d b c) (hd : d ∉ s.entered) (sev : Severity)
    (k : Component) : (s.world.newMessage d sev k).worth = true ↔ c.Admits sev k := by
  have hworth : (s.world.newMessage d sev k).worth = c.gate.allows sev k := by
    rw [World.newMessage, World.shouldLog, World.visible, if_pos (h.granted hd), h.installed]
    rfl
  rw [hworth, Settings.gate_allows_iff]

theorem logged (h : s.Configured d b c) {o : Op} {ctx : ContextName} {sev : Severity}
    {k : Component} {parts : List Part} (hlogs : Logs ctx sev k o parts)
    (hctx : s.world.lookUp ctx = d) (hr : s.condition = .running) (ha : s.agenda = .begin o :: ts) :
    s.Logged d b c sev k parts ts := by
  have hd : d ∉ s.entered := h.rests.not_entered ha (by simp) (by simp)
  obtain ⟨n, hagenda, hcondition, hreport⟩ :=
    run_log_on_console hlogs hctx hr ha (h.granted hd) h.installed h.console
  have hmessage := Message.appendAll_eq (s.world.newMessage d sev k) parts
  have hworth : ((s.world.newMessage d sev k).appendAll parts).worth = true ↔ c.Admits sev k := by
    rw [hmessage]
    exact h.worth_newMessage hd sev k
  refine ⟨n, (s.world.newMessage d sev k).appendAll parts, by rw [hmessage]; rfl,
    by rw [hmessage]; rfl, by rw [hmessage]; rfl, hagenda, hcondition, fun hadmits => ?_,
    fun hnot => ?_⟩
  · have hw := hworth.mpr hadmits
    have htext : ((s.world.newMessage d sev k).appendAll parts).text = Part.renderAll parts := by
      rw [hmessage]
      exact if_pos ((h.worth_newMessage hd sev k).mpr hadmits)
    rw [hreport, deliveries_consoleStatement, lines_consoleStatement,
      deliveries_consoleReport _ hw, lines_consoleReport _ hw]
    refine ⟨htext, rfl, ?_⟩
    rw [hmessage]
    rfl
  · rw [hreport, deliveries_consoleStatement, lines_consoleStatement,
      consoleReport_of_not_worth _ fun hw => hnot (hworth.mp hw)]
    exact ⟨rfl, rfl⟩

/-- A configured context does what the settings say. -/
theorem obeys (h : s.Configured d b c) : s.Obeys d b c where
  installed := h.installed
  console := h.console
  made m hm hmd := by
    have hd := h.rests.not_entered_of_happening hm
    obtain ⟨e, sev, k, rfl, -⟩ := eq_newMessage_of_made hm
    obtain rfl : e = d := hmd
    exact h.worth_newMessage hd sev k
  ended m hm hmd := by
    have hd := h.rests.not_entered_of_happening hm
    obtain ⟨us, -, hstep⟩ := step_of_dropped hm
    subst hmd
    rw [hstep]
    exact drop_on_console (s := { s with agenda := us }) (h.granted hd) h.installed h.console
  logged o ctx sev k parts us hlogs hctx hr ha := h.logged hlogs hctx hr ha

end Configured

/-- From now on the context does what the settings say, until something else is put there or its
gate is adjusted. -/
def Effective (s : State) (d : ContextId) (b : Backend) (c : Settings) : Prop :=
  ∀ n, (∀ k < n, ¬ Replaces (run k s).1 d ∧ ¬ Adjusts (run k s).1 d) → (run n s).1.Obeys d b c

theorem Configured.effective {b : Backend} (h : s.Configured d b c) : s.Effective d b c :=
  fun _ hn => (h.run hn).obeys

/-! ### Builders that are given settings -/

/-- The console that settings ask for. -/
def consoleOf (w : World) (c : Settings) : Backend := ⟨w.backends, .console c.console none⟩

theorem not_entered_of_unlocked (h : Disciplined s) (hl : (s.world.context d).locked = false) :
    d ∉ s.entered := fun hd => by
  rw [(h.locked_iff d).mpr hd] at hl
  cases hl

section Building

variable {b : Builder} {k : Backend}

/-- A builder makes a context of its own. -/
theorem configured_created {name : String} (h : Disciplined s) (hr : s.condition = .running)
    (ha : s.agenda = b.doing [] :: ts) (hb : b.chosen = some k) (hg : b.gate = c.gate)
    (ht : b.target = .create name) (hk : k.kind = .console c.console none) :
    s.step.1.agenda = ts ∧ s.step.1.condition = .running ∧
      s.step.1.world.lookUp (.named name) = s.world.contexts.length ∧
      s.step.1.Configured s.world.contexts.length k c := by
  have hstep : s.step = ({ s with
      world := s.world.addContext name (some ⟨c.gate, k⟩)
      agenda := ts
      answer := .steps b.gates none }, []) := by
    rw [step_of_running hr ha]
    simp only [perform, Builder.doing, State.build, hb, hg, ht]
    rfl
  have hlength : (s.world.contexts ++ [({ installed := some ⟨c.gate, k⟩ } : Context)])[
      s.world.contexts.length]? = some { installed := some ⟨c.gate, k⟩ } := by simp
  have hcontext : s.step.1.world.context s.world.contexts.length =
      { installed := some ⟨c.gate, k⟩ } := by
    rw [hstep, World.context]
    exact congrArg (·.getD {}) hlength
  have hdisciplined := h.step
  refine ⟨by rw [hstep], by rw [hstep]; exact hr, ?_, hdisciplined, ?_, hk, .inl ?_⟩
  · rw [hstep]
    simp [World.lookUp, World.addContext, Table.get?_put_self]
  · rw [World.installed, hcontext]
  · exact not_entered_of_unlocked hdisciplined (by rw [hcontext])

/-- A builder installs its backend, if the thread gets at the context and what is replaced has no
last operations. -/
theorem configured_installed (h : Disciplined s) (hl : d < s.world.contexts.length)
    (hr : s.condition = .running) (ha : s.agenda = b.doing [] :: ts) (hb : b.chosen = some k)
    (hg : b.gate = c.gate) (ht : b.target = .install d) (hk : k.kind = .console c.console none)
    (hc : s.world.access d = .granted)
    (hi : ∀ i ∈ s.world.installed d, World.lastOps i.backend.kind = []) :
    ∃ n, (run n s).1.agenda = ts ∧ (run n s).1.condition = .running ∧
      (run n s).1.Configured d k c := by
  obtain ⟨x, hx⟩ : ∃ x : Assembly, x =
    { context := d, world := s.world, gate := c.gate, backend := k, answer := .steps b.gates none } :=
    ⟨_, rfl⟩
  have hstep : s.step.1 = s.atSwap ts x := by
    rw [step_of_running hr ha]
    simp only [perform, Builder.doing, State.build, hb, hg, ht]
    rw [hx]
    rfl
  have hswap : (s.atSwap ts x).Comes (s.swappedIn ts x) :=
    comes_of_swap hr (by rw [hx]; exact hc) (by rw [hx]; exact hi)
  have hcomes : s.Comes (s.swappedIn ts x).step.1 := by
    have hfirst : s.Comes (s.atSwap ts x) := hstep ▸ comes_step s
    exact (hfirst.trans hswap).trans (comes_step _)
  obtain ⟨n, hn⟩ := hcomes
  have hlast : (run n s).1 = { s.register with
      world := s.world.replace d (some ⟨c.gate, k⟩)
      agenda := ts
      answer := .steps b.gates none } := by
    rw [hn, step_of_running (s := s.swappedIn ts x) hr rfl, hx]
    rfl
  have hdisciplined : Disciplined (run n s).1 := run_induction (fun _ => Disciplined.step) n h
  refine ⟨n, by rw [hlast], by rw [hlast]; exact hr, hdisciplined, ?_, hk, .inl ?_⟩
  · rw [hlast]
    exact World.installed_replace hl _
  · refine not_entered_of_unlocked hdisciplined ?_
    have hlocked := World.locked_modifyContext s.world d d
      (f := fun x => { x with installed := some ⟨c.gate, k⟩ }) fun _ => rfl
    rw [hlast]
    exact hlocked.trans (World.not_locked_of_granted hc)

end Building

/-- What comes of a builder whose last step is a document with settings. -/
structure TakesEffect (s : State) (b : Builder) (c : Settings) (ts : List Task) : Prop where
  /-- The console of the settings is chosen behind their gate, whatever was chosen before is
  destroyed. -/
  chosen : s.step = ({ s with
    world := { s.world with backends := s.world.backends + 1 }
    agenda := destroying b.chosen ++
      (b.chose (consoleOf s.world c) c.gate).doing [] :: ts }, [])
  /-- Then it is built, at least if what is destroyed has no last operations. -/
  reached : (∀ k ∈ b.chosen, World.lastOps k.kind = []) → ∃ n,
    (run n s.step.1).1.condition = .running ∧
      (run n s.step.1).1.agenda = (b.chose (consoleOf s.world c) c.gate).doing [] :: ts
  /-- A new context does what the settings say. -/
  created : ∀ name n (u : State), b.target = .create name → u = (run n s.step.1).1 →
    u.condition = .running → u.agenda = (b.chose (consoleOf s.world c) c.gate).doing [] :: ts →
      u.step.1.agenda = ts ∧ u.step.1.condition = .running ∧
        u.step.1.world.lookUp (.named name) = u.world.contexts.length ∧
        u.step.1.Effective u.world.contexts.length (consoleOf s.world c) c
  /-- So does a context that the console is installed in. -/
  installed : ∀ d n (u : State), b.target = .install d → u = (run n s.step.1).1 →
    u.condition = .running → u.agenda = (b.chose (consoleOf s.world c) c.gate).doing [] :: ts →
    ¬ u.ShutOut d → ¬ u.HeldUp d →
    (∀ i ∈ u.world.installed d, World.lastOps i.backend.kind = []) →
      ∃ m, (run m u).1.agenda = ts ∧ (run m u).1.condition = .running ∧
        (run m u).1.Effective d (consoleOf s.world c) c
  masks : c.Masks
  laidOut : c.console.LaidOut

/-- Settings that a builder is given last take effect. -/
structure Configures (s : State) : Prop where
  effect : ∀ (b : Builder) document c ts, Settings.read document = .ok c →
    s.condition = .running → s.agenda = b.doing [.settings document] :: ts → s.TakesEffect b c ts

/-- **Configuration takes effect**, in every state that a program can reach. -/
theorem configuration_effective (program : Program) (n : Nat) :
    Configures (run n (start program)).1 := by
  refine ⟨fun b document c ts hc hr ha => ?_⟩
  have hdisciplined := disciplined_run program
  have haddressed := addressed_run program
  obtain ⟨s, hs⟩ : ∃ s, s = (run n (start program)).1 := ⟨_, rfl⟩
  rw [← hs] at hr ha ⊢
  have hchosen := step_chose hr ha (buildStep_settings hc s.world b.gate)
  -- what comes after the step is a state of the program's run again
  have hreach : ∀ m, (run m s.step.1).1 = (run (n + (m + 1)) (start program)).1 := fun m => by
    rw [run_add, ← hs, run_succ]
  refine ⟨hchosen, fun hinert => ?_, fun name m u ht hu hr' ha' => ?_,
    fun d m u ht hu hr' ha' hout hheld hi => ?_, c.masks, c.console.laidOut⟩
  · have hstart : s.step.1.Comes s.step.1 := .refl _
    have hagenda : s.step.1.agenda = destroying b.chosen ++
        [(b.chose (consoleOf s.world c) c.gate).doing []] ++ ts := by
      rw [hchosen, List.append_assoc]
      rfl
    obtain ⟨m, hm⟩ := hstart.destroying (by rw [hchosen]; exact hr) hagenda hinert
    refine ⟨m, ?_, ?_⟩
    · rw [hm, hchosen]
      exact hr
    · rw [hm]
      rfl
  · have hd : Disciplined u := by rw [hu, hreach]; exact hdisciplined _
    obtain ⟨hagenda, hcondition, hname, hconfigured⟩ :=
      configured_created hd hr' ha' rfl rfl ht rfl
    exact ⟨hagenda, hcondition, hname, hconfigured.effective⟩
  · have hd : Disciplined u := by rw [hu, hreach]; exact hdisciplined _
    have haddr : Addressed u := by rw [hu, hreach]; exact haddressed _
    have hl : d < u.world.contexts.length := by
      refine haddr.aimed _ (by rw [ha']; exact List.mem_cons_self ..) d ?_
      rw [Builder.doing, Builder.chose, Builder.tuned, ht]
      rfl
    obtain ⟨j, hagenda, hcondition, hconfigured⟩ :=
      configured_installed hd hl hr' ha' rfl rfl ht rfl (hd.granted hout hheld) hi
    exact ⟨j, hagenda, hcondition, hconfigured.effective⟩

/-- A document that admits errors only. -/
def strictDocument : String :=
  "\x7b\"level\":\"error\"\x7d"

/-- While a backend runs, a thread that has got at another context is ending, and gives the context
that configuration. -/
def reconfiguring : Program where
  ops := [.create "c" (some (.scripted "s" [.threadExit [.onContext .global .gate]
      [.buildInto (.named "c") [.settings strictDocument]]] [] [])) Gate.unrestricted,
    .log (.named "c") .error .rpc []]

/-- The state in front of the document. -/
def reconfigurable : State := (run 16 (start reconfiguring)).1

/-- The thread is refused the context that it does not run itself, and when everything is done a
statement passes there that the settings do not admit. -/
theorem refused_configuration_ineffective : ∃ (c : Settings) (b : Builder) (ts : List Task),
    Settings.read strictDocument = .ok c ∧ reconfigurable.condition = .running ∧
      reconfigurable.agenda = b.doing [.settings strictDocument] :: ts ∧
      b.target = .install 1 ∧ 1 ∉ reconfigurable.stack ∧
      (∀ i ∈ reconfigurable.world.installed 1, World.lastOps i.backend.kind = []) ∧
      (run 17 reconfigurable).1.agenda = [] ∧
      (run 17 reconfigurable).1.world.shouldLog 1 .trace .rpc = true ∧ ¬ c.Admits .trace .rpc := by
  have hread : Settings.read strictDocument = .ok { level := .error } := by decide +kernel
  have hinert : ∀ i ∈ reconfigurable.world.installed 1, World.lastOps i.backend.kind = [] :=
    fun i hi => by
      obtain rfl := Option.some.inj hi
      rfl
  have hpasses : (run 17 reconfigurable).1.world.shouldLog 1 .trace .rpc = true := by
    decide +kernel
  refine ⟨_, ⟨none, Gate.unrestricted, [], .install 1⟩, _, hread, rfl, rfl, rfl,
    by decide +kernel, hinert, by decide +kernel, hpasses, ?_⟩
  rintro ⟨hlevel, -⟩
  exact absurd hlevel (by decide)

end State

end GatedLog
