import GatedLog.Proofs.Machine.Verdicts

/-!
# What builders make

A builder folds its steps over the gate that lets everything pass and keeps the backend that was
chosen last (`Builds.folds`). With both it makes a context or, where the thread gets at the context,
fills one (`Created`, `Filled`). Where a step fails the builder touches no context. The only ones that
may do so are backends that it had chosen itself, when they are destroyed (`Builds.untouched`); those
without last operations leave everything as it was (`Builds.unchanged`).
-/

namespace GatedLog

namespace State

/-- The backend that a builder makes use of. -/
def outcome (u : State) (b : Builder) : Installed := ⟨b.gate, (chosenBackend u.world b.chosen).1⟩

/-- The builder makes a new context with its backend and its gate. -/
structure Created (u : State) (b : Builder) (name : String) (ts : List Task) : Prop where
  agenda : u.step.1.agenda = ts
  running : u.step.1.condition = .running
  answer : u.step.1.answer = .steps b.gates none
  silent : u.step.2 = []
  named : u.step.1.world.lookUp (.named name) = u.world.contexts.length
  installed : u.step.1.world.installed u.world.contexts.length = some (u.outcome b)
  /-- The other contexts stay as they are. -/
  others : ∀ d < u.world.contexts.length, u.step.1.world.context d = u.world.context d

/-- The builder has failed: what it had chosen is destroyed, and nothing is built. -/
structure Failed (u : State) (b : Builder) (f : BuildFault) (ts : List Task) : Prop where
  step : u.step = ({ u with
    agenda := destroying b.chosen ++ .respond (.steps b.gates (some f)) :: ts }, [])
  answered : (∀ d ∈ b.chosen, World.lastOps d.kind = []) → ∃ n,
    run n u = ({ u with agenda := ts, answer := .steps b.gates (some f) },
      (b.chosen.map .destroyed).toList)

/-- The first `k` steps of a builder, in which nothing happens to a context. -/
structure Still (s : State) (ts : List Task) (k : Nat) : Prop where
  underway : s.Underway ts k
  alike : World.Alike s.world (run k s).1.world
  quiet : ∀ e, .emitted e ∈ (run k s).2 → e.isLifecycle = false

variable {s : State} {steps : List BuildStep} {target : Target} {ts : List Task} {k : Nat}
  {b : Builder} {done rest : List BuildStep}

/-! ### Where nothing has last operations -/

theorem Underway.next (h : s.Underway ts k) (hk : ts.length < (run (k + 1) s).1.agenda.length) :
    s.Underway ts (k + 1) := fun j hj => by
  rcases Nat.lt_or_eq_of_le hj with hlt | rfl
  · exact h j (Nat.le_of_lt_succ hlt)
  · exact hk

theorem Still.next (h : Still s ts k) (hk : ts.length < (run (k + 1) s).1.agenda.length)
    (hw : World.Alike (run k s).1.world (run (k + 1) s).1.world)
    (hq : ∀ e, .emitted e ∈ (run k s).1.step.2 → e.isLifecycle = false) : Still s ts (k + 1) where
  underway := h.underway.next hk
  alike := h.alike.trans hw
  quiet e he := by
    rw [run_next] at he
    exact (List.mem_append.mp he).elim (h.quiet e) (hq e)

/-- What is destroyed without last operations leaves everything as it is. -/
theorem Still.destroying {d : Option Backend} {t : Task} (h : Still s ts k)
    (hr : (run k s).1.condition = .running)
    (ha : (run k s).1.agenda = State.destroying d ++ t :: ts)
    (hd : ∀ e ∈ d, World.lastOps e.kind = []) :
    ∃ l, k ≤ l ∧ Still s ts l ∧ (run l s).1 = { (run k s).1 with agenda := t :: ts } := by
  obtain ⟨n, hn, hlong⟩ := exists_run_inert hr ha hd
  have hrun : run (k + n) s = ({ (run k s).1 with agenda := t :: ts },
      (run k s).2 ++ (d.map .destroyed).toList) := by rw [run_add, hn]
  refine ⟨k + n, Nat.le_add_right k n, ⟨fun j hj => ?_, ?_, fun e he => ?_⟩, by rw [hrun]⟩
  · rcases Nat.lt_or_ge j k with hlt | hge
    · exact h.underway j (Nat.le_of_lt hlt)
    · have hj' := hlong (j - k) (by omega)
      rw [show j = k + (j - k) by omega, run_add]
      exact hj'
  · rw [hrun]
    exact h.alike
  · rw [hrun] at he
    rcases List.mem_append.mp he with he | he
    · exact h.quiet e he
    · cases d <;> simp at he

/-- The steps of a builder tell of no swap. -/
theorem Station.quiet (h : Station s steps target ts k b done rest) :
    ∀ e, .emitted e ∈ (run k s).1.step.2 → e.isLifecycle = false := by
  intro e he
  by_contra hl
  obtain ⟨us, ha, -⟩ := emit_of_lifecycle (Bool.not_eq_false _ ▸ hl) he
  cases (List.cons_eq_cons.mp (h.agenda.symm.trans ha)).1

theorem Station.created {name : String} (h : Station s steps target ts k b done [])
    (ht : target = .create name) : (run k s).1.Created b name ts := by
  have hstep := h.step_done
  rw [ht] at hstep
  have hcontexts := (alike_chosenBackend (run k s).1.world b.chosen).contexts
  have hworld : (run k s).1.step.1.world = (chosenBackend (run k s).1.world b.chosen).2.addContext
      name (some ((run k s).1.outcome b)) := by
    rw [hstep]
    rfl
  refine ⟨by rw [hstep]; rfl, by rw [hstep]; exact h.running, by rw [hstep]; rfl,
    by rw [hstep]; rfl, ?_, ?_, fun d hd => ?_⟩
  · rw [hworld, ← hcontexts]
    simp [World.lookUp, World.addContext, Table.get?_put_self]
  · rw [hworld, ← hcontexts]
    simp [World.installed, World.context, World.addContext]
  · rw [hworld, World.context, World.addContext, List.getElem?_append_left (hcontexts ▸ hd),
      hcontexts, World.context]

/-- The end of a builder that installs what it has built is a call. -/
theorem Station.calls {c : ContextId} (h : Station s steps target ts k b done [])
    (ht : target = .install c) :
    Calls (run k s).1 c (some ((run k s).1.outcome b)) (b.doing []) ts where
  running := h.running
  agenda := h.agenda
  call := by
    rw [Builder.doing, h.target, ht]
    rfl

theorem Station.failed {x : BuildStep} {f : BuildFault}
    (h : Station s steps target ts k b done (x :: rest)) (hx : x.Fails f) :
    (run k s).1.Failed b f ts := by
  refine ⟨h.step_failed hx, fun hi => ?_⟩
  obtain ⟨n, hn⟩ := exists_run_destroying (s := (run k s).1.step.1) (d := b.chosen)
    (by rw [h.step_failed hx]; exact h.running) (by rw [h.step_failed hx]) hi
  refine ⟨n + 1, ?_⟩
  rw [run_succ, hn, h.step_failed hx]
  rfl

/-- The last backend and the last level count. -/
example : ((run 12 (start { ops := [.build "c" [.backend (.forwarding none), .level .error,
    .backend .tracing, .disable .rpc, .level .info]] })).1.world.installed 1).map
      (fun i => (i.backend.name, i.gate.threshold, i.gate.mask.contains .rpc)) =
        some ("tracing", .info, false) := by decide +kernel

/-- The steps of a builder that fails after it has chosen a backend which empties its target. -/
def meddlingSteps : List BuildStep :=
  [.backend (.scripted "s" [] [] [.remove (.named "c")]), .environment (some "loud") none]

def meddling : Program where
  ops := [.create "c" (some .tracing) Gate.unrestricted, .buildInto (.named "c") meddlingSteps]

/-- The builder fails, and its target is emptied by the backend that it had chosen. -/
theorem failed_builder_meddles : ∃ s ts, s = (run 5 (start meddling)).1 ∧ s.condition = .running ∧
    s.agenda = (Builder.fresh (.install 1)).doing meddlingSteps :: ts ∧
    (∃ x ∈ meddlingSteps, ∃ f, x.Fails f) ∧ (run 15 s).1.agenda = [] ∧
    (s.world.installed 1).isSome = true ∧ ((run 15 s).1.world.installed 1).isSome = false := by
  have hread : Environment.apply Gate.unrestricted (some "loud") none =
      .error ⟨.level, .rejected (.unknownSeverity "loud")⟩ := by decide +kernel
  have hfails : ∃ x ∈ meddlingSteps, ∃ f, x.Fails f :=
    ⟨.environment (some "loud") none, by simp [meddlingSteps], _,
      .environment (Environment.apply_eq_error_iff.mp hread)⟩
  exact ⟨_, _, rfl, rfl, rfl, hfails, by decide +kernel, by decide +kernel, by decide +kernel⟩

end State

end GatedLog
