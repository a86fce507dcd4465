import GatedLog.Proofs.Machine.CallStack

/-!
# Running contexts are frozen

From the moment a backend begins to run until it is left, its context is locked: nothing that the
backend does, on any detour through other contexts, callbacks and destructors, changes what is
installed there or reaches the backend again (`frozen_run`). What the thread itself asks of the
context is answered as by an empty one (`Refuses`).
-/

namespace GatedLog

/-! ### What is installed elsewhere -/

namespace World

variable {w : World} {c d : ContextId}

theorem installed_modifyContext_of_ne (h : d ≠ c) (f : Context → Context) :
    (w.modifyContext d f).installed c = w.installed c := by
  rw [installed, context_modifyContext, if_neg fun hd => h hd.1, installed]

theorem installed_configure_of_ne (h : d ≠ c) (f : Gate → Gate) :
    (w.configure d f).installed c = w.installed c := by
  unfold configure
  split
  · exact installed_modifyContext_of_ne h _
  · rfl

theorem installed_addContext (hc : c < w.contexts.length) (name : String) (i : Option Installed) :
    (w.addContext name i).installed c = w.installed c := by
  simp [addContext, installed, context, List.getElem?_append_left hc]

theorem installed_congr {v : World} (h : v.contexts = w.contexts) (c : ContextId) :
    v.installed c = w.installed c := by
  rw [installed, context_congr h, installed]

theorem installed_enter (w : World) (c d : ContextId) :
    (w.enter c).installed d = w.installed d := by
  rw [installed_congr (contexts_enter w c), installed_setLock]

theorem installed_leave (w : World) (c d : ContextId) (counted : Bool) :
    (w.leave c counted).installed d = w.installed d := by
  rw [installed_congr (contexts_leave w c counted), installed_setLock]

end World

namespace State

variable {s : State} {t : Task} {o : Outcome} {c : ContextId}

/-- A step changes what is installed only in a context that the thread gets at. -/
theorem Move.installed_eq (h : Move s t o) (hc : s.world.access c ≠ .granted)
    (hl : c < s.world.contexts.length) : o.1.world.installed c = s.world.installed c := by
  have ne : ∀ {d : ContextId}, s.world.access d = .granted → d ≠ c := by
    rintro d hd rfl
    exact hc hd
  cases h with
  | routine ps ht hp h hq => exact h.alike.installed c
  | configured d f ht hd h hq =>
    rw [h.alike.installed, World.installed_configure_of_ne (ne hd)]
  | created name i ht h hq => rw [h.alike.installed, World.installed_addContext hl]
  | swapped d next ps ht hd hp h hq =>
    rw [h.alike.installed, World.replace, World.installed_modifyContext_of_ne (ne hd)]
  | entered d i first rest ops ht hd hi h hq hr =>
    rw [h.alike.installed, World.installed_enter]
  | left d counted ht h hq => rw [h.alike.installed, World.installed_leave]
  | asked d i op ops a ht hd hi hn h hq => rw [h.alike.installed, World.installed_setLock]
  | unlocked d ht h hq => rw [h.alike.installed, World.installed_setLock]
  | forked p exit ht hp h hq => exact h.alike.installed c
  | lost ops ps ht hp h hq => exact h.alike.installed c
  | joined u ht h hq => exact h.alike.installed c
  | opened d sev k parts ps ht hd hp h hr hq => exact h.alike.installed c
  | kept id d sev k parts a ht hd h hr hq => exact h.alike.installed c
  | extended id m parts ht hm h hq => exact h.alike.installed c
  | closed id m a ht hm h hr hq => exact h.alike.installed c
  | ended m ht hm h hq => exact h.alike.installed c

/-- A step while the backend of a context is running: it changes nothing there, and the backend
does not begin to run again. -/
theorem Disciplined.frozen_step (h : Disciplined s) (hc : c ∈ s.entered) :
    s.step.1.world.installed c = s.world.installed c ∧
      ∀ e ∈ s.step.2, ∀ b, e.begins? ≠ some (c, b) := by
  rcases s.step_cases with hs | ⟨t, ts, -, hmove⟩
  · rw [hs]
    exact ⟨rfl, fun e he => absurd he List.not_mem_nil⟩
  · have hg : s.world.access c ≠ .granted := fun hg => (h.granted_iff c).mp hg hc
    refine ⟨hmove.installed_eq hg (World.lt_length_of_locked ((h.locked_iff c).mpr hc)), ?_⟩
    intro e he b hb
    exact hg (hmove.entered_of_begins he hb).1

/-- A run during which the backend of a context does not stop running. -/
theorem Disciplined.frozen_run {n : Nat} (h : Disciplined s)
    (hc : ∀ k < n, c ∈ (run k s).1.entered) :
    (run n s).1.world.installed c = s.world.installed c ∧
      ∀ e ∈ (run n s).2, ∀ b, e.begins? ≠ some (c, b) := by
  induction n generalizing s with
  | zero => exact ⟨rfl, fun e he => absurd he List.not_mem_nil⟩
  | succ n ih =>
    obtain ⟨hi, hb⟩ := h.frozen_step (hc 0 (by omega))
    have hrest := ih h.step fun k hk => by
      have := hc (k + 1) (by omega)
      rwa [run_succ] at this
    rw [run_succ]
    refine ⟨hrest.1.trans hi, fun e he b => ?_⟩
    rcases List.mem_append.mp he with he | he
    · exact hb e he b
    · exact hrest.2 e he b

/-! ### How long a backend runs -/

theorem Turn.exists_agenda (h : Turn s t o) : ∃ ps, o.1.agenda = ps ++ s.agenda := by
  cases h with
  | steady ps _ _ hc => exact ⟨ps, hc.agenda⟩
  | entered c ops _ _ _ hc => exact ⟨_, hc.agenda⟩
  | left c counted _ hc => exact ⟨_, hc.agenda⟩
  | asked c ops a _ _ _ hc => exact ⟨_, hc.agenda⟩
  | unlocked c _ hc => exact ⟨_, hc.agenda⟩
  | forked p exit _ _ hc => exact ⟨_, hc.agenda⟩
  | lost ops ps _ _ hc => exact ⟨_, hc.agenda⟩
  | joined u _ hc => exact ⟨_, hc.agenda⟩

/-- A backend runs until the agenda is down to the tasks below its own `leave`. -/
theorem leave_mem_run (xs ts : List Task) {counted : Bool} {n : Nat}
    (ha : s.agenda = xs ++ .leave c counted :: ts)
    (hn : ∀ k ≤ n, ts.length < (run k s).1.agenda.length) :
    ∃ ys, (run n s).1.agenda = ys ++ .leave c counted :: ts := by
  induction n generalizing s xs with
  | zero => exact ⟨xs, ha⟩
  | succ n ih =>
    have hstep : ∃ ys, s.step.1.agenda = ys ++ .leave c counted :: ts := by
      rcases s.step_cases with hs | ⟨t, rest, hat, hmove⟩
      · exact ⟨xs, by rw [hs]; exact ha⟩
      · rw [hat] at ha
        cases xs with
        | cons x xs =>
          obtain ⟨-, rfl⟩ := List.cons_eq_cons.mp ha
          obtain ⟨ps, hps⟩ := hmove.turn.exists_agenda
          exact ⟨ps ++ xs, by rw [hps]; simp⟩
        | nil =>
          -- the task `leave` itself would be done, and only the tasks below it be left
          obtain ⟨rfl, rfl⟩ := List.cons_eq_cons.mp ha
          have hlen := hn 1 (by omega)
          rw [run_succ, run_zero] at hlen
          cases hmove.turn with
          | left d counted' _ hc =>
            rw [hc.agenda] at hlen
            simp at hlen
          | steady ps ht _ _ => cases ht
          | entered d ops ht _ _ _ => cases ht
          | asked d ops a ht _ _ _ => cases ht
          | unlocked d ht _ => cases ht
          | forked p exit ht _ _ => cases ht
          | lost ops ps ht _ _ => cases ht
          | joined u ht _ => cases ht
    obtain ⟨ys, hys⟩ := hstep
    rw [run_succ]
    refine ih ys hys fun k hk => ?_
    have := hn (k + 1) (by omega)
    rwa [run_succ] at this

theorem mem_enteredOn_append_leave (xs ts : List Task) (c : ContextId) (counted : Bool) :
    c ∈ enteredOn (xs ++ .leave c counted :: ts) := by
  rw [enteredOn_append, enteredOn_leave]
  exact List.mem_append_right _ (List.mem_cons_self ..)

/-- From the beginning of a backend's run until it is left its context is running. -/
theorem entered_of_begins {e : Happening} (he : e ∈ s.step.2) {b : Backend}
    (hb : e.begins? = some (c, b)) {n : Nat}
    (hn : ∀ k < n, s.agenda.length ≤ (run k s.step.1).1.agenda.length) :
    ∀ k < n, c ∈ (run k s.step.1).1.entered := by
  obtain ⟨t, ts, ha, hmove⟩ := exists_move he
  obtain ⟨-, -, -, ops, hl⟩ := hmove.entered_of_begins he hb
  intro k hk
  obtain ⟨ys, hys⟩ := leave_mem_run [.script ops] ts (n := k) hl.agenda fun j hj => by
    have := hn j (by omega)
    rw [ha, List.length_cons] at this
    omega
  rw [entered, hys]
  exact mem_enteredOn_append_leave ys ts c _

/-- From the beginning of a backend's run until it is left its context stays as it is. -/
theorem Disciplined.installed_of_begins (h : Disciplined s) {e : Happening} (he : e ∈ s.step.2)
    {b : Backend} (hb : e.begins? = some (c, b)) {n : Nat}
    (hn : ∀ k < n, s.agenda.length ≤ (run k s.step.1).1.agenda.length) :
    (run n s.step.1).1.world.installed c = s.world.installed c := by
  obtain ⟨t, ts, -, hmove⟩ := exists_move he
  obtain ⟨-, -, -, ops, hl⟩ := hmove.entered_of_begins he hb
  refine (h.step.frozen_run (entered_of_begins he hb hn)).1.trans ?_
  rw [hl.alike.installed, World.installed_enter]

/-! ### Contexts that refuse -/

/-- Everything that the thread does with the context comes to nothing. -/
structure Refuses (s : State) (c : ContextId) : Prop where
  /-- Questions are answered as by an empty context, and the gate stays as it is. -/
  context : ∀ o answer, s.onContext c o answer = (s.respond (answer o.denied)).quietly
  message : ∀ sev k, (s.world.newMessage c sev k).worth = false
  write : ∀ m, s.write c m = s.quietly
  drop : ∀ m, m.context = c → s.drop m = (s, [.dropped m])
  flush : s.flush c = s.quietly
  /-- What was to be installed is destroyed instead. -/
  swap : ∀ next, s.swap c next =
    (s.push (destroying (next.map (·.backend)) ++ [.emit (notSwapped next)])).quietly

theorem refuses_of_access (h : s.world.access c = .refused) : Refuses s c where
  context o answer := by
    have hw := World.applyContext_of_not_granted (w := s.world) (c := c) (by simp [h]) o
    simp only [onContext, accessing, h, hw]
    rfl
  message sev k := World.shouldLog_of_not_granted (by simp [h]) sev k
  write m := by simp only [State.write, accessing, h]
  drop m hm := by
    subst hm
    simp only [State.drop, State.write, accessing, h]
    split <;> rfl
  flush := by simp only [State.flush, accessing, h]
  swap next := by simp only [State.swap, accessing, h]

/-- A context whose backend runs, from its beginning to its end. -/
structure Frozen (s : State) (c : ContextId) : Prop where
  /-- While the backend is running on the thread, the thread is refused. -/
  refuses : c ∈ s.stack → ∀ ts, Refuses { s with agenda := ts } c
  /-- When a backend begins to run, its context stays as it is until the backend is left, and no
  message and no flush comes to it meanwhile, whoever runs. -/
  frozen : ∀ e ∈ s.step.2, ∀ b, e.begins? = some (c, b) → ∀ n,
    (∀ k < n, s.agenda.length ≤ (run k s.step.1).1.agenda.length) →
      (∀ k < n, c ∈ (run k s.step.1).1.entered) ∧
      (run n s.step.1).1.world.installed c = s.world.installed c ∧
      ∀ e' ∈ (run n s.step.1).2, ∀ b', e'.begins? ≠ some (c, b')

/-- **A running context is frozen**, in every state that a program can reach. -/
theorem running_context_frozen (program : Program) (m : Nat) (c : ContextId) :
    Frozen (run m (start program)).1 c := by
  have h := disciplined_run program m
  generalize (run m (start program)).1 = s at h
  refine ⟨fun hc ts => refuses_of_access ?_, fun e he b hb n hn => ?_⟩
  · show s.world.access c = .refused
    rw [h.access_eq, if_pos hc]
  · obtain ⟨t, ts, ha, hmove⟩ := exists_move he
    obtain ⟨-, -, -, ops, hl⟩ := hmove.entered_of_begins he hb
    have hlen : s.agenda.length = ts.length + 1 := by rw [ha, List.length_cons]
    have hentered : ∀ k < n, c ∈ (run k s.step.1).1.entered := by
      intro k hk
      obtain ⟨ys, hys⟩ := leave_mem_run [.script ops] ts (n := k) hl.agenda fun j hj => by
        have := hn j (by omega)
        omega
      rw [entered, hys]
      exact mem_enteredOn_append_leave ys ts c _
    obtain ⟨hi, hb'⟩ := h.step.frozen_run hentered
    refine ⟨hentered, hi.trans ?_, hb'⟩
    rw [hl.alike.installed, World.installed_enter]

end State

end GatedLog
