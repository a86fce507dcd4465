import GatedLog.Proofs.Machine.Balance
import GatedLog.Proofs.Machine.Frozen

/-!
# Contexts after unwinding

Operations of a backend may panic, and the call that runs them is then given up. What such a call
leaves behind is a context as good as new (`Restored`): a backend that was running is still in
place, a swap has been done although its destructor did not return, and a refused one has not; the
locks and the thread are as before, and no news of the swap has gone out (`unwinding_consistent`).
-/

namespace GatedLog

namespace World

/-- A context made anew, with something installed and locked or not. -/
def renew (w : World) (c : ContextId) (i : Option Installed) (locked : Bool) : World :=
  w.modifyContext c fun _ => { installed := i, locked := locked }

theorem renew_eq_self (w : World) (c : ContextId) :
    w.renew c (w.installed c) (w.context c).locked = w := by
  have hcontexts : w.contexts.modify c
      (fun _ => { installed := w.installed c, locked := (w.context c).locked }) = w.contexts := by
    refine List.ext_getElem? fun i => ?_
    rw [List.getElem?_modify]
    split
    · next h =>
      subst h
      rw [installed, context]
      cases w.contexts[c]? <;> rfl
    · cases w.contexts[i]? <;> rfl
  rw [renew, modifyContext, hcontexts]

theorem installed_eq_fitted (w : World) (c : ContextId) :
    w.installed c = w.fitted[c]?.getD none := by
  rw [installed, context, fitted, List.getElem?_map]
  cases w.contexts[c]? <;> rfl

theorem installed_of_fitted {w v : World} (h : v.fitted = w.fitted) (c : ContextId) :
    v.installed c = w.installed c := by
  rw [installed_eq_fitted, h, installed_eq_fitted]

theorem installed_of_fitted_append {w v : World} {i : Option Installed} {c : ContextId}
    (hc : c < w.contexts.length) (h : v.fitted = w.fitted ++ [i]) :
    v.installed c = w.installed c := by
  rw [installed_eq_fitted, h, List.getElem?_append_left (by rwa [length_fitted]),
    installed_eq_fitted]

theorem installed_of_adjusted {w v : World} {c d : ContextId} {f : Gate → Gate}
    (h : v.fitted = w.fitted.modify d (·.map fun i => { i with gate := f i.gate })) :
    v.installed c = if d = c then (w.installed c).map fun i => { i with gate := f i.gate }
      else w.installed c := by
  rw [installed_eq_fitted, h, List.getElem?_modify, installed_eq_fitted]
  split <;> rcases w.fitted[c]? with _ | (_ | i) <;> rfl

end World

namespace State

variable {s : State} {c : ContextId}

/-! ### Steps that change what is installed -/

/-- The next step puts something else, or nothing, into the context. -/
def Replaces (s : State) (c : ContextId) : Prop :=
  s.condition = .running ∧ s.world.access c = .granted ∧ ∃ next ts, s.agenda = .swap c next :: ts

/-- The next step adjusts the gate of the context. -/
def Adjusts (s : State) (c : ContextId) : Prop :=
  s.condition = .running ∧ ∃ op ts, s.agenda = .begin op :: ts ∧ op.adjusted? s.world = some c

theorem installed_unwind (s : State) (text : String) (t : Task) (c : ContextId) :
    (s.unwind text t).1.world.installed c = s.world.installed c := by
  have give : ∀ b, (s.giveUp text b).1.world.installed c = s.world.installed c := fun b => by
    cases b <;> rfl
  cases t with
  | leave d counted => exact World.installed_leave _ d c counted
  | unlock d => exact World.installed_setLock _ d c false
  | join u => rfl
  | report => rfl
  | resume text' => rfl
  | _ => exact give _

/-- What is installed changes only where it is replaced or its gate adjusted. -/
theorem installed_step (hc : c < s.world.contexts.length) (hr : ¬ Replaces s c) :
    s.step.1.world.installed c = s.world.installed c ∨
      Adjusts s c ∧ ∃ f : Gate → Gate, s.step.1.world.installed c =
        (s.world.installed c).map fun i => { i with gate := f i.gate } := by
  rcases s.step_trade with ⟨hs, -⟩ | ⟨t, ts, ha, hrun | ⟨text, hu⟩, htrade⟩
  · exact .inl (by rw [hs])
  · cases htrade with
    | idle h => exact .inl (World.installed_of_fitted h.stocked.fitted c)
    | announced e ht hg hw => exact .inl (by rw [hw])
    | adjusted op d f ht hd hg hf =>
      have hi := World.installed_of_adjusted (c := c) hf
      by_cases hdc : d = c
      · subst hdc
        rw [if_pos rfl] at hi
        exact .inr ⟨⟨hrun, op, ts, ht ▸ ha, hd⟩, f, hi⟩
      · rw [if_neg hdc] at hi
        exact .inl hi
    | registered ht hg hf => exact .inl (World.installed_of_fitted hf c)
    | opened name ht hg hf => exact .inl (World.installed_of_fitted_append hc hf)
    | created name i hs hg hf => exact .inl (World.installed_of_fitted_append hc hf)
    | called d i p hs hp hg hf => exact .inl (World.installed_of_fitted hf c)
    | chose step steps chosen b w g g' gates target ht hb hm =>
      exact .inl (World.installed_of_fitted hm.fitted c)
    | tuned step steps chosen g g' gates gates' target ht hg hw =>
      exact .inl (World.installed_of_fitted hw.fitted c)
    | failed step steps chosen g gates target f a ht hb hg hw =>
      exact .inl (World.installed_of_fitted hw.fitted c)
    | swapped d next e ht hd hg hw =>
      have hdc : d ≠ c := by
        rintro rfl
        exact hr ⟨hrun, hd, next, ts, ht ▸ ha⟩
      rw [hw]
      exact .inl (World.installed_modifyContext_of_ne hdc _)
    | refused d next e ht hd hg hw => exact .inl (by rw [hw])
    | stuck d next ht hd hr hs => exact .inl (by rw [hs])
    | destroyed b ops ht hg hw => exact .inl (by rw [hw])
    | givenUp b text ht hu hg hw => exact .inl (by rw [hw])
  · left
    simp only [step, hu, ha]
    exact installed_unwind _ text t c

theorem length_contexts_step (s : State) :
    s.world.contexts.length ≤ s.step.1.world.contexts.length := by
  rcases s.step_trade with ⟨hs, -⟩ | ⟨t, ts, -, -, htrade⟩
  · exact Nat.le_of_eq (by rw [hs])
  · rcases htrade.names with ⟨-, hl⟩ | ⟨-, -, hl⟩
    · exact Nat.le_of_eq hl.symm
    · exact hl.symm ▸ Nat.le_succ _

/-- A backend stays where it is as long as nothing is put in its place, and its gate stays as it is
as long as nothing adjusts it. -/
theorem installed_run {n : Nat} (hc : c < s.world.contexts.length)
    (hr : ∀ k < n, ¬ Replaces (run k s).1 c) :
    ((run n s).1.world.installed c).map (·.backend) = (s.world.installed c).map (·.backend) ∧
      ((∀ k < n, ¬ Adjusts (run k s).1 c) →
        (run n s).1.world.installed c = s.world.installed c) := by
  induction n generalizing s with
  | zero => exact ⟨rfl, fun _ => rfl⟩
  | succ n ih =>
    have hrest := ih (Nat.lt_of_lt_of_le hc s.length_contexts_step) fun k hk => by
      have := hr (k + 1) (by omega)
      rwa [run_succ] at this
    rw [run_succ]
    constructor
    · refine hrest.1.trans ?_
      rcases installed_step hc (hr 0 (by omega)) with hi | ⟨-, f, hi⟩
      · rw [hi]
      · rw [hi, Option.map_map]
        rfl
    · intro ha
      refine (hrest.2 fun k hk => ?_).trans ?_
      · have := ha (k + 1) (by omega)
        rwa [run_succ] at this
      · exact (installed_step hc (hr 0 (by omega))).resolve_right fun h => ha 0 (by omega) h.1

/-! ### Calls that unwind -/

/-- After `n` steps, and not before, the first task has been given up in the course of unwinding. -/
def Unwinds (s : State) (n : Nat) : Prop :=
  s.Completes n ∧ ∃ text, (run n s).1.condition = .unwinding text

/-- In the state `u` the context `c` has `x` installed, and that is all that can be seen of what has
been going on since the state `s`. -/
structure Restored (s u : State) (c : ContextId) (x : Option Installed) : Prop where
  installed : u.world.installed c = x
  /-- Among the rest, the list of the running contexts. -/
  thread : u.world.thread = s.world.thread
  locked : ∀ d, (u.world.context d).locked = (s.world.context d).locked
  /-- Whatever is done later goes as with a context made anew. -/
  later : ∀ v : State, v.world = u.world → ∀ k,
    run k v = run k (v.withWorld (u.world.renew c x (s.world.context c).locked))

/-- No news of a swap above the tasks `ts` has gone out: the news that there was came from deeper
calls. -/
def Unannounced (s : State) (ts : List Task) (n : Nat) : Prop :=
  ∀ k < n, ∀ e : Event, e.isLifecycle = true → .emitted e ∈ (run k s).1.step.2 →
    ∃ us, (run k s).1.agenda = .emit e :: us ∧ ts.length < us.length

/-- What calls that unwind leave behind. -/
structure Consistent (s : State) : Prop where
  /-- A backend that unwinds while it is written to or flushed is still in place, behind the same
  gate. -/
  running : ∀ e ∈ s.step.2, ∀ c b, e.begins? = some (c, b) → ∀ n, s.Unwinds n →
    Restored s (run n s).1 c (s.world.installed c) ∧
    ((run n s).1.world.context c).locked = false
  /-- Where the destructor of what has been replaced unwinds, the swap has been done, unless the
  destructor has done another one. -/
  swapped : ∀ c next ts, s.condition = .running → s.agenda = .swap c next :: ts →
    s.world.access c = .granted → ∀ n, s.Unwinds n →
    Restored s (run n s).1 c ((run n s).1.world.installed c) ∧
    ((run n s).1.world.context c).locked = false ∧ Unannounced s ts n ∧
    ((∀ k, 0 < k → k < n → ¬ Replaces (run k s).1 c) →
      ((run n s).1.world.installed c).map (·.backend) = next.map (·.backend) ∧
      ((∀ k, 0 < k → k < n → ¬ Adjusts (run k s).1 c) → (run n s).1.world.installed c = next))
  /-- Where the destructor of what has been refused unwinds, the context is as it was, and the
  thread that is running its backend still does so. -/
  refused : ∀ c next ts, s.condition = .running → s.agenda = .swap c next :: ts →
    s.world.access c = .refused → ∀ n, s.Unwinds n →
    Restored s (run n s).1 c (s.world.installed c) ∧ c ∈ s.entered ∧
    (s.world.thread.tracking = true → c ∈ s.stack) ∧ Unannounced s ts n

/-- What is below a task stays below it until the task has been done or given up. -/
theorem Completes.agenda_above {t : Task} {ts : List Task} {n : Nat} (h : s.Completes n)
    (ha : s.agenda = t :: ts) (ht : t.isSteady = true) {k : Nat} (hk : k ≤ n) :
    ∃ ys, (run k s).1.agenda = ys ++ ts := by
  have hfits : Fits s.world.thread [t] s.world.thread := Fits.push [t] (by simpa using ht) rfl
  obtain ⟨ys, hys, -⟩ := fits_run [t] ts (n := k) ha hfits fun j hj => by
    have := h.2 j (Nat.lt_of_lt_of_le hj hk)
    rw [ha] at this
    exact this
  exact ⟨ys, hys⟩

theorem Disciplined.after (h : Disciplined s) (n : Nat) : Disciplined (run n s).1 :=
  run_induction (fun _ => Disciplined.step) n h

/-- Locks and thread are as before. -/
theorem Completes.restored {t : Task} {ts : List Task} {n : Nat} {x : Option Installed}
    (h : s.Completes n) (hd : Disciplined s) (ha : s.agenda = t :: ts) (ht : t.isSteady = true)
    (hx : (run n s).1.world.installed c = x) : Restored s (run n s).1 c x := by
  obtain ⟨hts, hthread⟩ := h.thread_eq ha ht
  have hentered : (run n s).1.entered = s.entered := by
    rw [entered, hts, entered, ha, enteredOn_cons_of_plain (Task.isPlain_of_isSteady ht)]
  have hlocked : ∀ d, ((run n s).1.world.context d).locked = (s.world.context d).locked :=
    fun d => Bool.eq_iff_iff.mpr <| by rw [(hd.after n).locked_iff, hentered, ← hd.locked_iff]
  refine ⟨hx, hthread, hlocked, fun v hv k => ?_⟩
  rw [← hx, ← hlocked c, World.renew_eq_self, ← hv]
  rfl

theorem not_lifecycle_of_mild {e : Event} (h : (Happening.emitted e).isMild = true) :
    e.isLifecycle = false := by
  simpa [Happening.isMild] using h

/-- News of a swap goes out where it is next on the agenda, and the run goes on normally. -/
theorem emit_of_lifecycle {e : Event} (he : e.isLifecycle = true)
    (hm : .emitted e ∈ s.step.2) :
    ∃ us, s.agenda = .emit e :: us ∧ s.step.1.agenda = us ∧ s.step.1.condition = .running := by
  have mild : ¬ ∀ e' ∈ s.step.2, e'.isMild = true := fun h => by
    rw [not_lifecycle_of_mild (h _ hm)] at he
    cases he
  have some_happening : ∀ {hs : List Happening}, s.step.2 = hs → .emitted e ∈ hs := by
    rintro _ rfl
    exact hm
  rcases s.step_trade with ⟨hs, -⟩ | ⟨t, ts, ha, -, htrade⟩
  · rw [hs] at hm
    cases hm
  · cases htrade with
    | idle h => exact absurd h.quiet mild
    | tuned step steps chosen g g' gates gates' target ht hg hw hr hq => exact absurd hq mild
    | announced e' ht hg hw hr hq =>
      have he' := some_happening hq
      simp only [List.mem_singleton, Happening.emitted.injEq] at he'
      subst he'
      exact ⟨ts, ht ▸ ha, hg.agenda, hr⟩
    | stuck d next ht hd hr hs =>
      rw [hs] at hm
      cases hm
    | destroyed b ops _ hg hw hr hq => simpa using some_happening hq
    | _ => exact absurd (some_happening ‹s.step.2 = []›) List.not_mem_nil

theorem Unwinds.unannounced {t : Task} {ts : List Task} {n : Nat} (h : s.Unwinds n)
    (ha : s.agenda = t :: ts) : Unannounced s ts n := by
  obtain ⟨hc, text, hu⟩ := h
  intro k hk e he hm
  obtain ⟨us, hus, hnext, hr⟩ := emit_of_lifecycle he hm
  refine ⟨us, hus, ?_⟩
  have hlen := hc.2 k hk
  rw [ha, hus, List.length_cons, List.length_cons] at hlen
  -- the news of the call itself would end it, and normally
  rcases Nat.lt_or_eq_of_le (Nat.le_of_succ_le_succ hlen) with hlt | heq
  · exact hlt
  · rcases Nat.lt_or_eq_of_le (Nat.succ_le_of_lt hk) with hkn | rfl
    · have := hc.2 (k + 1) hkn
      rw [ha, run_next, hnext, List.length_cons] at this
      omega
    · rw [run_next, hr] at hu
      cases hu

/-- A run of a backend is not begun by the end of a thread. -/
theorem steady_of_begins {e : Happening} (he : e ∈ s.step.2) {b : Backend}
    (hb : e.begins? = some (c, b)) {t : Task} {ts : List Task} (ha : s.agenda = t :: ts) :
    t.isSteady = true := by
  obtain ⟨t', ts', ha', hmove⟩ := exists_move he
  obtain ⟨rfl, rfl⟩ := List.cons_eq_cons.mp (ha.symm.trans ha')
  obtain ⟨-, -, ⟨_, ht⟩, -⟩ := hmove.entered_of_begins he hb
  cases ht <;> rfl

/-- The backend of a context that unwinds is still in place. -/
theorem Disciplined.running_consistent (hd : Disciplined s) {e : Happening} (he : e ∈ s.step.2)
    {b : Backend} (hb : e.begins? = some (c, b)) {n : Nat} (hc : s.Completes n) :
    Restored s (run n s).1 c (s.world.installed c) ∧
      ((run n s).1.world.context c).locked = false := by
  obtain ⟨t, ts, ha, hmove⟩ := exists_move he
  obtain ⟨hg, -⟩ := hmove.entered_of_begins he hb
  have hx : (run n s).1.world.installed c = s.world.installed c := by
    cases n with
    | zero => exact absurd hc.1 (Nat.lt_irrefl _)
    | succ n =>
      rw [run_succ]
      refine hd.installed_of_begins he hb fun k hk => ?_
      have := hc.2 (k + 1) (by omega)
      rwa [run_succ] at this
  have hr := hc.restored hd ha (steady_of_begins he hb ha) hx
  exact ⟨hr, (hr.locked c).trans (World.not_locked_of_granted hg)⟩

/-- Where a swap has been done, what was put into the context is there, unless it has been replaced
since. -/
theorem installed_of_swapped {next : Option Installed} {ts : List Task} {n : Nat}
    (hl : c < s.world.contexts.length) (hr : s.condition = .running)
    (ha : s.agenda = .swap c next :: ts) (hg : s.world.access c = .granted) (hn : 0 < n)
    (hrep : ∀ k, 0 < k → k < n → ¬ Replaces (run k s).1 c) :
    ((run n s).1.world.installed c).map (·.backend) = next.map (·.backend) ∧
      ((∀ k, 0 < k → k < n → ¬ Adjusts (run k s).1 c) →
        (run n s).1.world.installed c = next) := by
  have hstep : s.step.1.world.installed c = next := by
    simp only [step_of_running hr ha, perform, swap, accessing, hg]
    show (s.world.replace c next).installed c = next
    rw [World.replace, World.installed, World.context_modifyContext, if_pos ⟨rfl, hl⟩]
  cases n with
  | zero => exact absurd hn (Nat.lt_irrefl 0)
  | succ n =>
    have hrest := installed_run (n := n) (Nat.lt_of_lt_of_le hl s.length_contexts_step)
      fun k hk => by
        have := hrep (k + 1) (Nat.succ_pos k) (by omega)
        rwa [run_succ] at this
    rw [run_succ, ← hstep]
    refine ⟨hrest.1, fun hadj => hrest.2 fun k hk => ?_⟩
    have := hadj (k + 1) (Nat.succ_pos k) (by omega)
    rwa [run_succ] at this

/-- A call that is refused leaves the context as it is, since it goes on running. -/
theorem Disciplined.refused_consistent (hd : Disciplined s) {next : Option Installed}
    {ts : List Task} (ha : s.agenda = .swap c next :: ts) (hc : s.world.access c = .refused)
    {n : Nat} (h : s.Completes n) : Restored s (run n s).1 c (s.world.installed c) := by
  refine h.restored hd ha rfl (hd.frozen_run fun k hk => ?_).1
  have hts : c ∈ enteredOn ts := by
    have := hd.mem_entered_of_refused hc
    rwa [entered, ha, enteredOn_cons_of_plain rfl] at this
  obtain ⟨ys, hys⟩ := h.agenda_above ha rfl (Nat.le_of_lt hk)
  rw [entered, hys, enteredOn_append]
  exact List.mem_append_right _ hts

/-- **Unwinding leaves contexts consistent**, in every state that a program can reach. -/
theorem unwinding_consistent (program : Program) (m : Nat) :
    Consistent (run m (start program)).1 := by
  have hd := disciplined_run program m
  have haddr := addressed_run program m
  generalize (run m (start program)).1 = s at hd haddr
  exact {
    running := fun e he c b hb n hn => hd.running_consistent he hb hn.1
    swapped := by
      intro c next ts hr ha hg n hn
      have hrest : Restored s (run n s).1 c _ := hn.1.restored hd ha rfl rfl
      have hl := haddr.aimed (.swap c next) (by rw [ha]; exact List.mem_cons_self ..) c rfl
      have hpos : 0 < n := Nat.pos_of_ne_zero fun h => by
        subst h
        exact Nat.lt_irrefl _ hn.1.1
      exact ⟨hrest, (hrest.locked c).trans (World.not_locked_of_granted hg),
        hn.unannounced ha, installed_of_swapped hl hr ha hg hpos⟩
    refused := by
      intro c next ts hr ha hc n hn
      have he := hd.mem_entered_of_refused hc
      refine ⟨hd.refused_consistent ha hc hn.1, he, fun ht => ?_, hn.unannounced ha⟩
      by_contra hs
      rw [hd.access_eq, if_neg hs, if_pos he, if_pos ht] at hc
      cases hc }

/-- The destructor of a backend panics while its context is emptied: the call unwinds, and the
context is empty. -/
example :
    let s := (run 17 (start { ops := [.install .global (.scripted "s" [] [] [.panic "x"]) Gate.unrestricted,
      .remove .global] })).1
    (s.condition, (s.world.installed World.global).isNone) =
      (.unwinding "backend panic: x", true) := rfl

end State

end GatedLog
