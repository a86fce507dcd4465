import GatedLog.Proofs.Machine.BuilderRuns
import GatedLog.Proofs.Machine.Calls

/-!
# One event for every call

A call that swaps backends is decided in two steps (`Calls.run_two`): the backend is in its context,
or the thread is refused and the context stays as it is. What the call discards is destroyed then,
which may take any number of calls that are made meanwhile, each with an event of its own. The event
of the call itself comes last of all (`Settled`). What makes or builds a context has no such event.
-/

namespace GatedLog.State

variable {s u : State} {c : ContextId} {next : Option Installed} {t : Task} {ts : List Task}
  {a : Answer} {n k : Nat}

/-- The backend that a call gets rid of: the one that it replaces or, if it is refused, its own. -/
def discarded (s : State) (c : ContextId) (next : Option Installed) : Option Backend :=
  if s.ShutOut c then next.map (·.backend) else (s.world.installed c).map (·.backend)

/-- In the state `u` the call `t` is decided, and its event waits for the end of what it discards. -/
structure Decided (s u : State) (c : ContextId) (next : Option Installed) (t : Task)
    (ts : List Task) : Prop where
  running : u.condition = .running
  agenda : u.agenda =
    destroying (s.discarded c next) ++ .emit (s.verdict c next) :: .respond (reply t) :: ts
  /-- A call that is not refused has put the backend into the context. -/
  replaced : ¬ s.ShutOut c → u.world.installed c = next
  /-- One that is refused has left it as it is, and it is still running. -/
  refused : s.ShutOut c → u.ShutOut c ∧ u.world.installed c = s.world.installed c
  others : ∀ d, d ≠ c → u.world.installed d = s.world.installed d

/-- The call that begins after `i` steps emits the event in the step after `k`. -/
def Emits (s : State) (i k : Nat) (e : Event) : Prop :=
  .emitted e ∈ (run k s).1.step.2 ∧ ∃ c next t ts, Reports s i k c next t ts e

/-- What becomes of a call that ends after `n` steps, and in no panic. -/
structure Settled (s : State) (c : ContextId) (next : Option Installed) (t : Task) (ts : List Task)
    (n k : Nat) : Prop where
  decided : Decided s (run 2 s).1 c next t ts
  /-- Up to then nothing happens that could be observed. -/
  silent : (run 2 s).2 = []
  /-- Then what the call discards is destroyed, and all that happens until the event comes of that. -/
  within : 2 ≤ k ∧ ∀ j, 2 ≤ j → j < k → ∃ ys, ys ≠ [] ∧
    (run j s).1.agenda = ys ++ .emit (s.verdict c next) :: .respond (reply t) :: ts
  destroyed : ∃ hs, (run k s).2 = ((s.discarded c next).map .destroyed).toList ++ hs
  /-- A context that the thread is refused goes on running all the time, and stays as it is. -/
  frozen : s.ShutOut c → ∀ j, 2 ≤ j → j ≤ k →
    c ∈ (run j s).1.entered ∧ (run j s).1.world.installed c = s.world.installed c
  /-- The event is the last thing that happens. -/
  last : n = k + 2 ∧ run n s = ({ (run k s).1 with agenda := ts, answer := reply t },
    (run k s).2 ++ [.emitted (s.verdict c next)])
  /-- It is the only one of the call. -/
  only : ∀ j < n, ∀ e, e.isLifecycle = true → (Emits s 0 j e ↔ j = k ∧ e = s.verdict c next)
  /-- All others are those of calls that are made in the course of the destruction. -/
  nested : ∀ j < k, ∀ e, e.isLifecycle = true → .emitted e ∈ (run j s).1.step.2 →
    ∃ i, 2 < i ∧ ∃ d next' t' xs, Reports s i j d next' t'
      (xs ++ .emit (s.verdict c next) :: .respond (reply t) :: ts) e

/-! ### How a call is decided -/

theorem Calls.run_two (h : Calls s c next t ts) (hd : Disciplined s) (ha : Addressed s)
    (hheld : ¬ s.HeldUp c) : Decided s (run 2 s).1 c next t ts ∧ (run 2 s).2 = [] := by
  obtain ⟨w, halike, hstep⟩ := h.step
  have hl : c < w.contexts.length := by
    have := ha.step.aimed (.swap c next) (by rw [hstep]; exact List.mem_cons_self ..) c rfl
    rwa [hstep] at this
  have hagenda : s.step.1.agenda = .swap c next :: .respond (reply t) :: ts := by rw [hstep]
  have hswap := step_of_running (by rw [hstep]; exact h.running) hagenda
  by_cases hout : s.ShutOut c
  · have hrefused : w.access c = .refused := by
      rw [halike.access]
      exact (hd.refused_iff c).mpr hout
    have hrun : run 2 s = ({ s with
        world := w
        agenda := destroying (s.discarded c next) ++
          .emit (s.verdict c next) :: .respond (reply t) :: ts }, []) := by
      rw [run_succ, run_succ, run_zero, hswap, hstep, discarded, verdict, if_pos hout, if_pos hout]
      simp only [quietly, push, perform, swap, accessing, hrefused, List.append_assoc]
      rfl
    have hd' := hd.after 2
    rw [hrun] at hd' ⊢
    refine ⟨⟨h.running, rfl, fun hn => absurd hout hn, fun _ => ?_,
      fun d _ => halike.installed d⟩, rfl⟩
    exact ⟨(hd'.refused_iff c).mp hrefused, halike.installed c⟩
  · have hgranted : w.access c = .granted := by
      rw [halike.access]
      exact hd.granted hout hheld
    have hrun : run 2 s = ({ s.register with
        world := w.replace c next
        agenda := destroying (s.discarded c next) ++
          .emit (s.verdict c next) :: .respond (reply t) :: ts }, []) := by
      rw [run_succ, run_succ, run_zero, hswap, hstep, discarded, verdict, if_neg hout, if_neg hout]
      simp only [quietly, push, withWorld, perform, swap, accessing, hgranted, halike.installed,
        List.append_assoc]
      rfl
    rw [hrun]
    refine ⟨⟨h.running, rfl, fun _ => World.installed_replace hl next, fun hs => absurd hs hout,
      fun d hdc => ?_⟩, rfl⟩
    exact (World.installed_modifyContext_of_ne (Ne.symm hdc) _).trans (halike.installed d)

/-- A call that waits for a thread that waits for this one never comes to an event. -/
theorem Calls.run_heldUp (h : Calls s c next t ts) (hd : Disciplined s) (hheld : s.HeldUp c)
    (hn : 2 ≤ n) : (run n s).1.condition = .blocked ∧ (run n s).2 = [] := by
  obtain ⟨w, halike, hstep⟩ := h.step
  have hblocked : w.access c = .blocked := by
    rw [halike.access]
    exact (hd.blocked_iff c).mpr hheld
  have hagenda : s.step.1.agenda = .swap c next :: .respond (reply t) :: ts := by rw [hstep]
  have hswap := step_of_running (by rw [hstep]; exact h.running) hagenda
  have hrun : (run 2 s).1.condition = .blocked ∧ (run 2 s).2 = [] := by
    rw [run_succ, run_succ, run_zero, hswap, hstep]
    simp only [perform, swap, accessing, hblocked]
    exact ⟨trivial, rfl⟩
  obtain ⟨m, rfl⟩ := Nat.exists_eq_add_of_le hn
  rw [run_add, run_of_halted (halted_of_condition (.inl hrun.1)), hrun.2]
  exact ⟨hrun.1, rfl⟩

/-! ### The end of a call -/

/-- The event and the answer of a call are the last two steps. -/
theorem run_emit {e : Event} (hr : u.condition = .running)
    (ha : u.agenda = .emit e :: .respond a :: ts) :
    run 2 u = ({ u with agenda := ts, answer := a }, [.emitted e]) := by
  have hemit : u.step = ({ u with agenda := .respond a :: ts }, [.emitted e]) :=
    (step_of_running hr ha).trans rfl
  have hanswer : ({ u with agenda := .respond a :: ts } : State).step =
      ({ u with agenda := ts, answer := a }, []) :=
    (step_of_running (s := { u with agenda := .respond a :: ts }) hr rfl).trans rfl
  rw [run_succ, hemit, run_succ, hanswer, run_zero]
  rfl

/-- In a panic there is neither. -/
theorem run_emit_unwinding {e : Event} {text : String} (hr : u.condition = .unwinding text)
    (ha : u.agenda = .emit e :: .respond a :: ts) : run 2 u = ({ u with agenda := ts }, []) := by
  have hemit : u.step = ({ u with agenda := .respond a :: ts }, []) := by
    simp only [State.step, hr, ha]
    rfl
  have hanswer : ({ u with agenda := .respond a :: ts } : State).step =
      ({ u with agenda := ts }, []) := by
    simp only [State.step, hr]
    rfl
  rw [run_succ, hemit, run_succ, hanswer, run_zero]
  rfl

/-- The event comes when what is discarded is gone, and then the answer, unless there is a panic. -/
theorem exists_emit {e : Event} {ys : List Task} (ha : u.agenda = ys ++ .emit e :: .respond a :: ts)
    (hr : (run n u).1.condition = .running) (hn : (run n u).1.agenda.length ≤ ts.length)
    (hbefore : ∀ j < n, ts.length < (run j u).1.agenda.length) :
    ∃ k, n = k + 2 ∧ run n u = ({ (run k u).1 with agenda := ts, answer := a },
        (run k u).2 ++ [.emitted e]) ∧ (run k u).1.condition = .running ∧
      (run k u).1.agenda = .emit e :: .respond a :: ts ∧
      ∀ j < k, ∃ ys, ys ≠ [] ∧ (run j u).1.agenda = ys ++ .emit e :: .respond a :: ts := by
  obtain ⟨k, hk, hak, hfirst⟩ := exists_first _ ha (Nat.le_trans hn (Nat.le_succ _))
  have hend : (run (k + 2) u).1.agenda = ts → n = k + 2 := fun hts => by
    have hshort : ¬ k + 2 < n := fun hlt => by
      have := hbefore (k + 2) hlt
      rw [hts] at this
      exact Nat.lt_irrefl _ this
    have hlong : n ≠ k + 1 := by
      rintro rfl
      obtain ⟨zs, hzs⟩ :=
        agenda_step_above (show _ = [.emit e] ++ .respond a :: ts from hak) (by simp)
      rw [run_next, hzs, List.length_append, List.length_cons] at hn
      omega
    omega
  cases hc : (run k u).1.condition with
  | running =>
    have hlast := run_emit hc hak
    obtain rfl := hend (by rw [run_add, hlast])
    exact ⟨k, rfl, by rw [run_add, hlast], hc, hak, hfirst⟩
  | unwinding text =>
    have hlast := run_emit_unwinding hc hak
    obtain rfl := hend (by rw [run_add, hlast])
    rw [run_add, hlast] at hr
    cases hc.symm.trans hr
  | _ =>
    rw [show n = k + (n - k) by omega, run_add,
      run_of_halted (halted_of_condition (by simp [hc])), hc] at hr
    cases hr

/-- Calls are neither swaps nor events, and end no run of a backend. -/
theorem Calls.isPlain (h : Calls s c next t ts) : t.isPlain = true ∧ t.isErrand = false := by
  have hcall := h.call
  unfold call? at hcall
  split at hcall
  all_goals first | exact ⟨rfl, rfl⟩ | cases hcall

theorem Calls.entered (h : Calls s c next t ts) (hd : Disciplined s) (hout : s.ShutOut c) :
    c ∈ enteredOn ts := by
  have he := hd.mem_entered_of_refused ((hd.refused_iff c).mpr hout)
  rwa [State.entered, h.agenda, enteredOn_cons_of_plain h.isPlain.1] at he

theorem Completes.two_lt (h : Calls s c next t ts) (hn : s.Completes n) : 2 < n := by
  obtain ⟨w, -, hstep⟩ := h.step
  have hlength := hn.1
  rw [h.agenda, List.length_cons] at hlength
  by_contra hle
  obtain rfl | rfl | rfl : n = 0 ∨ n = 1 ∨ n = 2 := by omega
  · rw [run_zero, h.agenda, List.length_cons] at hlength
    omega
  · rw [run_next, run_zero, hstep] at hlength
    simp only [List.length_cons] at hlength
    omega
  · obtain ⟨zs, hzs⟩ := agenda_step_above (s := s.step.1)
      (show _ = [.swap c next] ++ .respond (reply t) :: ts by rw [hstep]; rfl) (by simp)
    rw [run_next, run_next, run_zero, hzs, List.length_append, List.length_cons] at hlength
    omega

theorem Calls.not_heldUp (h : Calls s c next t ts) (hd : Disciplined s) (hn : s.Completes n)
    (hr : (run n s).1.condition = .running) : ¬ s.HeldUp c := fun hheld => by
  have hblocked := (h.run_heldUp hd hheld (Nat.le_of_lt (hn.two_lt h))).1
  cases hr.symm.trans hblocked

/-- What is discarded is destroyed first. -/
theorem exists_destroyed {d : Option Backend} {us : List Task} (hr : u.condition = .running)
    (ha : u.agenda = destroying d ++ us) (hk : (run k u).1.agenda = us) :
    ∃ hs, (run k u).2 = (d.map .destroyed).toList ++ hs := by
  cases d with
  | none => exact ⟨_, rfl⟩
  | some b =>
    cases k with
    | zero =>
      rw [run_zero, ha] at hk
      have := congrArg List.length hk
      simp [State.destroying] at this
    | succ k =>
      refine ⟨(run k u.step.1).2, ?_⟩
      rw [run_succ, step_of_running hr ha]
      rfl

/-- In a run in which nothing happens nothing happens in any step. -/
theorem step_of_silent {j : Nat} (h : (run n s).2 = []) (hj : j < n) : (run j s).1.step.2 = [] := by
  rw [show n = j + 1 + (n - (j + 1)) by omega, run_add, run_next] at h
  exact (List.append_eq_nil_iff.mp (List.append_eq_nil_iff.mp h).1).2

/-! ### The course of a call -/

/-- The course of a call that ends after `n` steps: its event waits from the step on in which the call
is decided, and is next after `k` steps. -/
structure Course (s : State) (c : ContextId) (next : Option Installed) (t : Task) (ts : List Task)
    (n k : Nat) : Prop where
  call : Calls s c next t ts
  decided : Decided s (run 2 s).1 c next t ts
  silent : (run 2 s).2 = []
  two_le : 2 ≤ k
  waits : ∀ j, 2 ≤ j → j < k → ∃ ys, ys ≠ [] ∧
    (run j s).1.agenda = ys ++ .emit (s.verdict c next) :: .respond (reply t) :: ts
  running : (run k s).1.condition = .running
  agenda : (run k s).1.agenda = .emit (s.verdict c next) :: .respond (reply t) :: ts
  last : n = k + 2 ∧ run n s = ({ (run k s).1 with agenda := ts, answer := reply t },
    (run k s).2 ++ [.emitted (s.verdict c next)])

theorem Calls.exists_course (h : Calls s c next t ts) (hd : Disciplined s) (ha : Addressed s)
    (hn : s.Completes n) (hr : (run n s).1.condition = .running) : ∃ k, Course s c next t ts n k := by
  obtain ⟨hdecided, hsilent⟩ := h.run_two hd ha (h.not_heldUp hd hn hr)
  have hrun : ∀ j, run (2 + j) s = run j (run 2 s).1 := fun j => by
    rw [run_add, hsilent, List.nil_append]
  obtain ⟨l, rfl⟩ := Nat.exists_eq_add_of_le (Nat.le_of_lt (hn.two_lt h))
  have hlength : ∀ j < l, ts.length < (run j (run 2 s).1).1.agenda.length := fun j hj => by
    have := hn.2 (2 + j) (by omega)
    rwa [hrun, h.agenda] at this
  have hshort := hn.1
  rw [h.agenda, List.length_cons, hrun] at hshort
  obtain ⟨k, rfl, hlast, hrunning, hemit, hbefore⟩ := exists_emit hdecided.agenda (hrun l ▸ hr)
    (Nat.le_of_lt_succ hshort) hlength
  rw [← hrun k] at hlast hrunning hemit
  refine ⟨2 + k, h, hdecided, hsilent, Nat.le_add_right 2 k, fun j hj hjk => ?_, hrunning, hemit,
    by omega, by rw [hrun]; exact hlast⟩
  obtain ⟨i, rfl⟩ := Nat.exists_eq_add_of_le hj
  rw [hrun]
  exact hbefore i (by omega)

namespace Course

/-- Up to its turn the event is on the agenda. -/
theorem above (h : Course s c next t ts n k) {j : Nat} (hj : 2 ≤ j) (hjk : j ≤ k) : ∃ ys,
    (run j s).1.agenda = ys ++ .emit (s.verdict c next) :: .respond (reply t) :: ts := by
  rcases Nat.lt_or_eq_of_le hjk with hlt | rfl
  · obtain ⟨ys, -, hys⟩ := h.waits j hj hlt
    exact ⟨ys, hys⟩
  · exact ⟨[], h.agenda⟩

theorem reports (h : Course s c next t ts n k) : Reports s 0 k c next t ts (s.verdict c next) :=
  ⟨h.call, rfl, h.two_le, h.agenda, fun _ hj hjk => h.above hj hjk⟩

theorem step (h : Course s c next t ts n k) : (run k s).1.step = ({ (run k s).1 with
    agenda := .respond (reply t) :: ts }, [.emitted (s.verdict c next)]) :=
  (step_of_running h.running h.agenda).trans rfl

/-- After the event there is only the answer. -/
theorem step_succ (h : Course s c next t ts n k) : (run (k + 1) s).1.step.2 = [] := by
  have hrunning : (run (k + 1) s).1.condition = .running := by
    rw [run_next, h.step]
    exact h.running
  have hagenda : (run (k + 1) s).1.agenda = .respond (reply t) :: ts := by rw [run_next, h.step]
  rw [step_of_running hrunning hagenda]
  rfl

theorem destroyed (h : Course s c next t ts n k) :
    ∃ hs, (run k s).2 = ((s.discarded c next).map .destroyed).toList ++ hs := by
  obtain ⟨l, rfl⟩ := Nat.exists_eq_add_of_le h.two_le
  have hagenda := h.agenda
  rw [run_add] at hagenda
  rw [run_add, h.silent, List.nil_append]
  exact exists_destroyed h.decided.running h.decided.agenda hagenda

/-- A context that the call is refused goes on running, and stays as it is, as long as the event
waits. -/
theorem frozen (h : Course s c next t ts n k) (hd : Disciplined s) (hout : s.ShutOut c) {j : Nat}
    (hj : 2 ≤ j) (hjk : j ≤ k) :
    c ∈ (run j s).1.entered ∧ (run j s).1.world.installed c = s.world.installed c := by
  have hentered : ∀ j, 2 ≤ j → j ≤ k → c ∈ (run j s).1.entered := fun j hj hjk => by
    obtain ⟨ys, hys⟩ := h.above hj hjk
    rw [State.entered, hys, enteredOn_append, enteredOn_cons_of_plain rfl,
      enteredOn_cons_of_plain rfl]
    exact List.mem_append_right _ (h.call.entered hd hout)
  refine ⟨hentered j hj hjk, ?_⟩
  obtain ⟨i, rfl⟩ := Nat.exists_eq_add_of_le hj
  rw [run_add]
  refine ((hd.after 2).frozen_run fun l hl => ?_).1.trans (h.decided.refused hout).2
  have := hentered (2 + l) (by omega) (by omega)
  rwa [run_add] at this

/-- No other call is made before what is discarded is being destroyed. -/
theorem two_lt (h : Course s c next t ts n k) {i : Nat} {d : ContextId} {next' : Option Installed}
    {t' : Task} {xs : List Task} (hcall : Calls (run i s).1 d next' t'
      (xs ++ .emit (s.verdict c next) :: .respond (reply t) :: ts)) : 2 < i := by
  have hagenda := hcall.agenda
  by_contra hle
  obtain rfl | rfl | rfl : i = 0 ∨ i = 1 ∨ i = 2 := by omega
  · rw [run_zero, h.call.agenda] at hagenda
    have := congrArg List.length hagenda
    simp only [List.length_cons, List.length_append] at this
    omega
  · obtain ⟨w, -, hstep⟩ := h.call.step
    rw [run_next, run_zero, hstep] at hagenda
    have := congrArg List.length hagenda
    simp only [List.length_cons, List.length_append] at this
    omega
  · rw [h.decided.agenda] at hagenda
    have hsome := hcall.call
    cases hd : s.discarded c next with
    | none =>
      rw [hd] at hagenda
      have := congrArg List.length hagenda
      simp only [destroying, Option.map_none, Option.toList_none, List.nil_append, List.length_cons,
        List.length_append] at this
      omega
    | some b =>
      rw [hd] at hagenda
      obtain ⟨rfl, -⟩ := List.cons_eq_cons.mp hagenda
      cases hsome

/-- An event that goes out before that of the call is that of a call which has been made meanwhile. -/
theorem nested {program : Program} {m j : Nat} {e : Event} (h : Course s c next t ts n k)
    (hs : s = (run m (start program)).1) (hj : j < k) (he : e.isLifecycle = true)
    (hm : .emitted e ∈ (run j s).1.step.2) : ∃ i, 2 < i ∧ ∃ d next' t' xs, Reports s i j d next' t'
      (xs ++ .emit (s.verdict c next) :: .respond (reply t) :: ts) e := by
  rcases Nat.lt_or_ge j 2 with hlt | hge
  · rw [step_of_silent h.silent hlt] at hm
    cases hm
  · obtain ⟨ys, hys, ha⟩ := h.waits j hge hj
    have hlength : ts.length < (run j s).1.agenda.length := by
      rw [ha, List.length_append, List.length_cons, List.length_cons]
      omega
    obtain ⟨i, d, next', t', ts', hreports⟩ :=
      exists_reports_within program hs h.call.agenda h.call.isPlain.2 hlength he hm
    -- the tasks below the other call are above the event of this one
    obtain ⟨xs, rfl⟩ : ∃ xs, ts' = xs ++ .emit (s.verdict c next) :: .respond (reply t) :: ts := by
      have hboth := ha.symm.trans hreports.agenda
      obtain ⟨y, ys, rfl⟩ := List.exists_cons_of_ne_nil hys
      have hrest := (List.cons_eq_cons.mp hboth).2
      cases ys with
      | nil => cases (List.cons_eq_cons.mp hrest).1
      | cons y' ys => exact ⟨ys, (List.cons_eq_cons.mp hrest).2.symm⟩
    exact ⟨i, h.two_lt hreports.call, d, next', t', xs, hreports⟩

/-- The call has no event but that one. -/
theorem only {program : Program} {m j : Nat} {e : Event} (h : Course s c next t ts n k)
    (hs : s = (run m (start program)).1) (hj : j < n) (he : e.isLifecycle = true) :
    Emits s 0 j e ↔ j = k ∧ e = s.verdict c next := by
  constructor
  · rintro ⟨hm, c', next', t', ts', hreports⟩
    rcases Nat.lt_trichotomy j k with hlt | rfl | hgt
    · obtain ⟨i, hi, d, next'', t'', xs, hother⟩ := h.nested hs hlt he hm
      have := hreports.unique hother
      omega
    · rw [h.step] at hm
      exact ⟨rfl, Happening.emitted.inj (List.mem_singleton.mp hm)⟩
    · obtain rfl : j = k + 1 := by
        have := h.last.1
        omega
      rw [h.step_succ] at hm
      cases hm
  · rintro ⟨rfl, rfl⟩
    exact ⟨by rw [h.step]; exact List.mem_singleton_self _, c, next, t, ts, h.reports⟩

end Course

/-- **A call that ends in no panic has one event**, which comes last. -/
theorem Calls.settled {program : Program} {m : Nat} (h : Calls s c next t ts)
    (hs : s = (run m (start program)).1) (hn : s.Completes n)
    (hr : (run n s).1.condition = .running) : ∃ k, Settled s c next t ts n k := by
  have hd : Disciplined s := hs ▸ disciplined_run program m
  obtain ⟨k, hk⟩ := h.exists_course hd (hs ▸ addressed_run program m) hn hr
  exact ⟨k, {
    decided := hk.decided
    silent := hk.silent
    within := ⟨hk.two_le, hk.waits⟩
    destroyed := hk.destroyed
    frozen := fun hout j hj hjk => hk.frozen hd hout hj hjk
    last := hk.last
    only := fun j hj e he => hk.only hs hj he
    nested := fun j hj e he hm => hk.nested hs hj he hm }⟩

/-- A call comes to its end if what it discards has no last operations. -/
theorem Calls.ends (h : Calls s c next t ts) (hd : Disciplined s) (ha : Addressed s)
    (hheld : ¬ s.HeldUp c) (hi : ∀ b ∈ s.discarded c next, World.lastOps b.kind = []) :
    ∃ n, s.Completes n ∧ (run n s).1.condition = .running := by
  obtain ⟨hdecided, hsilent⟩ := h.run_two hd ha hheld
  have hrun : ∀ j, run (2 + j) s = run j (run 2 s).1 := fun j => by
    rw [run_add, hsilent, List.nil_append]
  obtain ⟨n, hn, hlong⟩ := exists_run_inert hdecided.running hdecided.agenda hi
  have hemit : (run (2 + n) s).1.agenda = [.emit (s.verdict c next)] ++ .respond (reply t) :: ts := by
    rw [hrun, hn]
    rfl
  have hlast : run 2 (run (2 + n) s).1 = ({ (run (2 + n) s).1 with
      agenda := ts, answer := reply t }, [.emitted (s.verdict c next)]) :=
    run_emit (by rw [hrun, hn]; exact hdecided.running) hemit
  refine ⟨2 + n + 2, ⟨?_, fun k hk => ?_⟩, ?_⟩
  · rw [run_add, hlast, h.agenda]
    exact Nat.lt_succ_self _
  · rw [h.agenda, List.length_cons]
    obtain rfl | rfl | ⟨j, hj, rfl⟩ | rfl : k = 0 ∨ k = 1 ∨ (∃ j ≤ n, k = 2 + j) ∨ k = 2 + n + 1 := by
      rcases Nat.lt_or_ge k 2 with hlt | hge
      · omega
      · obtain ⟨j, rfl⟩ := Nat.exists_eq_add_of_le hge
        rcases Nat.lt_or_ge n j with hgt | hle
        · omega
        · exact .inr (.inr (.inl ⟨j, hle, rfl⟩))
    · rw [run_zero, h.agenda, List.length_cons]
    · obtain ⟨w, -, hstep⟩ := h.step
      rw [run_next, run_zero, hstep]
      exact Nat.le_succ _
    · rw [hrun]
      exact Nat.le_trans (Nat.le_succ _) (hlong j hj)
    · obtain ⟨zs, hzs⟩ := agenda_step_above hemit (by simp)
      rw [run_next, hzs, List.length_append, List.length_cons]
      omega
  · rw [run_add, hlast, hrun, hn]
    exact hdecided.running

/-! ### What makes a context -/

/-- A builder of a context makes no call, only the backends that it destroys do. -/
theorem OnTrail.nested {steps : List BuildStep} {name : String}
    (h : OnTrail u steps (.create name) ts k) {us : List Task}
    (hcall : Calls (run k u).1 c next t us) : ts.length < us.length := by
  have hagenda := hcall.agenda
  have hsome := hcall.call
  cases h with
  | own x hx ha =>
    obtain rfl := (List.cons_eq_cons.mp (hagenda.symm.trans ha)).1
    cases hx with
    | @going b done rest hprogress =>
      simp only [Builder.doing, hprogress.target] at hsome
      cases rest <;> cases hsome
    | _ => cases hsome
  | doomed x hx d hd ha =>
    obtain rfl := (List.cons_eq_cons.mp (hagenda.symm.trans ha)).1
    cases hsome
  | destroying x hx j d h =>
    obtain ⟨ys, hys, ha⟩ := h.waits k h.before (Nat.le_refl k)
    obtain ⟨y, ys, rfl⟩ := List.exists_cons_of_ne_nil hys
    obtain ⟨-, rfl⟩ := List.cons_eq_cons.mp (hagenda.symm.trans ha)
    show ts.length < (ys ++ x :: ts).length
    rw [List.length_append, List.length_cons]
    omega
  | placing ht hj h ys ha => cases ht

/-- The events in the course of a builder that makes a context are those of calls which the backends
make that it destroys. -/
structure Foreign (u : State) (steps : List BuildStep) (ts : List Task) (k : Nat) (e : Event) :
    Prop where
  destroys : ∃ j d t, Destroys u steps ts j k d t
  nested : ∃ i c next t us, Reports u i k c next t us e ∧ ts.length < us.length

/-- The calls of a program have their events. -/
structure Accounted (program : Program) : Prop where
  /-- A call that ends in no panic has one event, after all that is destroyed on its account. -/
  settled : ∀ m c next t ts n, Calls (run m (start program)).1 c next t ts →
    (run m (start program)).1.Completes n → (run n (run m (start program)).1).1.condition = .running →
      ∃ k, Settled (run m (start program)).1 c next t ts n k
  /-- Such an end there is if what it discards has no last operations. -/
  ends : ∀ m c next t ts, Calls (run m (start program)).1 c next t ts →
    ¬ (run m (start program)).1.HeldUp c →
    (∀ b ∈ (run m (start program)).1.discarded c next, World.lastOps b.kind = []) →
      ∃ n, (run m (start program)).1.Completes n ∧
        (run n (run m (start program)).1).1.condition = .running
  /-- One that waits for a thread which waits for this one has none. -/
  heldUp : ∀ m c next t ts n, Calls (run m (start program)).1 c next t ts →
    (run m (start program)).1.HeldUp c → 2 ≤ n →
      (run n (run m (start program)).1).1.condition = .blocked ∧
        (run n (run m (start program)).1).2 = []
  /-- There are no other events. -/
  attributed : ∀ k e, e.isLifecycle = true → .emitted e ∈ (run k (start program)).1.step.2 →
    ∃! i, Emits (start program) i k e
  /-- A new context comes without any. -/
  created : ∀ m ctx spec g ts, (run m (start program)).1.condition = .running →
    (run m (start program)).1.agenda = .begin (.create ctx spec g) :: ts →
      (run m (start program)).1.step.1.agenda = ts ∧ (run m (start program)).1.step.2 = []
  /-- So does one that is built. -/
  built : ∀ m ctx steps ts u, (run m (start program)).1.condition = .running →
    (run m (start program)).1.agenda = .begin (.build ctx steps) :: ts →
    u = (run (m + 1) (start program)).1 →
      (run m (start program)).1.step.2 = [] ∧
        u.agenda = (Builder.fresh (.create ctx)).doing steps :: ts ∧
        ∀ k e, u.Underway ts k → e.isLifecycle = true → .emitted e ∈ (run k u).1.step.2 →
          Foreign u steps ts k e

/-- What is destroyed last empties another context, and the event of that comes first. -/
example : announcements (run 40 (start { ops := [.create "d" (some .tracing) Gate.unrestricted,
    .install .global (.scripted "s" [] [] [.remove (.named "d")]) Gate.unrestricted,
    .install .global .tracing Gate.unrestricted] })).2 =
      [.installed "s", .removed, .installed "tracing"] := by decide +kernel

end GatedLog.State
