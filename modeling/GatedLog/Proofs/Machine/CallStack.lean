import Mathlib.Data.List.Perm.Subperm
import GatedLog.Proofs.Machine.Moves

/-!
# The call stack of the backends

A thread's list of running contexts is the call stack of its backends: `Fits t ts u` says that the
thread `t` comes to be the thread `u` when the tasks `ts` are done, each task `leave` taking the
context that stands first on the list. A context is locked exactly while its backend is running or is
asked for its name. Both hold along every run (`disciplined_run`), whatever the backends do, since a
step only ever turns the control in one of eight ways (`Turn`).
-/

namespace GatedLog

/-- The thread after a backend that was counted, or not, has been left. -/
def Thread.leaving (t : Thread) (counted : Bool) : Thread :=
  if counted then { t with running := t.running.tail } else t

@[simp] theorem Thread.tracking_leaving (t : Thread) (counted : Bool) :
    (t.leaving counted).tracking = t.tracking := by
  cases counted <;> rfl

/-! ### Locks -/

namespace World

theorem thread_enter (w : World) (c : ContextId) :
    (w.enter c).thread =
      if w.thread.tracking then { w.thread with running := c :: w.thread.running } else w.thread := by
  unfold enter
  split <;> rfl

theorem thread_leave (w : World) (c : ContextId) (counted : Bool) :
    (w.leave c counted).thread = w.thread.leaving counted := by
  cases counted <;> rfl

theorem contexts_enter (w : World) (c : ContextId) :
    (w.enter c).contexts = (w.setLock c true).contexts := by
  unfold enter
  split <;> rfl

theorem contexts_leave (w : World) (c : ContextId) (counted : Bool) :
    (w.leave c counted).contexts = (w.setLock c false).contexts := by
  cases counted <;> rfl

theorem context_congr {w v : World} (h : v.contexts = w.contexts) (c : ContextId) :
    v.context c = w.context c := by
  rw [context, h, context]

theorem lt_length_of_locked {w : World} {c : ContextId} (h : (w.context c).locked = true) :
    c < w.contexts.length := by
  by_contra hc
  rw [context, List.getElem?_eq_none (Nat.le_of_not_lt hc)] at h
  exact Bool.noConfusion h

theorem lt_length_of_installed {w : World} {c : ContextId} {i : Installed}
    (h : w.installed c = some i) : c < w.contexts.length := by
  by_contra hc
  rw [installed, context, List.getElem?_eq_none (Nat.le_of_not_lt hc)] at h
  cases h

theorem installed_replace {w : World} {c : ContextId} (hc : c < w.contexts.length)
    (i : Option Installed) : (w.replace c i).installed c = i := by
  rw [installed, replace, context_modifyContext, if_pos ⟨rfl, hc⟩]

theorem locked_modifyContext (w : World) (c d : ContextId) {f : Context → Context}
    (hf : ∀ x, (f x).locked = x.locked) :
    ((w.modifyContext c f).context d).locked = (w.context d).locked := by
  rw [context_modifyContext]
  split
  · exact hf _
  · rfl

theorem locked_configure (w : World) (c d : ContextId) (f : Gate → Gate) :
    ((w.configure c f).context d).locked = (w.context d).locked := by
  unfold configure
  split
  · exact locked_modifyContext w c d fun _ => rfl
  · rfl

theorem locked_addContext (w : World) (name : String) (i : Option Installed) (d : ContextId) :
    ((w.addContext name i).context d).locked = (w.context d).locked := by
  rcases Nat.lt_trichotomy d w.contexts.length with h | h | h
  · simp [addContext, context, List.getElem?_append_left h]
  · subst h
    simp [addContext, context]
  · rw [addContext, context, context, List.getElem?_eq_none (by simp; omega),
      List.getElem?_eq_none (by omega)]

theorem locked_lock {w : World} {c : ContextId} (hc : c < w.contexts.length) (d : ContextId) :
    ((w.setLock c true).context d).locked = true ↔ d = c ∨ (w.context d).locked = true := by
  rw [setLock, context_modifyContext]
  by_cases h : c = d
  · subst h
    simp [hc]
  · simp [h, Ne.symm h]

theorem locked_unlock (w : World) (c d : ContextId) :
    ((w.setLock c false).context d).locked = true ↔ d ≠ c ∧ (w.context d).locked = true := by
  rw [setLock, context_modifyContext]
  by_cases h : c = d
  · subst h
    constructor
    · intro hl
      split at hl
      · cases hl
      · next hn => exact absurd ⟨rfl, lt_length_of_locked hl⟩ hn
    · intro hl
      exact absurd rfl hl.1
  · simp [h, Ne.symm h]

theorem not_locked_of_granted {w : World} {c : ContextId} (h : w.access c = .granted) :
    (w.context c).locked = false := by
  unfold access at h
  cases hl : (w.context c).locked with
  | false => rfl
  | true =>
    rw [hl] at h
    split at h
    · split at h <;> cases h
    · cases h

/-- Different contexts, which are the locked ones. -/
structure Locks (w : World) (cs : List ContextId) : Prop where
  nodup : cs.Nodup
  locked_iff : ∀ c, (w.context c).locked = true ↔ c ∈ cs

theorem Locks.congr {w v : World} {cs : List ContextId} (h : w.Locks cs)
    (hv : ∀ c, (v.context c).locked = (w.context c).locked) : v.Locks cs :=
  ⟨h.nodup, fun c => by rw [hv]; exact h.locked_iff c⟩

/-- A thread locks a context that it gets at. -/
theorem Locks.lock {w : World} {cs : List ContextId} {c : ContextId} (h : w.Locks cs)
    (hg : w.access c = .granted) (hl : c < w.contexts.length) :
    (w.setLock c true).Locks (c :: cs) := by
  have hn : c ∉ cs := by
    rw [← h.locked_iff, not_locked_of_granted hg]
    exact Bool.noConfusion
  refine ⟨List.nodup_cons.mpr ⟨hn, h.nodup⟩, fun d => ?_⟩
  rw [locked_lock hl]
  exact (or_congr_right (h.locked_iff d)).trans List.mem_cons.symm

theorem Locks.unlock {w : World} {cs : List ContextId} {c : ContextId} (h : w.Locks (c :: cs)) :
    (w.setLock c false).Locks cs := by
  obtain ⟨hn, hnodup⟩ := List.nodup_cons.mp h.nodup
  refine ⟨hnodup, fun d => ?_⟩
  rw [locked_unlock]
  constructor
  · rintro ⟨hd, hl⟩
    exact (List.mem_cons.mp ((h.locked_iff d).mp hl)).resolve_left hd
  · intro hd
    exact ⟨fun he => hn (he ▸ hd), (h.locked_iff d).mpr (List.mem_cons_of_mem _ hd)⟩

end World

/-! ### Turns of the control -/

namespace State

/-- The tasks `ps` have come in front of the agenda, and the thread and the locks are those of `w`.
The thread may have got at a context. -/
structure Controls (s : State) (w : World) (ps : List Task) (o : Outcome) : Prop where
  agenda : o.1.agenda = ps ++ s.agenda
  thread : o.1.world.thread = w.thread
  locked : ∀ c, (o.1.world.context c).locked = (w.context c).locked
  registered : o.1.registered = s.registered ∨ o.1.registered = s.register.registered

theorem Leads.controls {s : State} {w v : World} {ps : List Task} {o : Outcome}
    (h : s.Leads w ps o) (ht : w.thread = v.thread)
    (hl : ∀ c, (w.context c).locked = (v.context c).locked) : s.Controls v ps o :=
  ⟨h.agenda, h.alike.thread.trans ht, fun c => by rw [h.alike.context, hl], h.registered⟩

/-- How performing a task turns the control: a backend starts or ends its run, or to tell its name, a
thread starts, loses its state or ends, or nothing of this. -/
inductive Turn (s : State) (t : Task) (o : Outcome) : Prop
  | steady (ps : List Task) (ht : t.isPlain = true) (hp : ∀ p ∈ ps, p.isSteady = true)
    (h : s.Controls s.world ps o)
  | entered (c : ContextId) (ops : List Op) (ht : t.isPlain = true)
    (hc : s.world.access c = .granted) (hl : c < s.world.contexts.length)
    (h : s.Controls (s.world.enter c) [.script ops, .leave c s.world.thread.tracking] o)
    (hg : o.1.registered = s.register.registered)
  | left (c : ContextId) (counted : Bool) (ht : t = .leave c counted)
    (h : s.Controls (s.world.leave c counted) [] o)
  | asked (c : ContextId) (ops : List Op) (a : Answer) (ht : t.isPlain = true)
    (hc : s.world.access c = .granted) (hl : c < s.world.contexts.length)
    (h : s.Controls (s.world.setLock c true) [.script ops, .unlock c, .respond a] o)
  | unlocked (c : ContextId) (ht : t = .unlock c)
    (h : s.Controls (s.world.setLock c false) [] o)
  | forked (p : Task) (exit : Option (List Op)) (ht : t.isPlain = true) (hp : p.isSteady = true)
    (h : s.enlist.Controls s.world.startThread
      (p :: ((exit.map Task.exit).toList ++ [.join s.world.thread])) o)
  | lost (ops : List Op) (ps : List Task) (ht : t = .exit ops) (hp : ∀ p ∈ ps, p.isSteady = true)
    (h : s.Controls s.world.loseTrack ps o) (hg : s.registered.headD false = true)
  | joined (u : Thread) (ht : t = .join u) (h : s.discharge.Controls (s.world.resumeThread u) [] o)

theorem Entry.isPlain {b : Backend} {c : ContextId} {t : Task} {hs : List Happening}
    (h : Entry b c t hs) : t.isPlain = true := by
  cases h <;> rfl

theorem Move.turn {s : State} {t : Task} {o : Outcome} (h : Move s t o) : Turn s t o := by
  have steady : ∀ {ps : List Task}, (∀ p ∈ ps, p.isOrdinary = true) → ∀ p ∈ ps, p.isSteady = true :=
    fun hp p h => Task.isSteady_of_isOrdinary (hp p h)
  cases h with
  | routine ps ht hp h hq => exact .steady ps ht (steady hp) (h.controls rfl fun _ => rfl)
  | configured c f ht hc h hq =>
    refine .steady [] ht (by simp) (h.controls ?_ (World.locked_configure _ c · f))
    rw [World.configure, if_pos hc]
    rfl
  | created name i ht h hq =>
    exact .steady [] ht (by simp) (h.controls rfl (World.locked_addContext _ name i))
  | swapped c next ps ht hc hp h hq =>
    exact .steady ps (by rw [ht]; rfl) (steady hp)
      (h.controls rfl fun d => World.locked_modifyContext _ c d fun _ => rfl)
  | entered c i first rest ops ht hc hi h hq hr hg =>
    exact .entered c ops ht.isPlain hc (World.lt_length_of_installed hi)
      (h.controls rfl fun _ => rfl) hg
  | left c counted ht h hq => exact .left c counted ht (h.controls rfl fun _ => rfl)
  | asked c i op ops a ht hc hi hn h hq =>
    exact .asked c (op :: ops) a ht hc (World.lt_length_of_installed hi)
      (h.controls rfl fun _ => rfl)
  | unlocked c ht h hq => exact .unlocked c ht (h.controls rfl fun _ => rfl)
  | forked p exit ht hp h hq =>
    exact .forked p exit ht (Task.isSteady_of_isOrdinary hp) (h.controls rfl fun _ => rfl)
  | lost ops ps ht hp h hq hg => exact .lost ops ps ht (steady hp) (h.controls rfl fun _ => rfl) hg
  | joined u ht h hq => exact .joined u ht (h.controls rfl fun _ => rfl)
  | opened c sev k parts ps ht hc hp h hr hq =>
    refine .steady _ ht (fun p hm => ?_) (h.controls rfl fun _ => rfl)
    rcases List.mem_cons.mp hm with rfl | hm
    · rfl
    · exact steady hp p hm
  | kept id c sev k parts a ht hc h hr hq =>
    refine .steady _ ht (fun p hm => ?_) (h.controls rfl fun _ => rfl)
    cases hg : s.world.held.get? id <;> simp_all [Task.isSteady]
    rcases hm with rfl | rfl <;> rfl
  | extended id m parts ht hm h hq => exact .steady [] ht (by simp) (h.controls rfl fun _ => rfl)
  | closed id m a ht hm h hr hq =>
    exact .steady _ ht (by simp [Task.isSteady]) (h.controls rfl fun _ => rfl)
  | ended m ht hm h hq => exact .steady [] (by rw [ht]; rfl) (by simp) (h.controls rfl fun _ => rfl)

end State

/-! ### Threads and their lists -/

/-- The thread `t` becomes `u` when the tasks are done: every backend that is left stands first on
the list, and a thread that ends has left all of them. -/
def Fits : Thread → List Task → Thread → Prop
  | t, [], u => t = u
  | t, .leave c counted :: ts, u =>
    counted = t.tracking ∧ (counted = true → t.running.head? = some c) ∧ Fits (t.leaving counted) ts u
  | t, .join v :: ts, u => t.running = [] ∧ Fits v ts u
  | t, .exit _ :: ts, u => (∃ v us, ts = .join v :: us) ∧ Fits t ts u
  | t, _ :: ts, u => Fits t ts u

namespace Fits

variable {t u v : Thread} {x : Task} {xs : List Task}

theorem of_plain (hx : x.isPlain = true) (h : Fits t (x :: xs) u) : Fits t xs u := by
  cases x with
  | leave c counted => cases hx
  | unlock c => cases hx
  | join v => cases hx
  | exit ops => exact h.2
  | _ => exact h

theorem push (ps : List Task) (hp : ∀ p ∈ ps, p.isSteady = true) (h : Fits t xs u) :
    Fits t (ps ++ xs) u := by
  induction ps with
  | nil => exact h
  | cons p ps ih =>
    have hps := ih fun q hq => hp q (by simp [hq])
    have := hp p (by simp)
    cases p <;> first | exact hps | cases this

/-- A thread that keeps track lists its call stack, and one that does not lists nothing. -/
theorem running_eq (hu : u.running = []) (h : Fits t xs u) :
    t.running = if t.tracking then stackOn xs else [] := by
  induction xs generalizing t with
  | nil =>
    obtain rfl : t = u := h
    rw [hu]
    split <;> rfl
  | cons x xs ih =>
    by_cases hx : x.isPlain = true
    · rw [ih (h.of_plain hx), stackOn_cons_of_plain hx]
    · cases x with
      | leave c counted =>
        obtain ⟨rfl, hhead, hrest⟩ := h
        have htail := ih hrest
        cases ht : t.tracking with
        | false => simpa [Thread.leaving, ht] using htail
        | true =>
          simp only [Thread.leaving, ht, if_true] at htail hhead ⊢
          rw [stackOn_leave, ← htail]
          exact (List.cons_head?_tail (hhead trivial)).symm
      | unlock c => exact ih h
      | join v =>
        rw [h.1]
        split <;> rfl
      | _ => exact absurd rfl hx

end Fits

namespace State

variable {s : State}

/-- A step above some tasks leaves them alone, and the thread fits the tasks above them again. -/
theorem fits_step (xs ts : List Task) {u : Thread} (ha : s.agenda = xs ++ ts) (hx : xs ≠ [])
    (h : Fits s.world.thread xs u) :
    ∃ ys, s.step.1.agenda = ys ++ ts ∧ Fits s.step.1.world.thread ys u := by
  rcases s.step_cases with hs | ⟨x, rest, hax, hmove⟩
  · rw [hs]
    exact ⟨xs, ha, h⟩
  · obtain ⟨x', ys, rfl⟩ := List.exists_cons_of_ne_nil hx
    obtain ⟨rfl, rfl⟩ : x = x' ∧ rest = ys ++ ts := by simpa [hax] using ha
    cases hmove.turn with
    | steady ps ht hp hc =>
      refine ⟨ps ++ ys, by rw [hc.agenda, List.append_assoc], ?_⟩
      rw [hc.thread]
      exact (h.of_plain ht).push ps hp
    | entered c ops ht _ _ hc =>
      refine ⟨.script ops :: .leave c s.world.thread.tracking :: ys, by rw [hc.agenda]; rfl, ?_⟩
      have hrest := h.of_plain ht
      rw [hc.thread, World.thread_enter]
      -- what the run counts is taken back when it is left
      cases htr : s.world.thread.tracking with
      | false => exact ⟨by simp [htr], by simp, hrest⟩
      | true => exact ⟨by simp [htr], by simp, hrest⟩
    | left c counted ht hc =>
      subst ht
      refine ⟨ys, hc.agenda, ?_⟩
      rw [hc.thread, World.thread_leave]
      exact h.2.2
    | asked c ops a ht _ _ hc =>
      refine ⟨.script ops :: .unlock c :: .respond a :: ys, by rw [hc.agenda]; rfl, ?_⟩
      rw [hc.thread]
      have hrest := h.of_plain ht
      exact hrest
    | unlocked c ht hc =>
      subst ht
      refine ⟨ys, hc.agenda, ?_⟩
      rw [hc.thread]
      exact h
    | forked p exit ht hp hc =>
      refine ⟨p :: ((exit.map Task.exit).toList ++ .join s.world.thread :: ys), by
        rw [hc.agenda]; simp, ?_⟩
      rw [hc.thread]
      refine Fits.push [p] (by simpa using hp) ?_
      have hj : Fits s.world.startThread.thread (.join s.world.thread :: ys) u :=
        ⟨rfl, h.of_plain ht⟩
      cases exit with
      | none => exact hj
      | some ops => exact ⟨⟨_, _, rfl⟩, hj⟩
    | lost ops ps ht hp hc =>
      subst ht
      obtain ⟨⟨v, us, rfl⟩, hj⟩ := h
      refine ⟨ps ++ .join v :: us, by rw [hc.agenda, List.append_assoc], ?_⟩
      rw [hc.thread]
      exact Fits.push ps hp ⟨rfl, hj.2⟩
    | joined v ht hc =>
      subst ht
      refine ⟨ys, hc.agenda, ?_⟩
      rw [hc.thread]
      exact h.2

/-- A run above some tasks leaves them alone, and the thread fits the tasks above them all along. -/
theorem fits_run (xs ts : List Task) {u : Thread} {n : Nat} (ha : s.agenda = xs ++ ts)
    (h : Fits s.world.thread xs u) (hn : ∀ k < n, ts.length < (run k s).1.agenda.length) :
    ∃ ys, (run n s).1.agenda = ys ++ ts ∧ Fits (run n s).1.world.thread ys u := by
  induction n generalizing s xs with
  | zero => exact ⟨xs, ha, h⟩
  | succ n ih =>
    have hx : xs ≠ [] := by
      rintro rfl
      have := hn 0 (by omega)
      rw [run_zero, ha] at this
      simp at this
    obtain ⟨ys, hys, hfits⟩ := fits_step xs ts ha hx h
    rw [run_succ]
    refine ih ys hys hfits fun k hk => ?_
    have := hn (k + 1) (by omega)
    rwa [run_succ] at this

/-! ### The discipline of runs -/

/-- The thread lists its call stack, and the contexts that are entered are the locked ones. -/
structure Disciplined (s : State) : Prop where
  fits : ∃ u : Thread, u.running = [] ∧ Fits s.world.thread s.agenda u
  locks : s.world.Locks s.entered

namespace Disciplined

theorem nodup (h : Disciplined s) : s.entered.Nodup := h.locks.nodup

theorem locked_iff (h : Disciplined s) (c : ContextId) :
    (s.world.context c).locked = true ↔ c ∈ s.entered := h.locks.locked_iff c

end Disciplined

theorem disciplined_start (program : Program) : Disciplined (start program) where
  fits := ⟨_, rfl, rfl⟩
  locks := by
    refine ⟨List.nodup_nil, fun c => ?_⟩
    have hl : ((start program).world.context c).locked = false := by
      cases c <;> rfl
    rw [hl]
    constructor
    · exact fun h => Bool.noConfusion h
    · exact fun h => absurd h List.not_mem_nil

theorem Disciplined.step (h : Disciplined s) : Disciplined s.step.1 := by
  rcases s.step_cases with hs | ⟨x, ts, ha, hmove⟩
  · rw [hs]
    exact h
  · have hfits : ∃ u : Thread, u.running = [] ∧ Fits s.step.1.world.thread s.step.1.agenda u := by
      obtain ⟨u, hu, hf⟩ := h.fits
      obtain ⟨ys, hys, hf'⟩ := fits_step s.agenda [] (by simp) (by simp [ha]) hf
      exact ⟨u, hu, by rw [hys, List.append_nil]; exact hf'⟩
    have hlocks : s.world.Locks (enteredOn (x :: ts)) := ha ▸ h.locks
    -- the tasks that come onto the agenda, and those that are left on it
    suffices hs : ∀ ys, s.step.1.agenda = ys → s.step.1.world.Locks (enteredOn ys) from
      ⟨hfits, hs _ rfl⟩
    rintro ys rfl
    cases hmove.turn with
    | steady ps ht hp hc =>
      rw [enteredOn_cons_of_plain ht] at hlocks
      rw [hc.agenda, enteredOn_append_of_steady ps ts hp]
      exact hlocks.congr hc.locked
    | entered c ops ht hg hl hc =>
      rw [enteredOn_cons_of_plain ht] at hlocks
      rw [hc.agenda]
      exact (hlocks.lock hg hl).congr fun d => by
        rw [hc.locked, World.context_congr (World.contexts_enter ..)]
    | left c counted ht hc =>
      subst ht
      rw [hc.agenda]
      exact hlocks.unlock.congr fun d => by
        rw [hc.locked, World.context_congr (World.contexts_leave ..)]
    | asked c ops a ht hg hl hc =>
      rw [enteredOn_cons_of_plain ht] at hlocks
      rw [hc.agenda]
      exact (hlocks.lock hg hl).congr hc.locked
    | unlocked c ht hc =>
      subst ht
      rw [hc.agenda]
      exact hlocks.unlock.congr hc.locked
    | forked p exit ht hp hc =>
      rw [enteredOn_cons_of_plain ht] at hlocks
      have he : enteredOn s.step.1.agenda = enteredOn ts := by
        rw [hc.agenda]
        cases exit <;> exact enteredOn_append_of_steady [p] _ (by simpa using hp)
      rw [he]
      exact hlocks.congr hc.locked
    | lost ops ps ht hp hc =>
      subst ht
      rw [hc.agenda, enteredOn_append_of_steady ps ts hp]
      exact hlocks.congr hc.locked
    | joined u ht hc =>
      subst ht
      rw [hc.agenda]
      exact hlocks.congr hc.locked

/-- What holds at first and is kept by every step holds after every run. -/
theorem run_induction {P : State → Prop} (hstep : ∀ s, P s → P s.step.1) (n : Nat) {s : State}
    (hs : P s) : P (run n s).1 := by
  induction n generalizing s with
  | zero => exact hs
  | succ n ih =>
    rw [run_succ]
    exact ih (hstep s hs)

theorem step_of_running {t : Task} {ts : List Task} (hr : s.condition = .running)
    (ha : s.agenda = t :: ts) : s.step = ({ s with agenda := ts } : State).perform t := by
  simp only [step, hr, ha]

/-- One step more. -/
theorem run_next (n : Nat) (s : State) :
    run (n + 1) s = ((run n s).1.step.1, (run n s).2 ++ (run n s).1.step.2) := by
  rw [run_add, run_succ, run_zero, List.append_nil]

theorem disciplined_run (program : Program) (n : Nat) : Disciplined (run n (start program)).1 :=
  run_induction (fun _ => Disciplined.step) n (disciplined_start program)

theorem mem_entered_of_mem_stack {c : ContextId} (hc : c ∈ s.stack) : c ∈ s.entered :=
  mem_enteredOn_of_mem_stackOn hc

namespace Disciplined

theorem running_eq (h : Disciplined s) :
    s.world.thread.running = if s.world.thread.tracking then s.stack else [] := by
  obtain ⟨u, hu, hf⟩ := h.fits
  exact hf.running_eq hu

/-- How the thread gets at a context depends on the backends that are running, and on nothing else. -/
theorem access_eq (h : Disciplined s) (c : ContextId) :
    s.world.access c =
      if c ∈ s.stack then .refused
      else if c ∈ s.entered then if s.world.thread.tracking then .blocked else .refused
      else .granted := by
  have hr := h.running_eq
  have hl := h.locked_iff c
  unfold World.access
  rw [hr]
  by_cases hs : c ∈ s.stack
  · have he := hl.mpr (mem_entered_of_mem_stack hs)
    cases s.world.thread.tracking <;> simp [hs, he]
  · by_cases he : c ∈ s.entered
    · cases s.world.thread.tracking <;> simp [hs, he, hl.mpr he]
    · have hf : (s.world.context c).locked = false := by simpa using fun hx => he (hl.mp hx)
      cases s.world.thread.tracking <;> simp [hs, he, hf]

theorem granted_iff (h : Disciplined s) (c : ContextId) :
    s.world.access c = .granted ↔ c ∉ s.entered := by
  rw [h.access_eq]
  by_cases hs : c ∈ s.stack
  · simp [hs, mem_entered_of_mem_stack hs]
  · by_cases he : c ∈ s.entered
    · cases s.world.thread.tracking <;> simp [hs, he]
    · simp [hs, he]

theorem mem_entered_of_refused (h : Disciplined s) {c : ContextId}
    (hc : s.world.access c = .refused) : c ∈ s.entered := by
  by_contra he
  rw [(h.granted_iff c).mpr he] at hc
  cases hc

end Disciplined

/-- After `n` steps, and not before, the first task has been done or given up, with all that came
of it. -/
def Completes (s : State) (n : Nat) : Prop :=
  (run n s).1.agenda.length < s.agenda.length ∧ ∀ k < n, s.agenda.length ≤ (run k s).1.agenda.length

theorem Completes.thread_eq {t : Task} {ts : List Task} {n : Nat} (h : s.Completes n)
    (ha : s.agenda = t :: ts) (ht : t.isSteady = true) :
    (run n s).1.agenda = ts ∧ (run n s).1.world.thread = s.world.thread := by
  have hfits : Fits s.world.thread [t] s.world.thread :=
    Fits.push [t] (by simpa using ht) rfl
  obtain ⟨hlt, hge⟩ := h
  rw [ha] at hlt hge
  obtain ⟨ys, hys, hf⟩ := fits_run [t] ts ha hfits fun k hk => hge k hk
  obtain rfl : ys = [] := by
    rw [hys, List.length_append, List.length_cons] at hlt
    exact List.eq_nil_of_length_eq_zero (by omega)
  exact ⟨hys, hf⟩

theorem stack_of_begins {e : Happening} (he : e ∈ s.step.2) {c : ContextId} {b : Backend}
    (hb : e.begins? = some (c, b)) : s.step.1.stack = c :: s.stack := by
  obtain ⟨t, ts, ha, hmove⟩ := exists_move he
  obtain ⟨-, -, ⟨_, ht⟩, ops, hl⟩ := hmove.entered_of_begins he hb
  rw [stack, hl.agenda, stack, ha, stackOn_cons_of_plain ht.isPlain]
  rfl

end State

end GatedLog
