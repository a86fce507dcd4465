import GatedLog.Proofs.Machine.CallStack

/-!
# Threads that have got at a context

The list of a thread's running contexts is made when the thread first gets at a context, and only
such a list can be gone when the thread ends. `Enrolled t ts l` says that `l` has a place for every
thread that will end in the tasks `ts`, and that a thread which runs a backend, or has lost its own
state, is registered there. It holds along every run (`enrolled_run`); so to register a thread when
it is refused would be to register it again (`registered_of_refused`).
-/

namespace GatedLog

theorem Task.isJoin_of_isPlain {t : Task} (h : t.isPlain = true) : t.isJoin = false := by
  cases t <;> first | rfl | cases h

/-- The thread runs the backend of a context, or its own state is gone. -/
def Thread.Marked (t : Thread) : Prop := t.running ≠ [] ∨ t.tracking = false

theorem Thread.Marked.of_leaving {t : Thread} {counted : Bool} (h : (t.leaving counted).Marked) :
    t.Marked := by
  rcases h with hr | ht
  · refine .inl fun hn => hr ?_
    cases counted
    · exact hn
    · show t.running.tail = []
      rw [hn]
      rfl
  · exact .inr (t.tracking_leaving counted ▸ ht)

/-- The threads that end in the tasks, the thread `t` first, have their places in the list. -/
def Enrolled : Thread → List Task → List Bool → Prop
  | _, [], l => l = []
  | t, .join u :: ts, l => ∃ b l', l = b :: l' ∧ (t.Marked → b = true) ∧ Enrolled u ts l'
  | t, _ :: ts, l => Enrolled t ts l

namespace Enrolled

variable {t t' u : Thread} {x : Task} {ts : List Task} {l : List Bool}

theorem cons_iff (hx : x.isJoin = false) : Enrolled t (x :: ts) l ↔ Enrolled t ts l := by
  cases x <;> first | rfl | cases hx

theorem append_iff (ps : List Task) (hp : ∀ p ∈ ps, p.isJoin = false) :
    Enrolled t (ps ++ ts) l ↔ Enrolled t ts l := by
  induction ps with
  | nil => rfl
  | cons p ps ih =>
    rw [List.cons_append, cons_iff (hp p (by simp))]
    exact ih fun q hq => hp q (by simp [hq])

/-- Only a thread that is not registered has to be looked at again. -/
theorem mono (h : Enrolled t ts l) (ht : t'.Marked → l.head? = some false → t.Marked) :
    Enrolled t' ts l := by
  induction ts with
  | nil => exact h
  | cons x ts ih =>
    cases x with
    | join u =>
      obtain ⟨b, l', rfl, hb, hrest⟩ := h
      refine ⟨b, l', rfl, fun hm => ?_, hrest⟩
      cases b with
      | true => rfl
      | false => exact hb (ht hm rfl)
    | _ => exact ih h

theorem register (h : Enrolled t ts l) : Enrolled t ts (l.modifyHead fun _ => true) := by
  induction ts with
  | nil =>
    obtain rfl : l = [] := h
    rfl
  | cons x ts ih =>
    cases x with
    | join u =>
      obtain ⟨b, l', rfl, -, hrest⟩ := h
      exact ⟨true, l', rfl, fun _ => rfl, hrest⟩
    | _ => exact ih h

/-- A thread that is marked is registered, unless it was never started. -/
theorem head_ne (h : Enrolled t ts l) (ht : t.Marked) : l.head? ≠ some false := by
  induction ts with
  | nil =>
    obtain rfl : l = [] := h
    exact nofun
  | cons x ts ih =>
    cases x with
    | join u =>
      obtain ⟨b, l', rfl, hb, -⟩ := h
      obtain rfl := hb ht
      exact nofun
    | _ => exact ih h

end Enrolled

theorem head?_register (l : List Bool) : (l.modifyHead fun _ => true).head? ≠ some false := by
  cases l <;> exact nofun

namespace State

variable {s : State}

/-- The thread may have got at a context, or not. -/
theorem Controls.enrolled {w : World} {ps ts : List Task} {o : Outcome} (h : s.Controls w ps o)
    {t : Thread} (hs : Enrolled t ts s.registered) : Enrolled t ts o.1.registered := by
  rcases h.registered with hl | hl <;> rw [hl]
  · exact hs
  · exact hs.register

/-- A step above some tasks keeps the threads enrolled that end above them. -/
theorem enrolled_step (xs ts : List Task) (ha : s.agenda = xs ++ ts) (hx : xs ≠ [])
    (h : Enrolled s.world.thread xs s.registered) :
    ∃ ys, s.step.1.agenda = ys ++ ts ∧ Enrolled s.step.1.world.thread ys s.step.1.registered := by
  rcases s.step_cases with hs | ⟨x, rest, hax, hmove⟩
  · rw [hs]
    exact ⟨xs, ha, h⟩
  · obtain ⟨x', ys, rfl⟩ := List.exists_cons_of_ne_nil hx
    obtain ⟨rfl, rfl⟩ : x = x' ∧ rest = ys ++ ts := by simpa [hax] using ha
    have steady : ∀ {ps : List Task}, (∀ p ∈ ps, p.isSteady = true) → ∀ p ∈ ps, p.isJoin = false :=
      fun hp p hm => Task.isJoin_of_isPlain (Task.isPlain_of_isSteady (hp p hm))
    have plain : x.isPlain = true → Enrolled s.world.thread ys s.registered := fun ht =>
      (Enrolled.cons_iff (Task.isJoin_of_isPlain ht)).mp h
    cases hmove.turn with
    | steady ps ht hp hc =>
      refine ⟨ps ++ ys, by rw [hc.agenda, List.append_assoc], ?_⟩
      rw [hc.thread, Enrolled.append_iff ps (steady hp)]
      exact hc.enrolled (plain ht)
    | entered c ops ht _ _ hc hg =>
      refine ⟨.script ops :: .leave c s.world.thread.tracking :: ys, by rw [hc.agenda]; rfl, ?_⟩
      show Enrolled _ ys _
      rw [hg]
      exact (plain ht).register.mono fun _ hn => absurd hn (head?_register _)
    | left c counted ht hc =>
      subst ht
      refine ⟨ys, hc.agenda, ?_⟩
      rw [hc.thread, World.thread_leave]
      exact (hc.enrolled h).mono fun hm _ => hm.of_leaving
    | asked c ops a ht _ _ hc =>
      refine ⟨.script ops :: .unlock c :: .respond a :: ys, by rw [hc.agenda]; rfl, ?_⟩
      rw [hc.thread]
      have hrest := hc.enrolled (plain ht)
      exact hrest
    | unlocked c ht hc =>
      subst ht
      refine ⟨ys, hc.agenda, ?_⟩
      rw [hc.thread]
      have hrest : Enrolled s.world.thread ys s.registered := h
      exact hc.enrolled hrest
    | forked p exit ht hp hc =>
      refine ⟨p :: ((exit.map Task.exit).toList ++ .join s.world.thread :: ys), by
        rw [hc.agenda]; simp, ?_⟩
      have hj : Enrolled s.world.startThread.thread (.join s.world.thread :: ys)
          s.enlist.registered :=
        ⟨false, s.registered, rfl, fun hm => (hm.elim (absurd rfl) nofun), plain ht⟩
      rw [hc.thread, Enrolled.cons_iff (Task.isJoin_of_isPlain (Task.isPlain_of_isSteady hp)),
        Enrolled.append_iff _ (by cases exit <;> simp [Task.isJoin])]
      exact hc.enrolled hj
    | lost ops ps ht hp hc hg =>
      subst ht
      refine ⟨ps ++ ys, by rw [hc.agenda, List.append_assoc], ?_⟩
      have hlost : Enrolled s.world.loseTrack.thread ys s.registered :=
        Enrolled.mono (t := s.world.thread) h fun _ hn => by
          rw [List.headD_eq_head?_getD, hn] at hg
          exact Bool.noConfusion hg
      rw [hc.thread, Enrolled.append_iff ps (steady hp)]
      exact hc.enrolled hlost
    | joined v ht hc =>
      subst ht
      obtain ⟨b, l, hl, -, hrest⟩ := h
      refine ⟨ys, hc.agenda, ?_⟩
      have hleft : Enrolled v ys s.discharge.registered := by
        rw [discharge, hl]
        exact hrest
      rw [hc.thread]
      exact hc.enrolled hleft

theorem enrolled_run (program : Program) (n : Nat) :
    let s := (run n (start program)).1
    Enrolled s.world.thread s.agenda s.registered := by
  refine run_induction (P := fun s => Enrolled s.world.thread s.agenda s.registered)
    (fun s h => ?_) n rfl
  by_cases hx : s.agenda = []
  · rwa [step_of_halted (halted_of_agenda hx)]
  · obtain ⟨ys, hys, hstep⟩ := enrolled_step s.agenda [] (by simp) hx h
    rwa [hys, List.append_nil]

/-- A thread is refused only after it has got at a context before. -/
theorem registered_of_refused (program : Program) (n : Nat) (c : ContextId)
    (hc : (run n (start program)).1.world.access c = .refused) :
    (run n (start program)).1.registered.head? ≠ some false := by
  refine (enrolled_run program n).head_ne ?_
  unfold World.access at hc
  split at hc
  · split at hc
    · next hmem => exact .inl (List.ne_nil_of_mem hmem)
    · split at hc <;> cases hc
  · next ht => exact .inr (Bool.eq_false_iff.mpr ht)

end State

end GatedLog
