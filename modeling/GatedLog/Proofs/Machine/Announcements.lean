import GatedLog.Proofs.Machine.Errands

/-!
# What the announcements of swaps are worth

A swap is announced when what has been replaced is gone: the backend is swapped first, the destructor
of the old one runs next, and the event comes last. A destructor that swaps backends itself does so
between the two, so its events come before the outer one although its swaps come after it. The last
event of an operation (`Announced`) is therefore that of a swap after which only the destructor of what
it replaced can have swapped; what it says is true if that destructor left the context alone
(`last_announcement`), and it may be wrong if not (`last_announcement_wrong`).
-/

namespace GatedLog

/-- Whether the event announces that a swap has been done. -/
def Event.isAnnouncement : Event → Bool
  | installed _ => true
  | removed => true
  | _ => false

theorem Event.isLifecycle_of_isAnnouncement {e : Event} (h : e.isAnnouncement = true) :
    e.isLifecycle = true := by
  cases e <;> first | rfl | cases h

/-- The swap that is announced. -/
def Happening.announcement? : Happening → Option Event
  | emitted e => if e.isAnnouncement then some e else none
  | _ => none

/-- The swaps that are announced, in the order of the events. -/
def announcements (hs : List Happening) : List Event := hs.filterMap Happening.announcement?

theorem announcements_append (hs is : List Happening) :
    announcements (hs ++ is) = announcements hs ++ announcements is := List.filterMap_append

theorem mem_announcements {hs : List Happening} {e : Event} :
    e ∈ announcements hs ↔ .emitted e ∈ hs ∧ e.isAnnouncement = true := by
  rw [announcements, List.mem_filterMap]
  constructor
  · rintro ⟨x, hx, hx'⟩
    cases x with
    | emitted e' =>
      rw [Happening.announcement?] at hx'
      split at hx'
      · next hn =>
        obtain rfl := Option.some.inj hx'
        exact ⟨hx, hn⟩
      · cases hx'
    | _ => cases hx'
  · rintro ⟨he, hn⟩
    exact ⟨_, he, by rw [Happening.announcement?, if_pos hn]⟩

namespace State

variable {s : State} {c : ContextId}

theorem isAnnouncement_swapped (next : Option Installed) : (swapped next).isAnnouncement = true := by
  cases next <;> rfl

theorem not_isAnnouncement_notSwapped (next : Option Installed) :
    (notSwapped next).isAnnouncement = false := by
  cases next <;> rfl

/-- The event depends on the backend that is put in alone. -/
theorem swapped_congr {x y : Option Installed} (h : x.map (·.backend) = y.map (·.backend)) :
    swapped x = swapped y := by
  cases x <;> cases y <;> simp_all [swapped]

/-- The next step puts `next` into the context, in front of the tasks `ts`. -/
structure Swaps (s : State) (c : ContextId) (next : Option Installed) (ts : List Task) : Prop where
  running : s.condition = .running
  granted : s.world.access c = .granted
  agenda : s.agenda = .swap c next :: ts

theorem Replaces.exists_swaps (h : Replaces s c) : ∃ next ts, s.Swaps c next ts := by
  obtain ⟨hr, hg, next, ts, ha⟩ := h
  exact ⟨next, ts, hr, hg, ha⟩

theorem Swaps.replaces {next : Option Installed} {ts : List Task} (h : s.Swaps c next ts) :
    Replaces s c := ⟨h.running, h.granted, next, ts, h.agenda⟩

/-- What has been replaced is to be destroyed, and then the swap to be announced. -/
theorem Swaps.agenda_step {next : Option Installed} {ts : List Task} (h : s.Swaps c next ts) :
    s.step.1.agenda =
      destroying ((s.world.installed c).map (·.backend)) ++ .emit (swapped next) :: ts := by
  rw [step_of_running h.running h.agenda, perform, swap, accessing]
  have hg : ({ s with agenda := ts } : State).world.access c = .granted := h.granted
  rw [hg]
  show _ ++ [_] ++ ts = _
  rw [List.append_assoc]
  rfl

theorem run_of_emit {e : Event} {ts : List Task} (hr : s.condition = .running)
    (ha : s.agenda = .emit e :: ts) : s.step.2 = [.emitted e] := by
  rw [step_of_running hr ha]
  rfl

/-! ### Tasks are taken off the agenda one by one -/

/-- A step takes one task off the agenda at most. -/
theorem agenda_step (s : State) :
    s.step.1.agenda = s.agenda ∨ ∃ t ts ps, s.agenda = t :: ts ∧ s.step.1.agenda = ps ++ ts := by
  rcases s.step_cases with hs | ⟨t, ts, ha, hmove⟩
  · exact .inl (by rw [hs])
  · obtain ⟨ps, hps⟩ := hmove.turn.exists_agenda
    exact .inr ⟨t, ts, ps, ha, hps⟩

/-- Where tasks stand in front of others, a step leaves those alone. -/
theorem agenda_step_above {ys us : List Task} (ha : s.agenda = ys ++ us) (hys : ys ≠ []) :
    ∃ zs, s.step.1.agenda = zs ++ us := by
  rcases s.agenda_step with hs | ⟨t, ts, ps, ht, hs⟩
  · exact ⟨ys, hs.trans ha⟩
  · obtain ⟨y, ys, rfl⟩ := List.exists_cons_of_ne_nil hys
    obtain ⟨-, rfl⟩ := List.cons_eq_cons.mp (ht.symm.trans ha)
    exact ⟨ps ++ ys, hs.trans (List.append_assoc ..).symm⟩

/-- A task that is gone after some steps has been the next one before, and has been there till
then. -/
theorem exists_first {t : Task} {ts : List Task} {n : Nat} (ys : List Task)
    (ha : s.agenda = ys ++ t :: ts) (hn : (run n s).1.agenda.length ≤ ts.length) :
    ∃ k < n, (run k s).1.agenda = t :: ts ∧
      ∀ j < k, ∃ zs, zs ≠ [] ∧ (run j s).1.agenda = zs ++ t :: ts := by
  induction n generalizing s ys with
  | zero =>
    rw [run_zero, ha, List.length_append, List.length_cons] at hn
    omega
  | succ n ih =>
    by_cases hys : ys = []
    · subst hys
      exact ⟨0, Nat.succ_pos n, ha, nofun⟩
    · obtain ⟨zs, hzs⟩ := agenda_step_above ha hys
      rw [run_succ] at hn
      obtain ⟨k, hk, hak, hbefore⟩ := ih zs hzs hn
      refine ⟨k + 1, Nat.succ_lt_succ hk, by rwa [run_succ], fun j hj => ?_⟩
      cases j with
      | zero => exact ⟨ys, hys, ha⟩
      | succ j =>
        rw [run_succ]
        exact hbefore j (Nat.lt_of_succ_lt_succ hj)

/-! ### Where announcements come from -/

/-- A task stands in a list that has been put together in one of the two parts. -/
theorem mem_or_of_append_eq {ps xs zs us : List Task} {t : Task}
    (h : ps ++ xs = zs ++ t :: us) :
    (∃ ys, xs = ys ++ t :: us) ∨ ∃ rs, ps = zs ++ t :: rs ∧ us = rs ++ xs := by
  rcases List.append_eq_append_iff.mp h with ⟨ys, -, hys⟩ | ⟨rs, hrs, hus⟩
  · exact .inl ⟨ys, hys⟩
  · cases rs with
    | nil => exact .inl ⟨[], hus.symm⟩
    | cons r rs =>
      obtain ⟨rfl, rfl⟩ := List.cons_eq_cons.mp hus
      exact .inr ⟨rs, hrs, rfl⟩

/-- Nothing but the announcement comes after the destruction of a backend. -/
theorem eq_of_destroying_append {b : Option Backend} {a e : Event} {zs rs : List Task}
    (h : destroying b ++ [.emit a] = zs ++ .emit e :: rs) : e = a ∧ rs = [] := by
  cases b with
  | none =>
    cases zs with
    | nil =>
      obtain ⟨he, rfl⟩ := List.cons_eq_cons.mp h
      exact ⟨(Task.emit.inj he).symm, rfl⟩
    | cons z zs => simp [destroying] at h
  | some b =>
    rcases zs with _ | ⟨z, _ | ⟨z', zs⟩⟩
    · obtain ⟨he, -⟩ := List.cons_eq_cons.mp h
      cases he
    · obtain ⟨he, rfl⟩ := List.cons_eq_cons.mp (List.cons_eq_cons.mp h).2
      exact ⟨(Task.emit.inj he).symm, rfl⟩
    · simp [destroying] at h

/-- The news of a swap comes onto the agenda when the swap is done or refused. -/
theorem Errand.of_news {t : Task} {o : Outcome} {e : Event} {zs us : List Task}
    (h : Errand s t o) (ha : o.1.agenda = zs ++ .emit e :: us) :
    (∃ ys, s.agenda = ys ++ .emit e :: us) ∨
      ∃ c next, t = .swap c next ∧ s.condition = .running ∧ us = s.agenda ∧
        (s.world.access c = .granted ∧ e = State.swapped next ∨
          s.world.access c = .refused ∧ e = notSwapped next) := by
  cases h with
  | none ps hp hps =>
    rcases mem_or_of_append_eq (hps.symm.trans ha) with h | ⟨rs, hrs, -⟩
    · exact .inl h
    · have := hp (.emit e) (by simp [hrs])
      cases this
  | called c next a ht hps hr =>
    rcases mem_or_of_append_eq (hps.symm.trans ha) with h | ⟨rs, hrs, -⟩
    · exact .inl h
    · have : Task.emit e ∈ [Task.swap c next, .respond a] := by simp [hrs]
      simp at this
  | swapped c next ht hr hc hps =>
    rcases mem_or_of_append_eq (hps.symm.trans ha) with h | ⟨rs, hrs, hus⟩
    · exact .inl h
    · obtain ⟨rfl, rfl⟩ := eq_of_destroying_append hrs
      exact .inr ⟨c, next, ht, hr, hus, .inl ⟨hc, rfl⟩⟩
  | refused c next ht hr hc hps =>
    rcases mem_or_of_append_eq (hps.symm.trans ha) with h | ⟨rs, hrs, hus⟩
    · exact .inl h
    · obtain ⟨rfl, rfl⟩ := eq_of_destroying_append hrs
      exact .inr ⟨c, next, ht, hr, hus, .inr ⟨hc, rfl⟩⟩
  | wrote c id m ht hm hps hw hr =>
    rcases mem_or_of_append_eq (hps.symm.trans ha) with h | ⟨rs, hrs, -⟩
    · exact .inl h
    · have : Task.emit e ∈ [Task.write c m, .respond .nothing] := by simp [hrs]
      simp at this

/-- The swap is done, or refused, in the step after the first `j`, and up to the first `k` steps its
event has been waiting since. -/
structure Pending (s : State) (j k : Nat) (c : ContextId) (next : Option Installed) (e : Event)
    (us : List Task) : Prop where
  before : j < k
  running : (run j s).1.condition = .running
  swap : (run j s).1.agenda = .swap c next :: us
  access : (run j s).1.world.access c = .granted ∧ e = swapped next ∨
    (run j s).1.world.access c = .refused ∧ e = notSwapped next
  waits : ∀ i, j < i → i ≤ k → ∃ ys, (run i s).1.agenda = ys ++ .emit e :: us

theorem Pending.extend {j k : Nat} {next : Option Installed} {e : Event} {us ys : List Task}
    (h : Pending s j k c next e us) (ha : (run (k + 1) s).1.agenda = ys ++ .emit e :: us) :
    Pending s j (k + 1) c next e us where
  before := Nat.lt_succ_of_lt h.before
  running := h.running
  swap := h.swap
  access := h.access
  waits i hji hi := by
    rcases Nat.lt_or_eq_of_le hi with hlt | rfl
    · exact h.waits i hji (Nat.le_of_lt_succ hlt)
    · exact ⟨ys, ha⟩

/-- News that are on the agenda have been there from the beginning, or have come with a swap. -/
theorem exists_pending {k : Nat} {e : Event} (zs : List Task) {us : List Task}
    (hk : (run k s).1.agenda = zs ++ .emit e :: us) :
    (∃ ys, s.agenda = ys ++ .emit e :: us) ∨ ∃ j c next, Pending s j k c next e us := by
  induction k generalizing zs with
  | zero => exact .inl ⟨zs, hk⟩
  | succ k ih =>
    have hstep := hk
    rw [run_next] at hstep
    have older : ∀ ys, (run k s).1.agenda = ys ++ .emit e :: us →
        (∃ ys, s.agenda = ys ++ .emit e :: us) ∨ ∃ j c next, Pending s j (k + 1) c next e us :=
      fun ys hys => (ih ys hys).imp_right fun ⟨j, c, next, h⟩ => ⟨j, c, next, h.extend hk⟩
    rcases (run k s).1.step_errand with hs | ⟨x, xs, hx, herrand⟩
    · rw [hs] at hstep
      exact older zs hstep
    · rcases herrand.of_news hstep with ⟨ys, hys⟩ | ⟨c, next, rfl, hr, hus, haccess⟩
      · exact older (x :: ys) (by rw [hx, show xs = _ from hys]; rfl)
      · refine .inr ⟨k, c, next, Nat.lt_succ_self k, hr, by rw [hx, hus], haccess, fun i hki hi => ?_⟩
        obtain rfl : i = k + 1 := by omega
        exact ⟨zs, hk⟩

/-- Since the swap that `e` announces was done, in the step after the first `j`, and up to the first
`k` steps, what it replaced is being destroyed, or the announcement is next. -/
structure Awaited (s : State) (j k : Nat) (c : ContextId) (next : Option Installed) (e : Event)
    (ts : List Task) : Prop where
  before : j < k
  swap : (run j s).1.Swaps c next ts
  named : e = swapped next
  waiting : ∀ i, j < i → i ≤ k → ∃ ys, (run i s).1.agenda = ys ++ .emit e :: ts

theorem Pending.awaited {j k : Nat} {next : Option Installed} {e : Event} {us : List Task}
    (h : Pending s j k c next e us) (he : e.isAnnouncement = true) : Awaited s j k c next e us := by
  rcases h.access with ⟨hg, hnamed⟩ | ⟨-, rfl⟩
  · exact ⟨h.before, ⟨h.running, hg, h.swap⟩, hnamed, h.waits⟩
  · rw [not_isAnnouncement_notSwapped] at he
    cases he

/-- An announcement that has come onto the agenda above some tasks is that of a swap. -/
theorem exists_awaited {t : Task} {ts : List Task} (ha : s.agenda = t :: ts)
    (ht : t.isErrand = false) (k : Nat) {e : Event} (he : e.isAnnouncement = true)
    (zs us : List Task) (hus : ts.length ≤ us.length)
    (hk : (run k s).1.agenda = zs ++ .emit e :: us) :
    ∃ j c next, Awaited s j k c next e us := by
  rcases exists_pending zs hk with ⟨ys, hys⟩ | ⟨j, c, next, h⟩
  · rw [ha] at hys
    cases ys with
    | nil =>
      obtain ⟨rfl, -⟩ := List.cons_eq_cons.mp hys
      cases ht
    | cons y ys =>
      have hlen : ts.length = ys.length + (us.length + 1) := by
        simpa using congrArg List.length (List.cons_eq_cons.mp hys).2
      omega
  · exact ⟨j, c, next, h.awaited he⟩

/-! ### The last announcement of an operation -/

/-- After the last announcement of a run nothing is announced. -/
theorem exists_last_announcement {n : Nat} {e : Event}
    (h : (announcements (run n s).2).getLast? = some e) :
    e.isAnnouncement = true ∧ ∃ k < n, (∃ us, (run k s).1.agenda = .emit e :: us) ∧
      ∀ i, k < i → i < n → announcements (run i s).1.step.2 = [] := by
  induction n with
  | zero => cases h
  | succ n ih =>
    rw [run_next, announcements_append, List.getLast?_append] at h
    cases hl : announcements (run n s).1.step.2 with
    | nil =>
      rw [hl] at h
      obtain ⟨he, k, hk, hemit, hrest⟩ := ih h
      refine ⟨he, k, Nat.lt_succ_of_lt hk, hemit, fun i hki hi => ?_⟩
      rcases Nat.lt_or_eq_of_le (Nat.le_of_lt_succ hi) with hlt | rfl
      · exact hrest i hki hlt
      · exact hl
    | cons e' es =>
      have hmem : e ∈ announcements (run n s).1.step.2 := by
        rw [hl] at h ⊢
        refine List.mem_of_getLast? (h ▸ ?_)
        simp [List.getLast?_cons]
      obtain ⟨hemit, he⟩ := mem_announcements.mp hmem
      obtain ⟨us, hus, -⟩ := emit_of_lifecycle (Event.isLifecycle_of_isAnnouncement he) hemit
      exact ⟨he, n, Nat.lt_succ_self n, ⟨us, hus⟩, fun i hni hi => by omega⟩

/-- The run of an operation up to its end in `n` steps: no panic is under way, and swaps are done in
one context only. -/
structure Calm (s : State) (n : Nat) (c : ContextId) : Prop where
  completes : s.Completes n
  running : ∀ k ≤ n, (run k s).1.condition = .running
  alone : ∀ k < n, ∀ d, Replaces (run k s).1 d → d = c

/-- In a run that does not panic every swap is announced. -/
theorem Calm.exists_announced {o : Op} {ts : List Task} {n : Nat} (h : s.Calm n c)
    (ha : s.agenda = .begin o :: ts) {i : Nat} (hi : i < n) {next : Option Installed}
    {us : List Task} (hs : (run i s).1.Swaps c next us) :
    ∃ k, i < k ∧ k < n ∧ announcements (run k s).1.step.2 ≠ [] := by
  have hlen : ts.length ≤ us.length := by
    obtain ⟨ys, hys⟩ := h.completes.agenda_above ha rfl (Nat.le_of_lt hi)
    have hge := h.completes.2 i hi
    rw [ha, hs.agenda, List.length_cons, List.length_cons] at hge
    exact Nat.le_of_succ_le_succ hge
  have hend : (run (n - (i + 1)) (run (i + 1) s).1).1.agenda.length ≤ us.length := by
    have hlt := h.completes.1
    rw [show n = (i + 1) + (n - (i + 1)) by omega, run_add, ha, List.length_cons] at hlt
    exact Nat.le_trans (Nat.le_of_lt_succ hlt) hlen
  have hstep : (run (i + 1) s).1.agenda =
      destroying (((run i s).1.world.installed c).map (·.backend)) ++
        .emit (swapped next) :: us := by
    rw [run_next]
    exact hs.agenda_step
  obtain ⟨k, hk, hak, -⟩ := exists_first _ hstep hend
  refine ⟨i + 1 + k, by omega, by omega, ?_⟩
  have hrun : (run (i + 1 + k) s).1.agenda = .emit (swapped next) :: us := by
    rw [run_add]
    exact hak
  rw [run_of_emit (h.running _ (by omega)) hrun]
  exact List.ne_nil_of_mem
    (mem_announcements.mpr ⟨List.mem_singleton_self _, isAnnouncement_swapped next⟩)

/-- Where nothing else is put into a context after a swap, it has what the swap put there. -/
theorem Swaps.installed {n i : Nat} {next : Option Installed} {us : List Task}
    (hs : (run i s).1.Swaps c next us) (hl : c < (run i s).1.world.contexts.length) (hi : i < n)
    (hrep : ∀ k, i < k → k < n → ¬ Replaces (run k s).1 c) :
    ((run n s).1.world.installed c).map (·.backend) = next.map (·.backend) := by
  have h := installed_of_swapped (n := n - i) hl hs.running hs.agenda hs.granted (by omega)
    fun k hk hkn => by
      have := hrep (i + k) (by omega) (by omega)
      rwa [run_add] at this
  rw [show n = i + (n - i) by omega, run_add]
  exact h.1

/-- What the last announcement `e` of an operation that ends after `n` steps is worth. -/
structure Announced (s : State) (n : Nat) (c : ContextId) (e : Event) (j k : Nat)
    (next : Option Installed) (us : List Task) : Prop where
  /-- It is that of a swap, after which what the swap replaced has been destroyed. -/
  awaited : s.Awaited j k c next e us
  emitted : k < n ∧ (run k s).1.agenda = .emit e :: us
  /-- It comes after all that is put into the context. -/
  settled : ∀ i, k ≤ i → i < n → ¬ Replaces (run i s).1 c
  /-- It is true, unless the destructor has put something else there meanwhile. -/
  truthful : (∀ i, j < i → i < k → ¬ Replaces (run i s).1 c) →
    e = swapped ((run n s).1.world.installed c)
  /-- If it has, what it put there last is there, whatever the announcement says. -/
  superseded : ∀ i next' vs, j < i → i < k → (run i s).1.Swaps c next' vs →
    (∀ i', i < i' → i' < k → ¬ Replaces (run i' s).1 c) →
    ((run n s).1.world.installed c).map (·.backend) = next'.map (·.backend)

/-- What is announced last is announced for a reason. -/
def Chronicled (s : State) : Prop :=
  ∀ o ts n c e, s.agenda = .begin o :: ts → s.Calm n c →
    (announcements (run n s).2).getLast? = some e → ∃ j k next us, s.Announced n c e j k next us

/-- **What the last announcement of an operation is worth**, in every state that a program can
reach. -/
theorem last_announcement (program : Program) (m : Nat) : Chronicled (run m (start program)).1 := by
  intro o ts n c e ha hcalm hlast
  have haddr : ∀ i, Addressed (run i (run m (start program)).1).1 := fun i => by
    have := addressed_run program (m + i)
    rwa [run_add] at this
  generalize (run m (start program)).1 = s at ha hcalm hlast haddr
  have hl : ∀ {i next us}, (run i s).1.Swaps c next us → c < (run i s).1.world.contexts.length :=
    fun {i next us} hs =>
      (haddr i).aimed (.swap c next) (by rw [hs.agenda]; exact List.mem_cons_self ..) c rfl
  obtain ⟨he, k, hk, ⟨us, hus⟩, hrest⟩ := exists_last_announcement hlast
  have hlen : ts.length ≤ us.length := by
    have := hcalm.completes.2 k hk
    rw [ha, hus, List.length_cons, List.length_cons] at this
    exact Nat.le_of_succ_le_succ this
  obtain ⟨j, d, next, hawaited⟩ := exists_awaited ha rfl k he [] us hlen hus
  obtain rfl : d = c := hcalm.alone j (Nat.lt_trans hawaited.before hk) d hawaited.swap.replaces
  have hsettled : ∀ i, k ≤ i → i < n → ¬ Replaces (run i s).1 d := by
    intro i hki hi hrep
    obtain ⟨next', vs, hs⟩ := hrep.exists_swaps
    obtain ⟨k', hik, hkn, hne⟩ := hcalm.exists_announced ha hi hs
    exact hne (hrest k' (by omega) hkn)
  refine ⟨j, k, next, us, hawaited, ⟨hk, hus⟩, hsettled, fun hquiet => ?_,
    fun i next' vs hji hik hs hquiet => ?_⟩
  · have hin := hawaited.swap.installed (hl hawaited.swap) (Nat.lt_trans hawaited.before hk)
      fun i hji hi => (Nat.lt_or_ge i k).elim (hquiet i hji) fun hki => hsettled i hki hi
    rw [hawaited.named]
    exact swapped_congr hin.symm
  · exact hs.installed (hl hs) (Nat.lt_trans hik hk)
      fun i' hii hi' => (Nat.lt_or_ge i' k).elim (hquiet i' hii) fun hki => hsettled i' hki hi'

/-- The destructor of a backend that is replaced empties the context again. -/
def undone : Program where
  ops := [.install .global (.scripted "a" [] [] [.remove .global]) Gate.unrestricted,
    .install .global .tracing Gate.unrestricted]

theorem eq_global_of_replaces {n : Nat} (h : ∀ k < n, Addressed (run k s).1)
    (hl : ∀ k < n, (run k s).1.world.contexts.length = 1) :
    ∀ k < n, ∀ d, Replaces (run k s).1 d → d = World.global := by
  intro k hk d hrep
  obtain ⟨next, ts, hs⟩ := hrep.exists_swaps
  have hd := (h k hk).aimed (.swap d next) (by rw [hs.agenda]; exact List.mem_cons_self ..) d rfl
  rw [hl k hk] at hd
  exact Nat.lt_one_iff.mp hd

/-- The last announcement of an operation of the program may be wrong. -/
theorem last_announcement_wrong :
    ∃ m o ts n e, (run m (start undone)).1.agenda = .begin o :: .report :: ts ∧
      (run m (start undone)).1.Calm n World.global ∧
      (announcements (run n (run m (start undone)).1).2).getLast? = some e ∧
      e ≠ swapped ((run n (run m (start undone)).1).1.world.installed World.global) := by
  refine ⟨9, _, _, 14, .installed "tracing", rfl, ⟨⟨by decide, by decide⟩, by decide, ?_⟩,
    by decide, by decide⟩
  refine eq_global_of_replaces (fun k _ => ?_) (by decide)
  have := addressed_run undone (9 + k)
  rwa [run_add] at this

end State

end GatedLog
