import GatedLog.Proofs.Machine.CallStack
import GatedLog.Proofs.Machine.Custody

/-!
# The delivery of messages

Whether a message is worth reporting is decided when it is made, by the gate of that moment, and
never again. A message that ends is handed to the backend that is installed at that moment, once, if
it is worth reporting and the thread gets at its context, and to no backend otherwise
(`delivery_law`).
-/

namespace GatedLog

/-- What is handed to a backend, by which context. -/
def Happening.delivery? : Happening → Option (ContextId × Backend × Message)
  | delivered c b m => some (c, b, m)
  | _ => none

/-- What the backends are handed. -/
def deliveries (hs : List Happening) : List (ContextId × Backend × Message) :=
  hs.filterMap Happening.delivery?

theorem deliveries_of_minor {hs : List Happening} (h : ∀ e ∈ hs, e.isMinor = true) :
    deliveries hs = [] := by
  refine List.filterMap_eq_nil_iff.mpr fun e he => ?_
  have := h e he
  cases e <;> first | rfl | cases this

namespace State

/-- The thread does not get at the context, and does not wait for it either: it is running its backend,
or its own state is gone, and then it does not wait for a context that is entered at all. -/
def ShutOut (s : State) (c : ContextId) : Prop :=
  c ∈ s.stack ∨ s.world.thread.tracking = false ∧ c ∈ s.entered

instance (s : State) (c : ContextId) : Decidable (s.ShutOut c) :=
  inferInstanceAs (Decidable (_ ∨ _))

/-- The thread gets at a context, is shut out, or waits for what comes to no end before it goes on. -/
theorem Disciplined.access_cases {s : State} (h : Disciplined s) (c : ContextId) :
    s.world.access c = .granted ∧ ¬ s.ShutOut c ∨ s.world.access c = .refused ∧ s.ShutOut c ∨
      s.world.access c = .blocked ∧ c ∈ s.entered ∧ c ∉ s.stack := by
  rw [h.access_eq]
  by_cases hs : c ∈ s.stack
  · exact .inr (.inl ⟨if_pos hs, .inl hs⟩)
  · rw [if_neg hs]
    by_cases he : c ∈ s.entered
    · rw [if_pos he]
      cases ht : s.world.thread.tracking with
      | false => exact .inr (.inl ⟨rfl, .inr ⟨ht, he⟩⟩)
      | true => exact .inr (.inr ⟨rfl, he, hs⟩)
    · refine .inl ⟨if_neg he, ?_⟩
      rintro (h | ⟨-, h⟩)
      · exact hs h
      · exact he h

theorem Disciplined.granted_iff_not_shutOut {s : State} (h : Disciplined s) {c : ContextId}
    (hb : s.world.access c ≠ .blocked) : s.world.access c = .granted ↔ ¬ s.ShutOut c := by
  obtain ⟨hg, hn⟩ | ⟨hr, hs⟩ | ⟨hb', -⟩ := h.access_cases c
  · simp [hg, hn]
  · simp [hr, hs]
  · exact absurd hb' hb

/-- The thread waits for the context: another one, which waits for this one, is running its backend, or
the backend is being asked for its name. -/
def HeldUp (s : State) (c : ContextId) : Prop :=
  s.world.thread.tracking = true ∧ c ∈ s.entered ∧ c ∉ s.stack

theorem Disciplined.blocked_iff {s : State} (h : Disciplined s) (c : ContextId) :
    s.world.access c = .blocked ↔ s.HeldUp c := by
  rw [h.access_eq, HeldUp]
  by_cases hs : c ∈ s.stack
  · simp [hs]
  · by_cases he : c ∈ s.entered
    · cases ht : s.world.thread.tracking <;> simp [hs, he]
    · simp [hs, he]

theorem Disciplined.refused_iff {s : State} (h : Disciplined s) (c : ContextId) :
    s.world.access c = .refused ↔ s.ShutOut c := by
  obtain ⟨hg, hn⟩ | ⟨hr, hs⟩ | ⟨hb, he, hs⟩ := h.access_cases c
  · simp [hg, hn]
  · simp [hr, hs]
  · have ht := ((h.blocked_iff c).mp hb).1
    simp [hb, ShutOut, hs, ht]

/-- A thread that is not shut out of a context and does not wait for it gets at it. -/
theorem Disciplined.granted {s : State} {c : ContextId} (h : Disciplined s) (hs : ¬ s.ShutOut c)
    (hw : ¬ s.HeldUp c) : s.world.access c = .granted := by
  cases hc : s.world.access c with
  | granted => rfl
  | refused => exact absurd ((h.refused_iff c).mp hc) hs
  | blocked => exact absurd ((h.blocked_iff c).mp hc) hw

/-- The message is worth reporting exactly if one of its context, severity and component would be that
is made in the state: the thread is not running the backend of the context, one is installed, and its
gate lets the message through. -/
def Decides (s : State) (m : Message) : Prop :=
  m.worth = true ↔ ¬ s.ShutOut m.context ∧
    ∃ i, s.world.installed m.context = some i ∧ i.gate.allows m.severity m.component = true

/-- What is handed out when a message ends in the state. The gate plays no part in it. -/
def handedOut (s : State) (m : Message) : List (ContextId × Backend × Message) :=
  if m.worth = true ∧ ¬ s.ShutOut m.context then
    ((s.world.installed m.context).map fun i => (m.context, i.backend, m)).toList
  else []

/-- The end of the message waits for a thread that waits for this one, or for a backend that is asked
for its name, and the run stops there. -/
structure Stuck (s : State) (m : Message) : Prop where
  entered : m.context ∈ s.entered
  elsewhere : m.context ∉ s.stack
  blocked : s.step.1.condition = .blocked
  deliveries : deliveries s.step.2 = []

/-! ### What happens to messages in a move -/

/-- What can happen in a move. -/
inductive News (s : State) (t : Task) (hs : List Happening) : Prop
  | minor (hq : ∀ e ∈ hs, e.isMinor = true)
  | entered (c : ContextId) (i : Installed) (first rest : List Happening)
    (ht : Entry i.backend c t first) (hc : s.world.access c = .granted)
    (hi : s.world.installed c = some i) (hq : hs = first ++ rest)
    (hr : ∀ e ∈ rest, e.isMinor = true)
  | made (c : ContextId) (sev : Severity) (k : Component) (parts : List Part)
    (hc : s.world.access c ≠ .blocked)
    (hq : hs = .made (s.world.newMessage c sev k) :: additions (s.world.newMessage c sev k) parts)
  | extended (m : Message) (parts : List Part) (hq : hs = additions m parts)
  | ended (m : Message) (ht : t = .drop m)
    (hm : m.worth = false ∨ s.world.access m.context ≠ .granted ∨
      s.world.installed m.context = none) (hq : hs = [.dropped m])

section Moves

variable {s : State} {t : Task} {o : Outcome} {hs : List Happening} {m : Message}

theorem News.quiet (hq : hs = []) : News s t hs :=
  .minor fun e he => by rw [hq] at he; cases he

theorem Move.news (h : Move s t o) : News s t o.2 := by
  cases h with
  | routine ps ht hp h hq => exact .minor hq
  | configured c f ht hc h hq => exact .quiet hq
  | created name i ht h hq => exact .quiet hq
  | swapped c next ps ht hc hp h hq => exact .quiet hq
  | entered c i first rest ops ht hc hi h hq hr => exact .entered c i first rest ht hc hi hq hr
  | left c counted ht h hq => exact .quiet hq
  | asked c i op ops a ht hc hi hn h hq => exact .quiet hq
  | unlocked c ht h hq => exact .quiet hq
  | forked p exit ht hp h hq => exact .quiet hq
  | lost ops ps ht hp h hq => exact .quiet hq
  | joined u ht h hq => exact .quiet hq
  | opened c sev k parts ps ht hc hp h hr hq => exact .made c sev k parts hc hq
  | kept id c sev k parts a ht hc h hr hq => exact .made c sev k parts hc hq
  | extended id m parts ht hm h hq => exact .extended m parts hq
  | closed id m a ht hm h hr hq => exact .quiet hq
  | ended m ht hm h hq => exact .ended m ht hm hq

/-- What begins the run of a backend is the end of a message, or that something is handed out. -/
theorem Entry.mem {b : Backend} {c : ContextId} {e : Happening} (h : Entry b c t hs) (he : e ∈ hs) :
    (∃ m, t = .write c m ∧ e = .delivered c b m) ∨ e = .flushed c b ∨
      ∃ m, t = .drop m ∧ hs = [.dropped m, .delivered m.context b m] ∧ m.context = c ∧
        m.worth = true := by
  cases h with
  | write c m => exact .inl ⟨m, rfl, List.mem_singleton.mp he⟩
  | flush c => exact .inr (.inl (List.mem_singleton.mp he))
  | drop m hm => exact .inr (.inr ⟨m, rfl, rfl, rfl, hm⟩)

theorem News.of_made (h : News s t hs) (hm : .made m ∈ hs) :
    ∃ c sev k, m = s.world.newMessage c sev k ∧ s.world.access c ≠ .blocked := by
  cases h with
  | minor hq => exact absurd (hq _ hm) Bool.false_ne_true
  | entered c i first rest ht hc hi hq hr =>
    rcases List.mem_append.mp (hq ▸ hm) with hm | hm
    · obtain ⟨m', -, he⟩ | he | ⟨m', -, rfl, -⟩ := ht.mem hm
      · cases he
      · cases he
      · simp at hm
    · exact absurd (hr _ hm) Bool.false_ne_true
  | made c sev k parts hc hq =>
    rcases List.mem_cons.mp (hq ▸ hm) with he | he
    · cases he
      exact ⟨c, sev, k, rfl, hc⟩
    · obtain he | ⟨p, he⟩ := mem_additions he <;> cases he
  | extended m' parts hq => obtain he | ⟨p, he⟩ := mem_additions (hq ▸ hm) <;> cases he
  | ended m' ht hm' hq =>
    rw [hq, List.mem_singleton] at hm
    cases hm

theorem News.of_dropped (h : News s t hs) (hm : .dropped m ∈ hs) :
    t = .drop m ∧ deliveries hs =
      if m.worth = true ∧ s.world.access m.context = .granted then
        ((s.world.installed m.context).map fun i => (m.context, i.backend, m)).toList
      else [] := by
  cases h with
  | minor hq => exact absurd (hq _ hm) Bool.false_ne_true
  | entered c i first rest ht hc hi hq hr =>
    rcases List.mem_append.mp (hq ▸ hm) with hm | hm
    · obtain ⟨m', -, he⟩ | he | ⟨m', hd, rfl, rfl, hw⟩ := ht.mem hm
      · cases he
      · cases he
      · obtain rfl : m = m' := by simpa using hm
        refine ⟨hd, ?_⟩
        rw [if_pos ⟨hw, hc⟩, hi, hq]
        exact congrArg _ (deliveries_of_minor hr)
    · exact absurd (hr _ hm) Bool.false_ne_true
  | made c sev k parts hc hq =>
    rcases List.mem_cons.mp (hq ▸ hm) with he | he
    · cases he
    · obtain he | ⟨p, he⟩ := mem_additions he <;> cases he
  | extended m' parts hq => obtain he | ⟨p, he⟩ := mem_additions (hq ▸ hm) <;> cases he
  | ended m' ht hm' hq =>
    obtain rfl : m = m' := by simpa [hq] using hm
    refine ⟨ht, ?_⟩
    rw [hq]
    split
    · next h =>
      obtain hw | hg | hi := hm'
      · rw [hw] at h
        exact absurd h.1 Bool.false_ne_true
      · exact absurd h.2 hg
      · rw [hi]
        rfl
    · rfl

theorem News.of_delivered {c : ContextId} {b : Backend} (h : News s t hs)
    (hm : .delivered c b m ∈ hs) : t = .write c m ∨ .dropped m ∈ hs := by
  cases h with
  | minor hq => exact absurd (hq _ hm) Bool.false_ne_true
  | entered c i first rest ht hc hi hq hr =>
    rcases List.mem_append.mp (hq ▸ hm) with hm | hm
    · obtain ⟨m', hw, he⟩ | he | ⟨m', -, rfl, rfl, -⟩ := ht.mem hm
      · cases he
        exact .inl hw
      · cases he
      · obtain ⟨-, -, rfl⟩ : _ ∧ _ ∧ m = m' := by simpa using hm
        right
        rw [hq]
        simp
    · exact absurd (hr _ hm) Bool.false_ne_true
  | made c sev k parts hc hq =>
    rcases List.mem_cons.mp (hq ▸ hm) with he | he
    · cases he
    · obtain he | ⟨p, he⟩ := mem_additions he <;> cases he
  | extended m' parts hq => obtain he | ⟨p, he⟩ := mem_additions (hq ▸ hm) <;> cases he
  | ended m' ht hm' hq =>
    rw [hq, List.mem_singleton] at hm
    cases hm

/-- Messages come to the agenda at its top, to end in the next step. -/
theorem Move.endingOn_tail (h : Move s t o) (hs : endingOn s.agenda = []) :
    endingOn o.1.agenda.tail = [] ∧ (endingOn o.1.agenda ≠ [] → o.1.condition = .running) := by
  -- most moves put no message on the agenda
  have none : endingOn o.1.agenda = [] →
      endingOn o.1.agenda.tail = [] ∧ (endingOn o.1.agenda ≠ [] → o.1.condition = .running) := by
    intro h
    refine ⟨List.sublist_nil.mp ?_, fun hn => absurd h hn⟩
    rw [← h]
    exact (List.tail_sublist _).filterMap _
  have ordinary : ∀ {ps : List Task} {w : World}, (∀ p ∈ ps, p.isOrdinary = true) →
      s.Leads w ps o → endingOn o.1.agenda = [] := by
    intro ps w hp h
    rw [h.agenda, endingOn_append, endingOn_of_ordinary hp, hs, List.nil_append]
  cases h with
  | routine ps ht hp h hq => exact none (ordinary hp h)
  | configured c f ht hc h hq => exact none (ordinary (by simp) h)
  | created name i ht h hq => exact none (ordinary (by simp) h)
  | swapped c next ps ht hc hp h hq => exact none (ordinary hp h)
  | entered c i first rest ops ht hc hi h hq hr => exact none (by rw [h.agenda]; exact hs)
  | left c counted ht h hq => exact none (ordinary (by simp) h)
  | asked c i op ops a ht hc hi hn h hq => exact none (by rw [h.agenda]; exact hs)
  | unlocked c ht h hq => exact none (ordinary (by simp) h)
  | forked p exit ht hp h hq =>
    refine none ?_
    rw [h.agenda, ← List.singleton_append, endingOn_append, endingOn_append,
      endingOn_of_ordinary (by simpa using hp), agenda_enlist, hs]
    cases exit <;> rfl
  | lost ops ps ht hp h hq => exact none (ordinary hp h)
  | joined u ht h hq => exact none (by rw [h.agenda]; exact hs)
  | opened c sev k parts ps ht hc hp h hr hq =>
    refine ⟨?_, fun _ => hr⟩
    rw [h.agenda]
    show endingOn (ps ++ s.agenda) = []
    rw [endingOn_append, endingOn_of_ordinary hp, hs, List.nil_append]
  | kept id c sev k parts a ht hc h hr hq =>
    refine ⟨?_, fun _ => hr⟩
    rw [h.agenda]
    cases s.world.held.get? id with
    | none => exact hs
    | some m => exact hs
  | extended id m parts ht hm h hq => exact none (ordinary (by simp) h)
  | closed id m a ht hm h hr hq =>
    refine ⟨?_, fun _ => hr⟩
    rw [h.agenda]
    exact hs
  | ended m ht hm h hq => exact none (ordinary (by simp) h)

end Moves

/-! ### Messages that are about to end -/

/-- A message that is about to end does so next. -/
def Prompt (s : State) : Prop :=
  endingOn s.agenda.tail = [] ∧ (endingOn s.agenda ≠ [] → s.condition = .running)

theorem prompt_run (program : Program) (n : Nat) : Prompt (run n (start program)).1 := by
  refine run_induction (fun s hs => ?_) n ⟨rfl, fun h => absurd rfl h⟩
  rcases s.step_cases with hstep | ⟨t, ts, ha, hmove⟩
  · rw [hstep]
    exact hs
  · have htail := hs.1
    rw [ha] at htail
    exact hmove.endingOn_tail htail

theorem Prompt.dropped_mem {s : State} {m : Message} (h : Prompt s) (hm : .drop m ∈ s.agenda) :
    .dropped m ∈ s.step.2 := by
  have hend : m ∈ endingOn s.agenda := List.mem_filterMap.mpr ⟨_, hm, rfl⟩
  obtain ⟨t, ts, ha⟩ := List.exists_cons_of_ne_nil (List.ne_nil_of_mem hm)
  have hr := h.2 (List.ne_nil_of_mem hend)
  have htail := h.1
  rw [ha] at hm htail
  rcases List.mem_cons.mp hm with rfl | hm
  · simp only [step, hr, ha, perform]
    exact List.mem_cons_self ..
  · have : m ∈ endingOn ts := List.mem_filterMap.mpr ⟨_, hm, rfl⟩
    rw [show endingOn ts = [] from htail] at this
    cases this

/-! ### The law -/

theorem mem_run {e : Happening} {n : Nat} {s : State} (he : e ∈ (run n s).2) :
    ∃ k, k < n ∧ e ∈ (run k s).1.step.2 := by
  induction n generalizing s with
  | zero => exact absurd he List.not_mem_nil
  | succ n ih =>
    rw [run_succ] at he
    rcases List.mem_append.mp he with he | he
    · exact ⟨0, by omega, he⟩
    · obtain ⟨k, hk, he⟩ := ih he
      exact ⟨k + 1, by omega, by rwa [run_succ]⟩

theorem mem_births {k : Nat} {m : Message} {hs : List Happening} (h : m ∈ births k hs) :
    .made m ∈ hs ∧ m.serial = k := by
  obtain ⟨e, he, hb⟩ := List.mem_filterMap.mp h
  cases e with
  | made m' =>
    rw [Happening.birth?] at hb
    split at hb
    · next hk =>
      obtain rfl := Option.some.inj hb
      exact ⟨he, hk⟩
    · cases hb
  | _ => cases hb

theorem Disciplined.decides_newMessage {s : State} (h : Disciplined s) {c : ContextId}
    (hb : s.world.access c ≠ .blocked) (sev : Severity) (k : Component) :
    Decides s (s.world.newMessage c sev k) := by
  show s.world.shouldLog c sev k = true ↔ ¬ s.ShutOut c ∧
    ∃ i, s.world.installed c = some i ∧ i.gate.allows sev k = true
  rw [← h.granted_iff_not_shutOut hb, World.shouldLog, World.visible]
  by_cases hg : s.world.access c = .granted
  · rw [if_pos hg, Option.any_eq_true]
    simp [hg]
  · simp [hg]

/-- A message that ends is the next task, of a run that is not unwinding. -/
theorem step_of_dropped {s : State} {m : Message} (hm : .dropped m ∈ s.step.2) :
    ∃ ts, s.agenda = .drop m :: ts ∧ s.step = { s with agenda := ts }.drop m := by
  obtain ⟨t, ts, ha, hmove⟩ := exists_move hm
  obtain ⟨rfl, -⟩ := hmove.news.of_dropped hm
  refine ⟨ts, ha, ?_⟩
  simp only [step, ha] at hm ⊢
  cases hc : s.condition with
  | running => rfl
  | unwinding text =>
    rw [hc] at hm
    exact absurd hm List.not_mem_nil
  | blocked =>
    rw [hc] at hm
    exact absurd hm List.not_mem_nil
  | aborted =>
    rw [hc] at hm
    exact absurd hm List.not_mem_nil

theorem Disciplined.deliveries_eq {s : State} {m : Message} (h : Disciplined s)
    (hm : .dropped m ∈ s.step.2) : deliveries s.step.2 = s.handedOut m ∨ s.Stuck m := by
  obtain ⟨t, ts, ha, hmove⟩ := exists_move hm
  obtain ⟨rfl, hd⟩ := hmove.news.of_dropped hm
  have hd : deliveries s.step.2 = if m.worth = true ∧ s.world.access m.context = .granted then
    ((s.world.installed m.context).map fun i => (m.context, i.backend, m)).toList else [] := hd
  by_cases hw : m.worth = true
  · obtain ⟨hg, hn⟩ | ⟨hr, hs⟩ | ⟨hb, he, hs⟩ := h.access_cases m.context
    · left
      rw [hd, handedOut, if_pos ⟨hw, hg⟩, if_pos ⟨hw, hn⟩]
    · left
      rw [hd, handedOut, if_neg (by simp [hr]), if_neg (by simp [hs])]
    · right
      obtain ⟨us, -, hstep⟩ := step_of_dropped hm
      refine ⟨he, hs, ?_, ?_⟩
      · rw [hstep]
        simp [State.drop, State.write, accessing, hw, hb]
      · rw [hd, if_neg (by simp [hb])]
  · left
    rw [hd, handedOut, if_neg fun hx => hw hx.1, if_neg fun hx => hw hx.1]

/-- What became of a message of a run, after `n` steps: it was made in one of them, which decided
whether it is worth reporting, and it is what was made then but for its text, which the values that
were added to it make up if it is worth reporting. -/
def Traced (program : Program) (n : Nat) (m : Message) : Prop :=
  ∃ k < n, ∃ m₀ : Message, .made m₀ ∈ (run k (start program)).1.step.2 ∧
    Decides (run k (start program)).1 m₀ ∧ births m.serial (run n (start program)).2 = [m₀] ∧
    m = { m₀ with
      text := if m₀.worth then Part.renderAll (valuesAdded m.serial (run n (start program)).2) else "" }

/-- What a run does with messages, in the step after the first `n`. -/
structure DeliveryLaw (program : Program) (n : Nat) (s : State) (past : List Happening) : Prop where
  /-- A message is made once, empty, and it is decided then whether it is worth reporting. -/
  made : ∀ m, .made m ∈ s.step.2 → m.text = "" ∧ births m.serial past = [] ∧ Decides s m
  /-- What happened since then to a message that is open has not changed the decision. -/
  opened : ∀ id m, s.world.held.get? id = some m → Traced program n m
  /-- A message ends once, and what is handed out then, the message itself if anything, depends on
  the decision and on what is installed now, unless the end is never reached. -/
  dropped : ∀ m, .dropped m ∈ s.step.2 → Traced program n m ∧ m.serial ∉ endedIn past ∧
    (deliveries s.step.2 = s.handedOut m ∨ s.Stuck m)
  /-- A message that is about to end does so next, even if the run is about to panic. -/
  ending : ∀ m, .drop m ∈ s.agenda → .dropped m ∈ s.step.2
  /-- Nothing else is handed out, except for what the program itself writes to a context. -/
  delivered : ∀ c b m, .delivered c b m ∈ s.step.2 →
    .dropped m ∈ s.step.2 ∨ ∃ ts, s.agenda = .write c m :: ts

theorem eq_newMessage_of_made {s : State} {m : Message} (hm : .made m ∈ s.step.2) :
    ∃ c sev k, m = s.world.newMessage c sev k ∧ s.world.access c ≠ .blocked := by
  obtain ⟨t, ts, -, hmove⟩ := exists_move hm
  exact hmove.news.of_made hm

theorem Disciplined.decides_of_made {s : State} {m : Message} (h : Disciplined s)
    (hm : .made m ∈ s.step.2) : Decides s m := by
  obtain ⟨c, sev, k, rfl, hb⟩ := eq_newMessage_of_made hm
  exact h.decides_newMessage hb sev k

/-- A message that has not ended can be traced back to its beginning. -/
theorem traced_of_alive {program : Program} {n : Nat} {m : Message}
    (hm : m ∈ (run n (start program)).1.alive) : Traced program n m := by
  obtain ⟨m₀, hb, ht, hgrown⟩ := (custody_run program n).grown m hm
  obtain ⟨hmade, -⟩ := mem_births (show m₀ ∈ births m.serial _ by rw [hb]; exact List.mem_cons_self ..)
  obtain ⟨k, hk, hstep⟩ := mem_run hmade
  refine ⟨k, hk, m₀, hstep, (disciplined_run program k).decides_of_made hstep, hb, ?_⟩
  rw [Message.appendAll_eq, ht] at hgrown
  exact hgrown

/-- **The delivery law**, in every state that a program can reach. -/
theorem delivery_law (program : Program) (n : Nat) :
    DeliveryLaw program n (run n (start program)).1 (run n (start program)).2 := by
  have hc := custody_run program n
  have hd := disciplined_run program n
  refine ⟨fun m hm => ?_, fun id m hm => ?_, fun m hm => ?_, fun m hm => ?_, fun c b m hm => ?_⟩
  · have hdec := hd.decides_of_made hm
    obtain ⟨c, sev, k, rfl, -⟩ := eq_newMessage_of_made hm
    exact ⟨rfl, (hc.unborn _ (Nat.le_refl _)).1, hdec⟩
  · exact traced_of_alive (List.mem_append_left _ (Table.mem_values_of_get? hm))
  · obtain ⟨ts, ha, -⟩ := step_of_dropped hm
    have halive : m ∈ (run n (start program)).1.alive := by
      rw [alive, ha]
      exact List.mem_append_right _ (List.mem_cons_self ..)
    refine ⟨traced_of_alive halive, fun hended => ?_, hd.deliveries_eq hm⟩
    have := (List.nodup_append.mp hc.nodup).2.2 m.serial (List.mem_map.mpr ⟨m, halive, rfl⟩)
    exact this m.serial hended rfl
  · exact (prompt_run program n).dropped_mem hm
  · obtain ⟨t, ts, ha, hmove⟩ := exists_move hm
    rcases hmove.news.of_delivered hm with rfl | hdrop
    · exact .inr ⟨ts, ha⟩
    · exact .inl hdrop

end State

end GatedLog
