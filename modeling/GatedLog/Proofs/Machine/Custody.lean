import Mathlib.Data.List.Perm.Subperm
import GatedLog.Proofs.Machine.Moves
import GatedLog.Proofs.Table

/-!
# The custody of messages

Every message of a run has one place: it is open under a name, or about to end, or it has ended. What
is open grew from the one message that was made with its serial number, by the values that were added
to it since and by nothing else (`custody_run`). A step makes a message, adds values to one, or only
moves messages towards their end (`Care`).
-/

namespace GatedLog

/-! ### Growing messages -/

namespace Message

theorem append_eq (m : Message) (p : Part) :
    m.append p = { m with text := if m.worth then m.text ++ p.render else m.text } := by
  unfold append
  split <;> rfl

/-- Adding values changes the text of a message that is worth reporting, and nothing else. -/
theorem appendAll_eq (m : Message) (ps : List Part) :
    m.appendAll ps =
      { m with text := if m.worth then ps.foldl (fun s p => s ++ p.render) m.text else m.text } := by
  induction ps generalizing m with
  | nil => simp
  | cons p ps ih =>
    rw [appendAll, List.foldl_cons]
    refine (ih (m.append p)).trans ?_
    rw [append_eq]
    cases m.worth <;> simp

@[simp] theorem serial_appendAll (m : Message) (ps : List Part) :
    (m.appendAll ps).serial = m.serial := by
  rw [appendAll_eq]

end Message

/-! ### What a run tells of a message -/

namespace Happening

/-- The message that is made, if it has the serial number. -/
def birth? (k : Nat) : Happening → Option Message
  | made m => if m.serial = k then some m else none
  | _ => none

/-- The values that are added to the message of a serial number. -/
def addition (k : Nat) : Happening → List Part
  | added j ps => if j = k then ps else []
  | _ => []

/-- The serial number of the message that ends. -/
def ended? : Happening → Option Nat
  | dropped m => some m.serial
  | _ => none

end Happening

/-- The messages of a serial number, as they were when they were made. -/
def births (k : Nat) (hs : List Happening) : List Message := hs.filterMap (Happening.birth? k)

/-- The values that were added to the message of a serial number. -/
def valuesAdded (k : Nat) (hs : List Happening) : List Part := hs.flatMap (Happening.addition k)

/-- The serial numbers of the messages that have ended. -/
def endedIn (hs : List Happening) : List Nat := hs.filterMap Happening.ended?

section Traces

variable {hs : List Happening} {k : Nat}

theorem births_append (k : Nat) (hs is : List Happening) :
    births k (hs ++ is) = births k hs ++ births k is := List.filterMap_append

theorem valuesAdded_append (k : Nat) (hs is : List Happening) :
    valuesAdded k (hs ++ is) = valuesAdded k hs ++ valuesAdded k is := List.flatMap_append

theorem endedIn_append (hs is : List Happening) :
    endedIn (hs ++ is) = endedIn hs ++ endedIn is := List.filterMap_append

theorem births_of_minor (h : ∀ e ∈ hs, e.isMinor = true) (k : Nat) : births k hs = [] := by
  refine List.filterMap_eq_nil_iff.mpr fun e he => ?_
  have := h e he
  cases e <;> first | rfl | cases this

theorem valuesAdded_of_minor (h : ∀ e ∈ hs, e.isMinor = true) (k : Nat) : valuesAdded k hs = [] := by
  refine List.flatMap_eq_nil_iff.mpr fun e he => ?_
  have := h e he
  cases e <;> first | rfl | cases this

theorem endedIn_of_minor (h : ∀ e ∈ hs, e.isMinor = true) : endedIn hs = [] := by
  refine List.filterMap_eq_nil_iff.mpr fun e he => ?_
  have := h e he
  cases e <;> first | rfl | cases this

theorem births_additions (k : Nat) (m : Message) (ps : List Part) :
    births k (State.additions m ps) = [] := by
  refine List.filterMap_eq_nil_iff.mpr fun e he => ?_
  rcases State.mem_additions he with rfl | ⟨p, rfl⟩ <;> rfl

theorem valuesAdded_additions (k : Nat) (m : Message) (ps : List Part) :
    valuesAdded k (State.additions m ps) = if m.serial = k then ps else [] := by
  have hr : valuesAdded k ((m.rendered ps).map (Happening.rendered m.serial)) = [] := by
    refine List.flatMap_eq_nil_iff.mpr fun e he => ?_
    obtain ⟨p, -, rfl⟩ := List.mem_map.mp he
    rfl
  rw [State.additions, valuesAdded, List.flatMap_cons]
  exact (congrArg _ hr).trans (List.append_nil _)

theorem endedIn_additions (m : Message) (ps : List Part) : endedIn (State.additions m ps) = [] := by
  refine List.filterMap_eq_nil_iff.mpr fun e he => ?_
  rcases State.mem_additions he with rfl | ⟨p, rfl⟩ <;> rfl

end Traces

/-! ### Where messages are -/

/-- The messages that are open, and those about to end. -/
def aliveIn (held : Table String Message) (ts : List Task) : List Message :=
  held.values ++ endingOn ts

namespace State

/-- The messages of a state that have not ended. -/
def alive (s : State) : List Message := aliveIn s.world.held s.agenda

/-- What a step does with the messages. -/
inductive Care (s : State) (t : Task) (o : Outcome) : Prop
  /-- Some of them are gone, and their ends have happened. -/
  | steady (gone : List Message) (hm : o.1.world.messages = s.world.messages)
    (hb : ∀ k, births k o.2 = []) (hv : ∀ k, valuesAdded k o.2 = [])
    (he : endedIn o.2 = gone.map (·.serial))
    (hp : (o.1.alive ++ gone).Subperm (aliveIn s.world.held (t :: s.agenda)))
  | made (m : Message) (ps : List Part) (hm : o.1.world.messages = s.world.messages + 1)
    (hs : m.serial = s.world.messages) (ht : m.text = "")
    (hb : ∀ k, births k o.2 = if m.serial = k then [m] else [])
    (hv : ∀ k, valuesAdded k o.2 = if m.serial = k then ps else [])
    (he : endedIn o.2 = [])
    (hp : o.1.alive.Subperm (m.appendAll ps :: aliveIn s.world.held (t :: s.agenda)))
  | extended (m : Message) (ps : List Part) (rest : List Message)
    (hm : o.1.world.messages = s.world.messages) (hb : ∀ k, births k o.2 = [])
    (hv : ∀ k, valuesAdded k o.2 = if m.serial = k then ps else [])
    (he : endedIn o.2 = [])
    (ha : (m :: rest).Subperm (aliveIn s.world.held (t :: s.agenda)))
    (hp : o.1.alive.Perm (m.appendAll ps :: rest))

theorem Leads.alive_eq {s : State} {w : World} {ps : List Task} {o : Outcome} (h : s.Leads w ps o) :
    o.1.alive = aliveIn w.held (ps ++ s.agenda) := by
  rw [alive, h.agenda, h.alike.held]

theorem aliveIn_of_ordinary (held : Table String Message) (ps ts : List Task)
    (hp : ∀ p ∈ ps, p.isOrdinary = true) : aliveIn held (ps ++ ts) = aliveIn held ts := by
  rw [aliveIn, endingOn_append, endingOn_of_ordinary hp, List.nil_append, aliveIn]

theorem aliveIn_sublist (held : Table String Message) (t : Task) (ts : List Task) :
    (aliveIn held ts).Sublist (aliveIn held (t :: ts)) :=
  ((List.sublist_cons_self t ts).filterMap _).append_left _

/-- Tasks that are ordinary, and nothing that happens to a message. -/
theorem Care.of_ordinary {s : State} {t : Task} {o : Outcome} {w : World} (ps : List Task)
    (hp : ∀ p ∈ ps, p.isOrdinary = true) (h : s.Leads w ps o) (hw : w.messages = s.world.messages)
    (hh : w.held = s.world.held) (hb : ∀ k, births k o.2 = []) (hv : ∀ k, valuesAdded k o.2 = [])
    (he : endedIn o.2 = []) : Care s t o := by
  refine .steady [] (h.alike.messages.trans hw) hb hv he ?_
  rw [List.append_nil, h.alive_eq, aliveIn_of_ordinary _ ps _ hp, hh]
  exact (aliveIn_sublist _ t s.agenda).subperm

theorem Care.of_quiet {s : State} {t : Task} {o : Outcome} {w : World} (ps : List Task)
    (hp : ∀ p ∈ ps, p.isOrdinary = true) (h : s.Leads w ps o) (hw : w.messages = s.world.messages)
    (hh : w.held = s.world.held) (hq : o.2 = []) : Care s t o :=
  .of_ordinary ps hp h hw hh (fun k => by rw [hq]; rfl) (fun k => by rw [hq]; rfl) (by rw [hq]; rfl)

theorem Care.of_entry {s : State} {t : Task} {o : Outcome} {b : Backend} {c : ContextId}
    {first rest : List Happening} {ops : List Op} (ht : Entry b c t first)
    (h : s.Leads (s.world.enter c) [.script ops, .leave c s.world.thread.tracking] o)
    (hq : o.2 = first ++ rest) (hr : ∀ e ∈ rest, e.isMinor = true) : Care s t o := by
  have hheld : (s.world.enter c).held = s.world.held := by unfold World.enter; split <;> rfl
  have hmsg : (s.world.enter c).messages = s.world.messages := by unfold World.enter; split <;> rfl
  have halive : o.1.alive = aliveIn s.world.held s.agenda := by rw [h.alive_eq, hheld]; rfl
  have hb : ∀ k, births k o.2 = [] := fun k => by
    rw [hq, births_append, births_of_minor hr]
    cases ht <;> rfl
  have hv : ∀ k, valuesAdded k o.2 = [] := fun k => by
    rw [hq, valuesAdded_append, valuesAdded_of_minor hr]
    cases ht <;> rfl
  have he : endedIn o.2 = endedIn first := by
    rw [hq, endedIn_append, endedIn_of_minor hr, List.append_nil]
  have hm := h.alike.messages.trans hmsg
  cases ht with
  | write c m =>
    refine .steady [] hm hb hv he ?_
    rw [List.append_nil, halive]
    exact (aliveIn_sublist _ _ s.agenda).subperm
  | flush c =>
    refine .steady [] hm hb hv he ?_
    rw [List.append_nil, halive]
    exact (aliveIn_sublist _ _ s.agenda).subperm
  | drop m hw =>
    refine .steady [m] hm hb hv he ?_
    rw [halive, aliveIn, List.append_assoc]
    exact (List.perm_append_singleton m _).append_left _ |>.subperm

theorem Care.of_made {s : State} {t : Task} {o : Outcome} {m : Message} {parts : List Part}
    {w : World} {ps : List Task} (hs : m.serial = s.world.messages) (ht : m.text = "")
    (h : s.Leads w ps o) (hw : w.messages = s.world.messages + 1)
    (hq : o.2 = .made m :: additions m parts)
    (hp : (aliveIn w.held (ps ++ s.agenda)).Perm
      (m.appendAll parts :: aliveIn s.world.held s.agenda)) : Care s t o := by
  refine .made m parts (h.alike.messages.trans hw) hs ht ?_ ?_ ?_ ?_
  · intro k
    rw [hq, births, List.filterMap_cons]
    have := births_additions k m parts
    rw [births] at this
    rw [this, Happening.birth?]
    by_cases hk : m.serial = k <;> simp [hk]
  · intro k
    rw [hq, valuesAdded, List.flatMap_cons]
    exact valuesAdded_additions k m parts
  · rw [hq, endedIn, List.filterMap_cons]
    exact endedIn_additions m parts
  · rw [h.alive_eq]
    exact hp.subperm.trans ((aliveIn_sublist _ t s.agenda).cons_cons _).subperm

theorem Move.care {s : State} {t : Task} {o : Outcome} (h : Move s t o) : Care s t o := by
  cases h with
  | routine ps ht hp h hq =>
    exact .of_ordinary ps hp h rfl rfl (births_of_minor hq) (valuesAdded_of_minor hq)
      (endedIn_of_minor hq)
  | configured c f ht hc h hq =>
    rw [World.configure, if_pos hc] at h
    exact .of_quiet [] (by simp) h rfl rfl hq
  | created name i ht h hq => exact .of_quiet [] (by simp) h rfl rfl hq
  | swapped c next ps ht hc hp h hq => exact .of_quiet ps hp h rfl rfl hq
  | entered c i first rest ops ht hc hi h hq hr => exact .of_entry ht h hq hr
  | left c counted ht h hq =>
    have hm : (s.world.leave c counted).messages = s.world.messages := by cases counted <;> rfl
    have hh : (s.world.leave c counted).held = s.world.held := by cases counted <;> rfl
    exact .of_quiet [] (by simp) h hm hh hq
  | asked c i op ops a ht hc hi hn h hq =>
    refine .steady [] h.alike.messages (fun k => by rw [hq]; rfl) (fun k => by rw [hq]; rfl)
      (by rw [hq]; rfl) ?_
    rw [List.append_nil, h.alive_eq]
    exact (aliveIn_sublist _ t s.agenda).subperm
  | unlocked c ht h hq => exact .of_quiet [] (by simp) h rfl rfl hq
  | forked p exit ht hp h hq =>
    refine .steady [] h.alike.messages (fun k => by rw [hq]; rfl) (fun k => by rw [hq]; rfl)
      (by rw [hq]; rfl) ?_
    have hend : endingOn (p :: ((exit.map Task.exit).toList ++ [.join s.world.thread])) = [] := by
      rw [← List.singleton_append, endingOn_append, endingOn_of_ordinary (by simpa using hp)]
      cases exit <;> rfl
    rw [List.append_nil, h.alive_eq, aliveIn, endingOn_append, hend]
    exact (aliveIn_sublist _ t s.agenda).subperm
  | lost ops ps ht hp h hq => exact .of_quiet ps hp h rfl rfl hq
  | joined u ht h hq =>
    refine .steady [] h.alike.messages (fun k => by rw [hq]; rfl) (fun k => by rw [hq]; rfl)
      (by rw [hq]; rfl) ?_
    rw [List.append_nil, h.alive_eq]
    exact (aliveIn_sublist _ t s.agenda).subperm
  | opened c sev k parts ps ht hc hp h hr hq =>
    refine .of_made rfl rfl h rfl hq ?_
    rw [List.cons_append, aliveIn, endingOn_drop, endingOn_append, endingOn_of_ordinary hp]
    exact List.perm_middle
  | kept id c sev k parts a ht hc h hr hq =>
    refine .of_made rfl rfl h rfl hq ?_
    obtain ⟨rest, h₁, h₂⟩ := s.world.held.exists_perm_put id
      ((s.world.newMessage c sev k).appendAll parts)
    have hend : endingOn (((s.world.held.get? id).map Task.drop).toList ++ [.respond a] ++ s.agenda)
        = (s.world.held.get? id).toList ++ endingOn s.agenda := by
      cases s.world.held.get? id <;> rfl
    rw [aliveIn, hend]
    have hswap : (rest ++ ((s.world.held.get? id).toList ++ endingOn s.agenda)).Perm
        (s.world.held.values ++ endingOn s.agenda) := by
      rw [← List.append_assoc]
      exact (List.perm_append_comm.trans h₁.symm).append_right _
    exact (h₂.append_right _).trans (hswap.cons _)
  | extended id m parts ht hm h hq =>
    obtain ⟨rest, h₁, h₂⟩ := s.world.held.exists_perm_put id (m.appendAll parts)
    rw [hm] at h₁
    refine .extended m parts (rest ++ endingOn s.agenda) h.alike.messages ?_ ?_ ?_ ?_ ?_
    · intro k
      rw [hq, births_additions]
    · intro k
      rw [hq, valuesAdded_additions]
    · rw [hq, endedIn_additions]
    · exact (h₁.symm.append_right (endingOn s.agenda)).subperm.trans
        (aliveIn_sublist _ t s.agenda).subperm
    · rw [h.alive_eq]
      exact h₂.append_right _
  | closed id m a ht hm h hr hq =>
    obtain ⟨rest, h₁, h₂⟩ := Table.exists_perm_erase hm
    refine .steady [] h.alike.messages (fun k => by rw [hq]; rfl) (fun k => by rw [hq]; rfl)
      (by rw [hq]; rfl) ?_
    rw [List.append_nil, h.alive_eq]
    refine List.Subperm.trans ?_ (aliveIn_sublist _ t s.agenda).subperm
    -- the message goes from the table to the agenda
    have : ((s.world.held.erase id).values ++ m :: endingOn s.agenda).Subperm
        (rest ++ m :: endingOn s.agenda) := (h₂.append_right _).subperm
    exact (this.trans List.perm_middle.subperm).trans (h₁.symm.append_right _).subperm
  | ended m ht hm h hq =>
    subst ht
    refine .steady [m] h.alike.messages (fun k => by rw [hq]; rfl) (fun k => by rw [hq]; rfl)
      (by rw [hq]; rfl) ?_
    rw [h.alive_eq, aliveIn, aliveIn, endingOn_drop, List.append_assoc]
    exact ((List.perm_append_singleton m _).append_left _).subperm

end State

/-! ### The invariant -/

/-- The message grew from the only one that was made with its serial number, empty at first, by the
values that were added to it. -/
def Grown (hs : List Happening) (m : Message) : Prop :=
  ∃ m₀ : Message, births m.serial hs = [m₀] ∧ m₀.text = "" ∧
    m = m₀.appendAll (valuesAdded m.serial hs)

/-- After the happenings `hs` there were `k` messages, and `ms` are those that have not ended. -/
structure Custody (k : Nat) (ms : List Message) (hs : List Happening) : Prop where
  unborn : ∀ j, k ≤ j → births j hs = [] ∧ valuesAdded j hs = []
  below : ∀ j ∈ ms.map (·.serial) ++ endedIn hs, j < k
  /-- No message is in two places, and none that has ended is anywhere. -/
  nodup : (ms.map (·.serial) ++ endedIn hs).Nodup
  grown : ∀ m ∈ ms, Grown hs m

namespace Custody

variable {k : Nat} {ms ns : List Message} {hs is : List Happening}

theorem mono (h : Custody k ms hs) (hn : ns.Subperm ms) : Custody k ns hs := by
  obtain ⟨l, hp, hl⟩ := hn
  have hperm := (hp.map (·.serial)).append_right (endedIn hs)
  have hsub := (hl.map (·.serial)).append_right (endedIn hs)
  exact {
    unborn := h.unborn
    below := fun j hj => h.below j (hsub.subset (hperm.mem_iff.mpr hj))
    nodup := hperm.nodup_iff.mp (h.nodup.sublist hsub)
    grown := fun m hm => h.grown m (hl.subset (hp.mem_iff.mpr hm)) }

/-- Messages end. -/
theorem retire {gone : List Message} (h : Custody k (ms ++ gone) hs)
    (hb : ∀ j, births j is = []) (hv : ∀ j, valuesAdded j is = [])
    (he : endedIn is = gone.map (·.serial)) : Custody k ms (hs ++ is) := by
  have hperm : ((ms ++ gone).map (·.serial) ++ endedIn hs).Perm
      (ms.map (·.serial) ++ endedIn (hs ++ is)) := by
    rw [endedIn_append, he, List.map_append, List.append_assoc]
    exact List.perm_append_comm.append_left _
  refine ⟨fun j hj => ?_, fun j hj => h.below j (hperm.mem_iff.mpr hj), hperm.nodup_iff.mp h.nodup,
    fun m hm => ?_⟩
  · rw [births_append, valuesAdded_append, hb, hv, List.append_nil, List.append_nil]
    exact h.unborn j hj
  · unfold Grown
    rw [births_append, valuesAdded_append, hb, hv, List.append_nil, List.append_nil]
    exact h.grown m (List.mem_append_left _ hm)

/-- A message is made. -/
theorem made {m : Message} {ps : List Part} (h : Custody k ms hs) (hk : m.serial = k)
    (ht : m.text = "") (hb : ∀ j, births j is = if m.serial = j then [m] else [])
    (hv : ∀ j, valuesAdded j is = if m.serial = j then ps else []) (he : endedIn is = []) :
    Custody (k + 1) (m.appendAll ps :: ms) (hs ++ is) := by
  have hlist : (m.appendAll ps :: ms).map (·.serial) ++ endedIn (hs ++ is) =
      k :: (ms.map (·.serial) ++ endedIn hs) := by
    rw [List.map_cons, Message.serial_appendAll, hk, endedIn_append, he, List.append_nil]
    rfl
  refine ⟨fun j hj => ?_, ?_, ?_, ?_⟩
  · obtain ⟨h₁, h₂⟩ := h.unborn j (by omega)
    rw [births_append, valuesAdded_append, h₁, h₂, hb, hv, if_neg (by omega), if_neg (by omega)]
    exact ⟨rfl, rfl⟩
  · rw [hlist]
    intro j hj
    rcases List.mem_cons.mp hj with rfl | hj
    · omega
    · have := h.below j hj
      omega
  · rw [hlist]
    exact List.nodup_cons.mpr ⟨fun hmem => absurd (h.below k hmem) (by omega), h.nodup⟩
  · intro m' hm'
    rcases List.mem_cons.mp hm' with rfl | hm'
    · obtain ⟨h₁, h₂⟩ := h.unborn m.serial (by omega)
      refine ⟨m, ?_, ht, ?_⟩
      · rw [Message.serial_appendAll, births_append, h₁, hb, if_pos rfl, List.nil_append]
      · rw [Message.serial_appendAll, valuesAdded_append, h₂, hv, if_pos rfl, List.nil_append]
    · have hlt := h.below m'.serial
        (List.mem_append_left _ (List.mem_map.mpr ⟨m', hm', rfl⟩))
      unfold Grown
      rw [births_append, valuesAdded_append, hb, hv, if_neg (by omega), if_neg (by omega),
        List.append_nil, List.append_nil]
      exact h.grown m' hm'

/-- Values are added to a message. -/
theorem extended {m : Message} {ps : List Part} (h : Custody k (m :: ms) hs)
    (hb : ∀ j, births j is = [])
    (hv : ∀ j, valuesAdded j is = if m.serial = j then ps else []) (he : endedIn is = []) :
    Custody k (m.appendAll ps :: ms) (hs ++ is) := by
  have hlist : (m.appendAll ps :: ms).map (·.serial) ++ endedIn (hs ++ is) =
      (m :: ms).map (·.serial) ++ endedIn hs := by
    rw [List.map_cons, Message.serial_appendAll, endedIn_append, he, List.append_nil, List.map_cons]
  refine ⟨fun j hj => ?_, hlist ▸ h.below, hlist ▸ h.nodup, ?_⟩
  · obtain ⟨h₁, h₂⟩ := h.unborn j hj
    have hlt := h.below m.serial (by simp)
    rw [births_append, valuesAdded_append, h₁, h₂, hb, hv, if_neg (by omega)]
    exact ⟨rfl, rfl⟩
  · intro m' hm'
    rcases List.mem_cons.mp hm' with rfl | hm'
    · obtain ⟨m₀, h₁, h₂, h₃⟩ := h.grown m (List.mem_cons_self ..)
      refine ⟨m₀, ?_, h₂, ?_⟩
      · rw [Message.serial_appendAll, births_append, hb, List.append_nil, h₁]
      · rw [Message.serial_appendAll, valuesAdded_append, hv, if_pos rfl, Message.appendAll_append,
          ← h₃]
    · -- no other message has this serial number
      have hne : m.serial ≠ m'.serial := fun heq =>
        (List.nodup_cons.mp h.nodup).1
          (List.mem_append_left _ (List.mem_map.mpr ⟨m', hm', heq.symm⟩))
      unfold Grown
      rw [births_append, valuesAdded_append, hb, hv, if_neg hne, List.append_nil, List.append_nil]
      exact h.grown m' (List.mem_cons_of_mem _ hm')

end Custody

namespace State

theorem custody_start (program : Program) :
    Custody (start program).world.messages (start program).alive [] where
  unborn _ _ := ⟨rfl, rfl⟩
  below _ hj := absurd hj List.not_mem_nil
  nodup := List.nodup_nil
  grown _ hm := absurd hm List.not_mem_nil

theorem custody_step {s : State} {hs : List Happening} (h : Custody s.world.messages s.alive hs) :
    Custody s.step.1.world.messages s.step.1.alive (hs ++ s.step.2) := by
  rcases s.step_cases with hs | ⟨t, ts, ha, hmove⟩
  · rw [hs, List.append_nil]
    exact h
  · rw [alive, ha] at h
    cases hmove.care with
    | steady gone hm hb hv he hp =>
      rw [hm]
      exact (h.mono hp).retire hb hv he
    | made m ps hm hs ht hb hv he hp =>
      rw [hm]
      exact (h.made hs ht hb hv he).mono hp
    | extended m ps rest hm hb hv he ha hp =>
      rw [hm]
      exact ((h.mono ha).extended hb hv he).mono hp.subperm

/-- What holds at first and is kept by every step, of the state and of what has happened so far,
holds after every run. -/
theorem run_induction_past {P : List Happening → State → Prop}
    (hstep : ∀ hs s, P hs s → P (hs ++ s.step.2) s.step.1) (n : Nat) {hs : List Happening}
    {s : State} (h : P hs s) : P (hs ++ (run n s).2) (run n s).1 := by
  induction n generalizing hs s with
  | zero =>
    rw [run_zero, List.append_nil]
    exact h
  | succ n ih =>
    rw [run_succ, ← List.append_assoc]
    exact ih (hstep hs s h)

/-- Every message that a run has made is in one place, and is what was made of it. -/
theorem custody_run (program : Program) (n : Nat) :
    Custody (run n (start program)).1.world.messages (run n (start program)).1.alive
      (run n (start program)).2 :=
  run_induction_past (P := fun hs s => Custody s.world.messages s.alive hs)
    (fun _ _ => custody_step) n (custody_start program)

end State

end GatedLog
