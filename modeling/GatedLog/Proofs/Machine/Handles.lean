import Mathlib.Algebra.GroupWithZero.Nat
import GatedLog.Proofs.Machine.Stores

/-!
# What the handles hold

A handle is filled by every memory backend that was made for it, in whatever context and however
many there are, and is emptied by `take` and `clear` alone. So what was taken out of it and what it
still holds are, one after the other, the statements that its backends were handed, none of them lost
and none of them twice (`handles_keep`). Nobody empties a handle when its backends go.
-/

namespace GatedLog

/-- Whether a backend captures into the handle. -/
def BackendKind.fills (h : HandleId) : BackendKind → Bool
  | memory g => g == h
  | _ => false

/-- What was captured, where that is the answer. -/
def Answer.records : Answer → List Captured
  | captured rs => rs
  | _ => []

namespace World

variable {w : World}

/-- What a backend adds to the handles. -/
theorem captured_receive {m : Message} {k : BackendKind} (hk : k.Housed w.captures.length)
    (h : HandleId) : (w.receive m k).world.captured h =
      w.captured h ++ if k.fills h && m.worth then [m.captured] else [] := by
  cases k with
  | memory g =>
    rw [BackendKind.fills]
    cases hw : m.worth with
    | false =>
      rw [receive_of_not_worth hw, Bool.and_false]
      exact (List.append_nil _).symm
    | true =>
      simp only [receive, record, hw, if_true, Bool.and_true]
      rw [captured_capture hk ⟨m.severity, m.component, m.text⟩ h]
      by_cases hg : h = g
      · simp [hg, Message.captured]
      · simp [hg, Ne.symm hg]
  | _ =>
    rw [(ownStore_receive ..).captured (by simp)]
    exact (List.append_nil _).symm

theorem captured_clearHandle (w : World) (g h : HandleId) :
    (w.clearHandle g).captured h = if g = h then [] else w.captured h := by
  unfold captured clearHandle
  by_cases hg : g = h
  · subst hg
    cases hc : w.captures[g]? <;> simp [hc]
  · simp [hg]

end World

namespace State

/-- What a step takes out of a handle: what `take` answers, or what `clear` throws away. -/
def withdrawn (h : HandleId) (s : State) : List Captured :=
  match s.storeOp? with
  | some (.take name) => if (s.world.handle name).1 = h then s.step.1.answer.records else []
  | some (.clear name) => if (s.world.handle name).1 = h then s.world.captured h else []
  | _ => []

/-- What is taken out of a handle in so many steps. -/
def withdrawnIn (h : HandleId) : Nat → State → List Captured
  | 0, _ => []
  | n + 1, s => s.withdrawn h ++ withdrawnIn h n s.step.1

variable {s : State}

/-- An operation takes out of the handles what is no longer there. -/
theorem withdrawn_of_operated {op : StoreOp} (hn : s.storeOp? = some op)
    (hw : s.step.1.world = (s.world.applyStore op).1)
    (hanswer : s.step.1.answer = (s.world.applyStore op).2) (h : HandleId) :
    s.withdrawn h ++ s.step.1.world.captured h = s.world.captured h := by
  have hhandle : ∀ name, (s.world.handle name).2.captured = s.world.captured := fun name =>
    (World.keeps_handle s.world name).captured
  unfold withdrawn
  rw [hn, hw, hanswer]
  cases op with
  | take name =>
    simp only [World.applyStore, World.onHandle, Answer.records, World.captured_clearHandle, hhandle]
    split
    · next hg => rw [hg, List.append_nil]
    · rfl
  | clear name =>
    simp only [World.applyStore, World.onHandle, World.captured_clearHandle, hhandle]
    split
    · rw [List.append_nil]
    · rfl
  | _ => exact congrFun ((World.confined_applyStore ..).captured (by simp) (by simp)) h

theorem withdrawn_of_none (hn : s.storeOp? = none) (h : HandleId) : s.withdrawn h = [] := by
  rw [withdrawn, hn]

/-- In one step. -/
theorem withdrawn_append (hs : s.Housed) (h : HandleId) :
    s.withdrawn h ++ s.step.1.world.captured h =
      s.world.captured h ++ (deliveredTo (·.fills h) s.step.2).map Message.captured := by
  rw [hs.deliveredTo_eq fun _ => rfl]
  cases (step_storage hs).1 with
  | kept hn hh hw =>
    rw [withdrawn_of_none hn, hw.captured, hh]
    exact (List.append_nil _).symm
  | operated op hn hh hw hanswer =>
    rw [withdrawn_of_operated hn hw hanswer, hh]
    exact (List.append_nil _).symm
  | received b m v hn hh hb hv hstamp hw =>
    rw [withdrawn_of_none hn, hw, World.captured_receive (hb.mono hv.grown), hv.captured, hh,
      List.nil_append, statementsFor_singleton]
    congr 1
    split <;> rfl

/-- In any number of steps. -/
theorem withdrawnIn_append (n : Nat) (hs : s.Housed) (h : HandleId) :
    withdrawnIn h n s ++ (run n s).1.world.captured h =
      s.world.captured h ++ (deliveredTo (·.fills h) (run n s).2).map Message.captured := by
  induction n generalizing s with
  | zero => exact (List.append_nil _).symm
  | succ n ih =>
    rw [run_succ, withdrawnIn, List.append_assoc, ih (step_storage hs).2, ← List.append_assoc,
      withdrawn_append hs, deliveredTo_append, List.map_append, List.append_assoc]

end State

/-! ### Counting -/

namespace Counts

theorem sum_severities (rs : List Captured) : (Counts.of rs).severities.sum = rs.length := by
  induction rs with
  | nil => rfl
  | cons r rs ih =>
    simp only [Counts.of, Severity.all, List.map_cons, List.map_nil, List.sum_cons, List.sum_nil,
      List.countP_cons, List.length_cons] at ih ⊢
    cases r.severity <;> simp <;> omega

theorem sum_components (rs : List Captured) : (Counts.of rs).components.sum = rs.length := by
  induction rs with
  | nil => rfl
  | cons r rs ih =>
    simp only [Counts.of, Component.all, List.map_cons, List.map_nil, List.sum_cons, List.sum_nil,
      List.countP_cons, List.length_cons] at ih ⊢
    cases r.component <;> simp <;> omega

end Counts

namespace State

variable {s : State}

/-- What the handles hold, after the first `n` steps of a program and from there on. -/
structure HandlesKeep (program : Program) (n : Nat) (s : State) : Prop where
  /-- What was taken out of a handle and what it still holds are the statements delivered to its
  backends, in the order in which they were delivered. -/
  complete : ∀ h, withdrawnIn h n (start program) ++ s.world.captured h =
    (deliveredTo (·.fills h) (run n (start program)).2).map Message.captured
  /-- Whatever it holds comes first in what is taken out from now on, or is still there. -/
  onwards : ∀ h k, withdrawnIn h k s ++ (run k s).1.world.captured h =
    s.world.captured h ++ (deliveredTo (·.fills h) (run k s).2).map Message.captured
  /-- A message that a memory backend is handed by a context and that is worth reporting is captured
  at once, with its severity, its component and its text. -/
  captures : ∀ c b m h, .delivered c b m ∈ s.step.2 → b.kind = .memory h → m.worth = true →
    s.step.1.world.captured h = s.world.captured h ++ [⟨m.severity, m.component, m.text⟩]
  /-- A statement that ends at a backend is worth reporting. -/
  worth : ∀ c b m, .dropped m ∈ s.step.2 → .delivered c b m ∈ s.step.2 → m.worth = true
  /-- Its text is made up of all values that were added to it. -/
  traced : ∀ c b m, .delivered c b m ∈ s.step.2 → Traced program n m
  /-- What `take` answers is what the handle held, and nothing is left. -/
  take : ∀ name, s.storeOp? = some (.take name) →
    s.step.1.answer = .captured (s.world.captured (s.world.handle name).1) ∧
      s.step.1.world.captured (s.world.handle name).1 = []
  clear : ∀ name, s.storeOp? = some (.clear name) →
    s.step.1.world.captured (s.world.handle name).1 = []
  /-- Looking at a handle changes none. -/
  records : ∀ name, s.storeOp? = some (.records name) →
    s.step.1.answer = .captured (s.world.captured (s.world.handle name).1) ∧
      s.step.1.world.captured = s.world.captured
  counts : ∀ name, s.storeOp? = some (.counts name) →
    s.step.1.answer = .counts (Counts.of (s.world.captured (s.world.handle name).1)) ∧
      s.step.1.world.captured = s.world.captured
  /-- What was captured stays where it is as long as nothing is taken out, and nothing else is taken
  for it, whichever backends are replaced, removed or destroyed meanwhile. -/
  readable : ∀ h k, withdrawnIn h k s = [] → s.world.captured h <+: (run k s).1.world.captured h
  /-- A backend that is replaced, and one that is destroyed, leaves the handles and their names. -/
  replaced : ∀ c next ts, s.condition = .running → s.agenda = .swap c next :: ts →
    s.step.1.world.captured = s.world.captured ∧ s.step.1.world.handles = s.world.handles
  destroyed : ∀ b ts, s.condition = .running → s.agenda = .destroy b :: ts →
    s.step.1.world.captured = s.world.captured ∧ s.step.1.world.handles = s.world.handles
  /-- Every statement that a handle holds is counted, and once only among the severities and among
  the components. -/
  sums : ∀ h, (Counts.of (s.world.captured h)).total = (s.world.captured h).length ∧
    (Counts.of (s.world.captured h)).total = (Counts.of (s.world.captured h)).severities.sum ∧
    (Counts.of (s.world.captured h)).total = (Counts.of (s.world.captured h)).components.sum

theorem handles_swap (s : State) (c : ContextId) (next : Option Installed) :
    (s.swap c next).1.world.captured = s.world.captured ∧
      (s.swap c next).1.world.handles = s.world.handles := by
  unfold swap accessing
  cases s.world.access c <;> exact ⟨rfl, rfl⟩

theorem captures_of_delivered (hs : s.Housed) {c : ContextId} {b : Backend} {m : Message}
    {h : HandleId} (hm : .delivered c b m ∈ s.step.2) (hk : b.kind = .memory h)
    (hw : m.worth = true) :
    s.step.1.world.captured h = s.world.captured h ++ [⟨m.severity, m.component, m.text⟩] := by
  have hhanded := handed_of_delivered hm
  cases (step_storage hs).1 with
  | kept hn hh hw => exact nomatch hhanded.symm.trans hh
  | operated op hn hh hw hanswer => exact nomatch hhanded.symm.trans hh
  | received b' m' v hn hh hb hv hstamp hworld =>
    obtain ⟨rfl, rfl⟩ := Prod.mk.inj (List.cons.inj (hh.symm.trans hhanded)).1
    rw [hworld, World.captured_receive (hb.mono hv.grown), hv.captured, hk, hw]
    simp [BackendKind.fills, Message.captured]

/-- **What the handles hold**, in every state that a program can reach. -/
theorem handles_keep (program : Program) (n : Nat) :
    HandlesKeep program n (run n (start program)).1 := by
  have hdirect := direct_run program n
  have hhoused := housed_run program n
  have hfrom := fun k h => withdrawnIn_append k hhoused h
  have hhandle : ∀ name w, World.captured (World.handle w name).2 = w.captured := fun name w =>
    (World.keeps_handle w name).captured
  refine ⟨fun h => ?_, fun h k => hfrom k h, fun c b m h => captures_of_delivered hhoused,
    fun c b m => worth_of_dropped, fun c b m hm => traced_of_alive (hdirect.alive_of_delivered hm),
    fun name hn => ?_, fun name hn => ?_, fun name hn => ?_, fun name hn => ?_, fun h k hnone => ?_,
    fun c next ts hc ha => ?_, fun b ts hc ha => ?_, fun h => ?_⟩
  · -- at the start the handles are empty
    have hstart : (start program).world.captured h = [] := by
      simp [start, World.initial, World.captured]
    rw [withdrawnIn_append n (housed_start program), hstart, List.nil_append]
  · obtain ⟨hw, ha⟩ := step_of_storeOp hn
    rw [hw, ha]
    simp [World.applyStore, World.onHandle, World.captured_clearHandle, hhandle]
  · rw [(step_of_storeOp hn).1]
    simp [World.applyStore, World.onHandle, World.captured_clearHandle]
  · obtain ⟨hw, ha⟩ := step_of_storeOp hn
    rw [hw, ha]
    simp [World.applyStore, World.onHandle, hhandle]
  · obtain ⟨hw, ha⟩ := step_of_storeOp hn
    rw [hw, ha]
    simp [World.applyStore, World.onHandle, hhandle]
  · have h' := hfrom k h
    rw [hnone, List.nil_append] at h'
    exact ⟨_, h'.symm⟩
  · rw [step_of_running hc ha]
    exact handles_swap _ c next
  · rw [step_of_running hc ha]
    exact ⟨rfl, rfl⟩
  · rw [Counts.sum_severities, Counts.sum_components]
    exact ⟨rfl, rfl, rfl⟩

end State

end GatedLog
