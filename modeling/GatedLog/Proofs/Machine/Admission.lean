import GatedLog.Proofs.Machine.Delivery
import GatedLog.Proofs.Machine.Errands

/-!
# What backends get to see

A message that ends reaches a backend only if it passed the gate of its context when it was made. A
program may also write an open message to any context, and nobody asks the gate then: the backend
that is installed there gets the message whether it passed or not (`admission`). The backends of the
library look for themselves and leave such a message alone; one of the program's own takes it.
-/

namespace GatedLog

theorem mem_deliveries {hs : List Happening} {c : ContextId} {b : Backend} {m : Message} :
    (c, b, m) ∈ deliveries hs ↔ .delivered c b m ∈ hs := by
  rw [deliveries, List.mem_filterMap]
  constructor
  · rintro ⟨e, he, hd⟩
    cases e <;> simp_all [Happening.delivery?]
  · exact fun h => ⟨_, h, rfl⟩

/-- The operations that a backend runs when a message reaches it. Those of the library run none by
themselves. -/
def BackendKind.onWrite : BackendKind → List Op
  | .custom _ ops _ _ _ => ops
  | _ => []

/-- A backend leaves a message alone that is not worth reporting, unless it is the program's own. -/
theorem World.receive_of_not_worth {m : Message} (hw : m.worth = false) (w : World)
    (k : BackendKind) : w.receive m k = { world := w, ops := k.onWrite } := by
  unfold World.receive
  cases k <;> simp [hw, BackendKind.onWrite]

namespace State

variable {s : State} {program : Program} {n : Nat} {m : Message}

/-- In one of the first `n` steps of the program the message was made, empty at first, and passed the
gate of its context then. -/
def Passed (program : Program) (n : Nat) (m : Message) : Prop :=
  ∃ k < n, .made { m with text := "" } ∈ (run k (start program)).1.step.2 ∧
    ¬ (run k (start program)).1.ShutOut m.context ∧
    ∃ i, (run k (start program)).1.world.installed m.context = some i ∧
      i.gate.allows m.severity m.component = true

/-- A message of a run is worth reporting exactly if it passed the gate when it was made. -/
theorem Traced.worth_iff (h : Traced program n m) : m.worth = true ↔ Passed program n m := by
  constructor
  · intro hw
    obtain ⟨k, hk, m₀, hmade, hdec, -, hm⟩ := h
    obtain ⟨c, sev, comp, h₀, -⟩ := eq_newMessage_of_made hmade
    have htext : { m with text := "" } = m₀ := by rw [hm, h₀]; rfl
    have hw₀ : m₀.worth = true := by rw [← htext]; exact hw
    obtain ⟨hs, i, hi, hg⟩ := hdec.mp hw₀
    subst htext
    exact ⟨k, hk, hmade, hs, i, hi, hg⟩
  · rintro ⟨k, -, hmade, hs, i, hi, hg⟩
    exact ((disciplined_run program k).decides_of_made hmade).mpr ⟨hs, i, hi, hg⟩

/-- What is written to a context reaches the backend that the thread finds there, if any. -/
theorem write_deliveries (s : State) (c : ContextId) (m : Message) :
    deliveries (s.write c m).2 =
      ((s.world.visible c).map fun i => (c, i.backend, m)).toList := by
  unfold State.write State.accessing World.visible
  cases hc : s.world.access c with
  | granted =>
    cases hi : s.world.installed c with
    | none => rfl
    | some i =>
      have hrest := deliveries_of_minor ((s.world.enter c).outward_receive m i.backend.kind).minor
      show (c, i.backend, m) :: deliveries _ = _
      rw [hrest]
      rfl
  | refused => rfl
  | blocked => rfl

/-- Nothing comes of a message that is not worth reporting but that the backend runs. -/
theorem write_of_not_worth {c : ContextId} {i : Installed} (hw : m.worth = false)
    (hi : s.world.visible c = some i) :
    s.write c m = s.running c (.delivered c i.backend m)
      { world := s.world.enter c, ops := i.backend.kind.onWrite } := by
  unfold World.visible at hi
  split at hi
  · next hc =>
    simp only [State.write, State.accessing, hc, hi, World.receive_of_not_worth hw, register_running]
  · cases hi

/-- How messages come to the backends, in the step after the first `n`. -/
structure Admission (program : Program) (n : Nat) (s : State) : Prop where
  /-- What passed the gate when it was made is worth reporting, and nothing else is. -/
  worth_iff : ∀ c b m, .delivered c b m ∈ s.step.2 → (m.worth = true ↔ Passed program n m)
  /-- A message that ends passed the gate of the context that hands it to its backend. -/
  ended : ∀ c b m, .delivered c b m ∈ s.step.2 → .dropped m ∈ s.step.2 →
    c = m.context ∧ Passed program n m
  /-- Whatever else a backend gets is open, and the program writes it to the context. -/
  written : ∀ c b m, .delivered c b m ∈ s.step.2 → .dropped m ∉ s.step.2 →
    ∃ ts id, s.agenda = .write c m :: ts ∧ s.world.held.get? id = some m
  /-- Then the backend gets it whether it passed a gate or not. -/
  unchecked : ∀ c m ts, s.condition = .running → s.agenda = .write c m :: ts →
    deliveries s.step.2 = ((s.world.visible c).map fun i => (c, i.backend, m)).toList
  /-- If it did not, nothing comes of it except for what a backend of the program runs. -/
  ignored : ∀ c m ts i, s.condition = .running → s.agenda = .write c m :: ts →
    s.world.visible c = some i → m.worth = false →
      s.step.2 = [.delivered c i.backend m] ∧ s.step.1.world = s.world.enter c ∧
      s.step.1.agenda = .script i.backend.kind.onWrite :: .leave c s.world.thread.tracking :: ts

/-- A message that is handed to a backend has not ended before. -/
theorem Direct.alive_of_delivered (h : Direct s) {c : ContextId} {b : Backend}
    (hm : .delivered c b m ∈ s.step.2) : m ∈ s.alive := by
  obtain ⟨t, ts, ha, hmove⟩ := exists_move hm
  rcases hmove.news.of_delivered hm with rfl | hdrop
  · obtain ⟨id, hid⟩ := h.held c m ts ha
    exact List.mem_append_left _ (Table.mem_values_of_get? hid)
  · obtain ⟨us, hus, -⟩ := step_of_dropped hdrop
    rw [alive, hus]
    exact List.mem_append_right _ (List.mem_cons_self ..)

/-- **Who gets past the gate**, in every state that a program can reach. -/
theorem admission (program : Program) (n : Nat) :
    Admission program n (run n (start program)).1 := by
  have hdirect := direct_run program n
  have htraced : ∀ m, m ∈ (run n (start program)).1.alive → Traced program n m :=
    fun m => traced_of_alive
  generalize (run n (start program)).1 = s at hdirect htraced
  refine ⟨fun c b m hm => ?_, fun c b m hm hdrop => ?_, fun c b m hm hdrop => ?_,
    fun c m ts hr ha => ?_, fun c m ts i hr ha hi hw => ?_⟩
  · exact (htraced m (hdirect.alive_of_delivered hm)).worth_iff
  · obtain ⟨t, ts, ha, hmove⟩ := exists_move hm
    obtain ⟨-, hd⟩ := hmove.news.of_dropped hdrop
    have hmem := mem_deliveries.mpr hm
    rw [hd] at hmem
    split at hmem
    · next hw =>
      obtain ⟨i, -, hi⟩ := Option.map_eq_some_iff.mp (Option.mem_toList.mp hmem)
      obtain ⟨rfl, -⟩ := Prod.mk.inj hi
      exact ⟨rfl, (htraced m (hdirect.alive_of_delivered hm)).worth_iff.mp hw.1⟩
    · cases hmem
  · obtain ⟨t, ts, ha, hmove⟩ := exists_move hm
    rcases hmove.news.of_delivered hm with rfl | h
    · obtain ⟨id, hid⟩ := hdirect.held c m ts ha
      exact ⟨ts, id, ha, hid⟩
    · exact absurd h hdrop
  · rw [step_of_running hr ha, perform]
    exact write_deliveries _ c m
  · have hstep := write_of_not_worth (s := { s with agenda := ts }) hw hi
    rw [step_of_running hr ha, perform, hstep]
    exact ⟨rfl, rfl, rfl⟩

/-- A statement that the gate of a context stops is written to that context. -/
def stopped : Program where
  ops := [.install .global (.scripted "s" [] [] []) { threshold := .error },
    .hold "m" .global .info .rpc [],
    .write .global "m"]

/-- Not everything that is handed to a backend is worth reporting. -/
theorem not_always_admitted :
    ¬ ∀ c b m, .delivered c b m ∈ (run 25 (start stopped)).2 → m.worth = true := by
  intro h
  have hworth : (deliveries (run 25 (start stopped)).2).map (fun d => d.2.2.worth) = [false] := rfl
  have hmem : false ∈ (deliveries (run 25 (start stopped)).2).map (fun d => d.2.2.worth) := by
    rw [hworth]
    exact List.mem_singleton_self _
  obtain ⟨⟨c, b, m⟩, hd, hw⟩ := List.mem_map.mp hmem
  exact Bool.false_ne_true (hw.symm.trans (h c b m (mem_deliveries.mp hd)))

end State

end GatedLog
