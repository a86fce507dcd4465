import GatedLog.Proofs.Correspondence
import GatedLog.Proofs.Mask
import GatedLog.Proofs.Machine.Desk

/-!
# Stricter gates

A gate is stricter than another one if its threshold is at least as high and every bit of its mask,
whether a component has it or not, is in the other mask. Every change of the two gates keeps it so
(`Gate.Stricter.retune`). Behind a stricter gate fewer messages are worth reporting, and those are
the same as behind the other one (`Message.Covered`), also while they are open. So the same commands
at two desks hand over a part of the messages at the stricter one, in the same order
(`Desk.Serves.stricter`).
-/

namespace GatedLog

theorem Severity.le_antisymm {a b : Severity} (h : a ≤ b) (h' : b ≤ a) : a = b := by
  have hrank : a.rank = b.rank := Nat.le_antisymm h h'
  cases a <;> cases b <;> first | rfl | cases hrank

/-! ### Gates -/

namespace Gate

/-- Every bit of the one mask is in the other, and the one threshold is at least the other. -/
structure Stricter (g g' : Gate) : Prop where
  mask : ∀ i, g.mask.has i = true → g'.mask.has i = true
  threshold : g'.threshold ≤ g.threshold

namespace Stricter

variable {g g' : Gate}

theorem refl (g : Gate) : g.Stricter g := ⟨fun _ => id, Nat.le_refl _⟩

/-- Gates that are stricter than each other are equal, in every bit of their masks. -/
theorem antisymm (h : g.Stricter g') (h' : g'.Stricter g) : g = g' :=
  eq_iff_has.mpr ⟨Severity.le_antisymm h.threshold h'.threshold, fun i => ⟨h'.mask i, h.mask i⟩⟩

/-- What passes the stricter gate passes the other one. -/
theorem allows (h : g.Stricter g') {s : Severity} {k : Component} (ha : g.allows s k = true) :
    g'.allows s k = true := by
  obtain ⟨hs, hk⟩ := allows_iff.mp ha
  rw [ComponentMask.contains_eq_has] at hk
  refine allows_iff.mpr ⟨Nat.le_trans h.threshold hs, ?_⟩
  rw [ComponentMask.contains_eq_has]
  exact h.mask _ hk

theorem enable (h : g.Stricter g') (c : Component) : (g.enable c).Stricter (g'.enable c) where
  mask i hi := by
    rw [Gate.enable, ComponentMask.has_insert, Bool.or_eq_true] at hi ⊢
    exact hi.imp_left (h.mask i)
  threshold := h.threshold

theorem disable (h : g.Stricter g') (c : Component) : (g.disable c).Stricter (g'.disable c) where
  mask i hi := by
    rw [Gate.disable, ComponentMask.has_erase, Bool.and_eq_true] at hi ⊢
    exact hi.imp_left (h.mask i)
  threshold := h.threshold

theorem setThreshold (h : g.Stricter g') (s : Severity) :
    (g.setThreshold s).Stricter (g'.setThreshold s) := ⟨h.mask, Nat.le_refl _⟩

/-- The same change of two gates keeps them in their order. -/
theorem retune (h : g.Stricter g') (o : ContextOp) : (o.retune g).Stricter (o.retune g') := by
  cases o with
  | enable c => exact h.enable c
  | disable c => exact h.disable c
  | setThreshold s => exact h.setThreshold s
  | setGate new => exact refl new
  | _ => exact h

end Stricter

end Gate

/-! ### Messages -/

namespace Message

/-- A message that is worth reporting is so on the other side, where it reads the same. -/
def Covered (m m' : Message) : Prop :=
  m.worth = true → m'.worth = true ∧ m'.captured = m.captured

theorem Covered.refl (m : Message) : m.Covered m := fun h => ⟨h, rfl⟩

theorem Covered.append {m m' : Message} (h : m.Covered m') (p : Part) :
    (m.append p).Covered (m'.append p) := by
  intro hw
  rw [worth_append] at hw
  obtain ⟨hw', hc⟩ := h hw
  refine ⟨(m'.worth_append p).trans hw', ?_⟩
  simp only [captured, Captured.mk.injEq] at hc
  obtain ⟨hs, hk, ht⟩ := hc
  simp [append_eq, captured, hw, hw', hs, hk, ht]

theorem Covered.appendAll {m m' : Message} (h : m.Covered m') (ps : List Part) :
    (m.appendAll ps).Covered (m'.appendAll ps) := by
  induction ps generalizing m m' with
  | nil => exact h
  | cons p ps ih => exact ih (h.append p)

end Message

/-- What a backend sees of the messages that are worth reporting. -/
def reported (ms : List Message) : List Captured := (ms.filter (·.worth)).map Message.captured

theorem reported_append (ms ns : List Message) : reported (ms ++ ns) = reported ms ++ reported ns := by
  rw [reported, List.filter_append, List.map_append]
  rfl

theorem reported_eq_map {ms : List Message} (h : ∀ m ∈ ms, m.worth = true) :
    reported ms = ms.map Message.captured := by
  rw [reported, List.filter_eq_self.mpr h]

theorem Message.Covered.reported {m m' : Message} (h : m.Covered m') :
    (reported [m]).Sublist (GatedLog.reported [m']) := by
  cases hw : m.worth with
  | false => simp [GatedLog.reported, hw]
  | true =>
    obtain ⟨hw', hc⟩ := h hw
    simp [GatedLog.reported, hw, hw', hc]

/-! ### Desks -/

/-- Whether the command hands over a message whatever the gate has said of it. -/
def Command.isWrite : Command → Bool
  | write _ => true
  | _ => false

namespace Desk

variable {c c' : ContextId} {d d' e e' : Desk} {os : List Command} {ms ms' : List Message}

@[simp] theorem reported_ended (m : Message) : reported (ended m) = reported [m] := by
  simp [reported, ended, List.filter_filter]

theorem worth_of_ended {m n : Message} (h : m ∈ ended n) : m.worth = true :=
  (List.mem_filter.mp h).2

/-- A command that is not an explicit `write` hands over what is worth reporting, and nothing else. -/
theorem worth_of_perform {o : Command} (ho : o.isWrite = false) {m : Message}
    (hm : m ∈ (d.perform c o).2) : m.worth = true := by
  cases o with
  | log s k parts => exact worth_of_ended hm
  | logLabelled s k label n => exact worth_of_ended hm
  | hold id s k parts =>
    obtain ⟨n, -, hn⟩ := List.mem_flatMap.mp hm
    exact worth_of_ended hn
  | add id parts => cases hg : d.held.get? id <;> simp [perform, hg] at hm
  | write id => cases ho
  | finish id =>
    cases hg : d.held.get? id with
    | none => simp [perform, hg] at hm
    | some n =>
      simp only [perform, hg] at hm
      exact worth_of_ended hm
  | onGate o => cases hm
  | flush => cases hm

/-- The one gate is stricter, and what is open is covered, name by name. -/
structure Stricter (d d' : Desk) : Prop where
  gate : d.gate.Stricter d'.gate
  held : Table.Agree (fun _ => True) Message.Covered d.held d'.held

/-- The numbers of messages do not count. -/
theorem Stricter.of_eq (hg : d.gate = d'.gate) (hh : d.held = d'.held) : d.Stricter d' where
  gate := hg ▸ .refl d.gate
  held := Table.agree_of_eq Message.Covered.refl hh

theorem Stricter.get?_held (h : d.Stricter d') (id : String) :
    d.held.get? id = none ∧ d'.held.get? id = none ∨
      ∃ m m', d.held.get? id = some m ∧ d'.held.get? id = some m' ∧ m.Covered m' := by
  have hrel := h.held id trivial
  generalize d.held.get? id = x at hrel
  generalize d'.held.get? id = y at hrel
  cases hrel with
  | none => exact .inl ⟨rfl, rfl⟩
  | some hm => exact .inr ⟨_, _, rfl, rfl, hm⟩

theorem Stricter.draft (h : d.Stricter d') (s : Severity) (k : Component) (parts : List Part) :
    (d.draft c s k parts).Covered (d'.draft c' s k parts) := by
  unfold Desk.draft
  refine Message.Covered.appendAll (fun hw => ?_) parts
  exact ⟨h.gate.allows hw, rfl⟩

/-- The same command at two desks hands over a part of the messages at the stricter one. -/
theorem Stricter.perform (h : d.Stricter d') (c c' : ContextId) (o : Command) :
    (d.perform c o).1.Stricter (d'.perform c' o).1 ∧
      (reported (d.perform c o).2).Sublist (reported (d'.perform c' o).2) := by
  cases o with
  | log s k parts =>
    simp only [Desk.perform, reported_ended]
    exact ⟨⟨h.gate, h.held⟩, (h.draft s k parts).reported⟩
  | logLabelled s k label n =>
    simp only [Desk.perform, reported_ended]
    exact ⟨⟨h.gate, h.held⟩, (h.draft s k _).reported⟩
  | hold id s k parts =>
    refine ⟨⟨h.gate, h.held.put (h.draft s k parts)⟩, ?_⟩
    simp only [Desk.perform]
    rcases h.get?_held id with ⟨hn, hn'⟩ | ⟨m, m', hg, hg', hm⟩
    · simp [hn, hn']
    · simpa [hg, hg'] using hm.reported
  | add id parts =>
    rcases h.get?_held id with ⟨hn, hn'⟩ | ⟨m, m', hg, hg', hm⟩
    · simp only [Desk.perform, hn, hn']
      exact ⟨h, .refl _⟩
    · simp only [Desk.perform, hg, hg']
      exact ⟨⟨h.gate, h.held.put (hm.appendAll parts)⟩, .refl _⟩
  | write id =>
    refine ⟨h, ?_⟩
    simp only [Desk.perform]
    rcases h.get?_held id with ⟨hn, hn'⟩ | ⟨m, m', hg, hg', hm⟩
    · simp [hn, hn']
    · simpa [hg, hg'] using hm.reported
  | finish id =>
    rcases h.get?_held id with ⟨hn, hn'⟩ | ⟨m, m', hg, hg', hm⟩
    · simp only [Desk.perform, hn, hn']
      exact ⟨h, .refl _⟩
    · simp only [Desk.perform, hg, hg', reported_ended]
      exact ⟨⟨h.gate, h.held.erase id⟩, hm.reported⟩
  | onGate o => exact ⟨⟨h.gate.retune o, h.held⟩, .refl _⟩
  | flush => exact ⟨h, .refl _⟩

/-- The commands lead from one desk to another and hand over messages. Others may make messages
meanwhile, so that the count goes on by itself. -/
inductive Serves (c : ContextId) : Desk → List Command → List Message → Desk → Prop
  | nil (d : Desk) : Serves c d [] [] d
  | cons {d e : Desk} {o : Command} {os : List Command} {ms : List Message} (count : Nat)
    (h : Serves c { (d.perform c o).1 with messages := count } os ms e) :
    Serves c d (o :: os) ((d.perform c o).2 ++ ms) e

/-- Without an explicit `write` all that is handed over is worth reporting. -/
theorem Serves.worth (h : Serves c d os ms e) (hos : ∀ o ∈ os, o.isWrite = false) :
    ∀ m ∈ ms, m.worth = true := by
  induction h with
  | nil d => exact fun m hm => absurd hm List.not_mem_nil
  | cons count h ih =>
    obtain ⟨ho, hos⟩ := List.forall_mem_cons.mp hos
    intro m hm
    rcases List.mem_append.mp hm with hm | hm
    · exact worth_of_perform ho hm
    · exact ih hos m hm

/-- The same commands at two desks keep the gates in their order, and hand over a part of the
messages at the stricter one. -/
theorem Serves.stricter (h : Serves c d os ms e) (h' : Serves c' d' os ms' e')
    (hd : d.Stricter d') : e.Stricter e' ∧ (reported ms).Sublist (reported ms') := by
  induction h generalizing d' ms' with
  | nil d =>
    cases h'
    exact ⟨hd, .refl _⟩
  | @cons d e o os ms count h ih =>
    obtain _ | ⟨count', h'⟩ := h'
    obtain ⟨hnext, hnow⟩ := hd.perform c c' o
    obtain ⟨hend, hlater⟩ := ih h' ⟨hnext.gate, hnext.held⟩
    rw [reported_append, reported_append]
    exact ⟨hend, hnow.append hlater⟩

end Desk

end GatedLog
