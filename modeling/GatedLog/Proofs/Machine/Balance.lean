import Mathlib.Data.List.Perm.Subperm
import GatedLog.Proofs.Machine.CallStack
import GatedLog.Proofs.Machine.Trades

/-!
# The balance of a step

What the owners of backends have after a step, and what the step destroys, is what they had before
and what they gained: a backend that has just been made, or one that stood outside any context
(`step_balance`). Only a thread that waits for a context for good takes a backend out of the account
(`waiting`). A backend that a call has been given, or that is about to be destroyed, is so for one
step only; what a builder has chosen stays with it while a destructor runs above it (`Brief`).
-/

namespace GatedLog

namespace Task

/-- Whether the task is a builder that goes on. -/
def isBuild : Task → Bool
  | build _ _ _ _ _ => true
  | _ => false

end Task

namespace World

/-- The serial numbers of the backends of the contexts. -/
def fittedSerials (w : World) : List Nat := w.fitted.filterMap (·.map (·.backend.serial))

theorem length_fitted (w : World) : w.fitted.length = w.contexts.length := List.length_map _

end World

namespace State

/-- The serial numbers of the backends that tasks own. -/
def ownedOn (ts : List Task) : List Nat := ts.filterMap fun t => (owned t).map (·.serial)

/-- The serial numbers of the backends that contexts and tasks own. -/
def owning (s : State) : List Nat := s.world.fittedSerials ++ ownedOn s.agenda

/-- The backend that was to be installed by a call that comes to wait for its context for good. -/
def waiting (s : State) : List Nat :=
  match s.condition, s.agenda with
  | .running, .swap c (some i) :: _ =>
    if s.world.access c = .blocked then [i.backend.serial] else []
  | _, _ => []

/-- Every name and every task that is aimed at a context means one that there is. -/
structure Addressed (s : State) : Prop where
  nonempty : 0 < s.world.contexts.length
  names : ∀ c ∈ s.world.names.values, c < s.world.contexts.length
  aimed : ∀ t ∈ s.agenda, ∀ c, t.target? = some c → c < s.world.contexts.length

section

variable {s : State} {t : Task} {o : Outcome}

theorem Addressed.lookUp (h : Addressed s) (ctx : ContextName) :
    s.world.lookUp ctx < s.world.contexts.length := by
  cases ctx with
  | global => exact h.nonempty
  | named name =>
    rw [World.lookUp]
    cases hc : s.world.names.get? name with
    | none => exact h.nonempty
    | some c => exact h.names c (Table.mem_values_of_get? hc)

theorem Trade.pushes (h : Trade s t o) : ∃ ps, s.Pushes t ps o := by
  cases h with
  | idle h =>
    obtain ⟨ps, -, hg⟩ := h.pushes
    exact ⟨ps, hg⟩
  | stuck c next ht hc hr hs => exact ⟨[], by rw [hs]; exact .of_unaimed rfl (by simp)⟩
  | _ => exact ⟨_, ‹s.Pushes t _ o›⟩

/-- A context that has been made stays, and a new one comes with its name. -/
theorem Trade.names (h : Trade s t o) :
    o.1.world.names = s.world.names ∧
      o.1.world.contexts.length = s.world.contexts.length ∨
    ∃ name, o.1.world.names = s.world.names.put name s.world.contexts.length ∧
      o.1.world.contexts.length = s.world.contexts.length + 1 := by
  have same : ∀ {v : World}, v.fitted = s.world.fitted →
      v.contexts.length = s.world.contexts.length := fun h => by
    rw [← World.length_fitted, h, World.length_fitted]
  have more : ∀ {v : World} {i : Option Installed}, v.fitted = s.world.fitted ++ [i] →
      v.contexts.length = s.world.contexts.length + 1 := fun h => by
    rw [← World.length_fitted, h, List.length_append, World.length_fitted]
    rfl
  cases h with
  | idle h => exact .inl ⟨h.stocked.names, same h.stocked.fitted⟩
  | announced e ht hg hw hr hq => exact .inl (by rw [hw]; exact ⟨rfl, rfl⟩)
  | adjusted op c f ht hc hg hf hn hb ho hr hq =>
    refine .inl ⟨hn, ?_⟩
    rw [← World.length_fitted, hf, List.length_modify, World.length_fitted]
  | registered ht hg hf hn hb ho hm hq => exact .inl ⟨hn, same hf⟩
  | opened name ht hg hf hn hb ho hq => exact .inr ⟨name, hn, more hf⟩
  | created name i hs hg hf hn hr hq => exact .inr ⟨name, hn, more hf⟩
  | called c i p hs hp hg hf hn hr hq => exact .inl ⟨hn, same hf⟩
  | chose step steps chosen b w g g' gates target ht hc hm hg hr =>
    exact .inl ⟨hm.names, same hm.fitted⟩
  | tuned step steps chosen g g' gates gates' target ht hg hw hr hq =>
    exact .inl ⟨hw.names, same hw.fitted⟩
  | failed step steps chosen g gates target f a ht hc hg hw hr hq =>
    exact .inl ⟨hw.names, same hw.fitted⟩
  | swapped c next e ht hc hg hw hr hq =>
    rw [hw]
    exact .inl ⟨rfl, List.length_modify ..⟩
  | stuck c next ht hc hr hs =>
    rw [hs]
    exact .inl ⟨rfl, rfl⟩
  | refused c next e ht hc hg hw hr hq => exact .inl (by rw [hw]; exact ⟨rfl, rfl⟩)
  | destroyed b ops ht hg hw hr hq => exact .inl (by rw [hw]; exact ⟨rfl, rfl⟩)
  | givenUp b text ht hu hg hw hr hq => exact .inl (by rw [hw]; exact ⟨rfl, rfl⟩)

theorem addressed_start (program : Program) : Addressed (start program) where
  nonempty := Nat.one_pos
  names c hc := absurd hc List.not_mem_nil
  aimed t ht c hc := by
    obtain rfl := List.mem_singleton.mp ht
    cases hc

theorem Addressed.step (h : Addressed s) : Addressed s.step.1 := by
  rcases s.step_trade with ⟨hs, -⟩ | ⟨t, ts, ha, -, htrade⟩
  · rw [hs]
    exact h
  · obtain ⟨ps, hg⟩ := htrade.pushes
    have hlen : s.world.contexts.length ≤ s.step.1.world.contexts.length := by
      rcases htrade.names with ⟨-, hl⟩ | ⟨-, -, hl⟩
      · exact Nat.le_of_eq hl.symm
      · exact hl.symm ▸ Nat.le_succ _
    refine ⟨Nat.lt_of_lt_of_le h.nonempty hlen, fun c hc => ?_, fun p hp c hc => ?_⟩
    · rcases htrade.names with ⟨hn, -⟩ | ⟨name, hn, hl⟩
      · rw [hn] at hc
        exact Nat.lt_of_lt_of_le (h.names c hc) hlen
      · obtain ⟨rest, h₁, h₂⟩ := s.world.names.exists_perm_put name s.world.contexts.length
        rw [hn] at hc
        rw [hl]
        rcases List.mem_cons.mp (h₂.mem_iff.mp hc) with rfl | hc
        · exact Nat.lt_succ_self _
        · exact Nat.lt_succ_of_lt
            (h.names c (h₁.mem_iff.mpr (List.mem_append_right _ hc)))
    · refine Nat.lt_of_lt_of_le ?_ hlen
      rw [hg.agenda] at hp
      rcases List.mem_append.mp hp with hp | hp
      · rcases hg.aimed p hp c hc with ⟨ctx, rfl⟩ | ht
        · exact h.lookUp ctx
        · exact h.aimed t (by rw [ha]; exact List.mem_cons_self ..) c ht
      · exact h.aimed p (by rw [ha]; exact List.mem_cons_of_mem _ hp) c hc

theorem addressed_run (program : Program) (n : Nat) : Addressed (run n (start program)).1 :=
  run_induction (fun _ => Addressed.step) n (addressed_start program)

/-! ### The balance -/

/-- A backend is with a call, or about to be destroyed, at the head of the agenda only, while the
run goes on normally; below, and in the course of unwinding, there are builders at most. -/
structure Brief (s : State) : Prop where
  below : ∀ t ∈ s.agenda.tail, owned t = none ∨ t.isBuild = true
  anywhere : ∀ t ∈ s.agenda, owned t = none ∨ t.isBuild = true ∨ s.condition = .running

/-- The tasks that a trade puts on the agenda. -/
structure Shape (ps : List Task) (o : Outcome) : Prop where
  /-- A builder that has a backend comes below the destruction of another one only. -/
  below : ∀ p ∈ ps.tail, owned p = none ∨ p.isBuild = true ∧ ∃ b, ps = [.destroy b, p]
  anywhere : ∀ p ∈ ps, owned p = none ∨ o.1.condition = .running

theorem Shape.of_running {ps : List Task} (hr : o.1.condition = .running)
    (h : ∀ p ∈ ps.tail, owned p = none ∨ p.isBuild = true ∧ ∃ b, ps = [.destroy b, p]) :
    Shape ps o :=
  ⟨h, fun _ _ => .inr hr⟩

theorem Shape.of_destroying (hr : o.1.condition = .running) (b : Option Backend) {p : Task}
    (hp : owned p = none ∨ p.isBuild = true) : Shape (destroying b ++ [p]) o := by
  refine .of_running hr fun q hq => ?_
  cases b with
  | none => cases hq
  | some b =>
    obtain rfl := List.mem_singleton.mp hq
    exact hp.imp_right fun hp => ⟨hp, b, rfl⟩

theorem Trade.shape (h : Trade s t o) : ∃ ps, o.1.agenda = ps ++ s.agenda ∧ Shape ps o := by
  cases h with
  | idle h =>
    obtain ⟨ps, hps, hg⟩ := h.pushes
    exact ⟨ps, hg.agenda, fun p hp => .inl (hps p (List.mem_of_mem_tail hp)),
      fun p hp => .inl (hps p hp)⟩
  | registered ht hg hf hn hb ho hm hq => exact ⟨[], hg.agenda, by simp, by simp⟩
  | opened name ht hg hf hn hb ho hq => exact ⟨[], hg.agenda, by simp, by simp⟩
  | announced e ht hg hw hr hq => exact ⟨[], hg.agenda, by simp, by simp⟩
  | adjusted op c f ht hc hg => exact ⟨[], hg.agenda, by simp, by simp⟩
  | created name i hs hg hf hn hr hq => exact ⟨[], hg.agenda, by simp, by simp⟩
  | called c i p hs hp hg hf hn hr hq =>
    refine ⟨_, hg.agenda, .of_running hr fun q hq => ?_⟩
    obtain rfl := List.mem_singleton.mp hq
    exact .inl hp
  | chose step steps chosen b w g g' gates target ht hc hm hg hr hq =>
    exact ⟨_, hg.agenda, .of_destroying hr chosen (.inr rfl)⟩
  | tuned step steps chosen g g' gates gates' target ht hg hw hr hq =>
    exact ⟨_, hg.agenda, .of_running hr (by simp)⟩
  | failed step steps chosen g gates target f a ht hc hg hw hr hq =>
    exact ⟨_, hg.agenda, .of_destroying hr chosen (.inl rfl)⟩
  | swapped c next e ht hc hg hw hr hq =>
    exact ⟨_, hg.agenda, .of_destroying hr _ (.inl rfl)⟩
  | refused c next e ht hc hg hw hr hq =>
    exact ⟨_, hg.agenda, .of_destroying hr _ (.inl rfl)⟩
  | stuck c next ht hc hr hs => exact ⟨[], by rw [hs]; rfl, by simp, by simp⟩
  | destroyed b ops ht hg hw hr hq => exact ⟨_, hg.agenda, .of_running hr (by simp)⟩
  | givenUp b text ht hu hg hw hr hq =>
    exact ⟨_, hg.agenda, .of_destroying hr (some b) (.inl rfl)⟩

theorem Brief.step (h : Brief s) : Brief s.step.1 := by
  rcases s.step_trade with ⟨hs, -⟩ | ⟨t, ts, ha, -, htrade⟩
  · rw [hs]
    exact h
  · obtain ⟨ps, hps, hshape⟩ := htrade.shape
    have hbelow := h.below
    rw [ha, List.tail_cons] at hbelow
    constructor
    · intro p hp
      rw [hps] at hp
      cases ps with
      | nil => exact hbelow p (List.mem_of_mem_tail hp)
      | cons q qs =>
        rcases List.mem_append.mp hp with hp | hp
        · exact (hshape.below p hp).imp_right And.left
        · exact hbelow p hp
    · intro p hp
      rw [hps] at hp
      rcases List.mem_append.mp hp with hp | hp
      · exact (hshape.anywhere p hp).imp_right .inr
      · exact (hbelow p hp).imp_right .inl

end

end State

end GatedLog
