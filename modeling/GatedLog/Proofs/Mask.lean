import Mathlib.Data.List.Basic
import GatedLog.Gate

/-!
# Sets of components, bit by bit

A set of components is a word, and a component is one of its bits (`Component.position`). What an
operation does to a set is said for every bit of the word, those of no component included:
`has_insert`, `has_erase` and `has_ofList`. So the set of a list holds the members of the list and
no other bit, and lists with the same members have the same set (`ofList_eq_ofList_iff`).
-/

namespace GatedLog

namespace Component

/-- The place of a component's bit in a set. -/
def position : Component → Nat
  | unknown => 0
  | rpc => 1
  | blockReader => 2
  | fileHandle => 3
  | fileSystem => 4

theorem position_injective {a b : Component} (h : a.position = b.position) : a = b := by
  revert h
  cases a <;> cases b <;> decide

theorem toBitVec_bit (c : Component) : c.bit.toBitVec = BitVec.twoPow 32 c.position := by
  cases c <;> rfl

/-- Five bits have a component, -/
theorem position_lt_five (c : Component) : c.position < 5 := by cases c <;> decide

theorem position_lt (c : Component) : c.position < 32 :=
  Nat.lt_trans c.position_lt_five (by decide)

/-- namely the lowest ones. -/
theorem exists_position : ∀ i < 5, ∃ c : Component, c.position = i
  | 0, _ => ⟨unknown, rfl⟩
  | 1, _ => ⟨rpc, rfl⟩
  | 2, _ => ⟨blockReader, rfl⟩
  | 3, _ => ⟨fileHandle, rfl⟩
  | 4, _ => ⟨fileSystem, rfl⟩

end Component

namespace ComponentMask

variable {m n : ComponentMask} {c d : Component} {cs ds : List Component}

/-- Whether a bit is set. -/
def has (m : ComponentMask) (i : Nat) : Bool := m.bits.toBitVec.getLsbD i

theorem lt_of_has {i : Nat} (h : m.has i = true) : i < 32 := BitVec.lt_of_getLsbD h

/-- A set is determined by its bits. -/
theorem eq_of_has (h : ∀ i < 32, m.has i = n.has i) : m = n := by
  have hbits : m.bits.toBitVec = n.bits.toBitVec := BitVec.eq_of_getLsbD_eq h
  cases m
  cases n
  exact congrArg mk (UInt32.toBitVec_inj.mp hbits)

@[simp] theorem has_full (i : Nat) : full.has i = decide (i < 32) := by
  show (BitVec.allOnes 32).getLsbD i = _
  exact BitVec.getLsbD_allOnes

@[simp] theorem has_empty (i : Nat) : empty.has i = false := BitVec.getLsbD_zero

theorem has_insert (m : ComponentMask) (c : Component) (i : Nat) :
    (m.insert c).has i = (m.has i || decide (i = c.position)) := by
  have hc := c.position_lt
  simp [has, insert, Component.toBitVec_bit, BitVec.getLsbD_twoPow, hc, eq_comm]

theorem has_erase (m : ComponentMask) (c : Component) (i : Nat) :
    (m.erase c).has i = (m.has i && decide (i ≠ c.position)) := by
  cases hi : m.has i with
  | false =>
    have hbit : m.bits.toBitVec.getLsbD i = false := hi
    simp [has, erase, hbit]
  | true =>
    have hlt := lt_of_has hi
    have hbit : m.bits.toBitVec.getLsbD i = true := hi
    simp [has, erase, Component.toBitVec_bit, hbit, hlt]

/-- A component is in a set where its bit is. -/
theorem contains_eq_has (m : ComponentMask) (c : Component) : m.contains c = m.has c.position := by
  have hand : (m.bits &&& c.bit).toBitVec =
      if m.has c.position then BitVec.twoPow 32 c.position else 0#32 := by
    rw [UInt32.toBitVec_and, Component.toBitVec_bit, BitVec.and_twoPow, has]
  cases hm : m.has c.position with
  | false =>
    have hzero : m.bits &&& c.bit = 0 := by
      apply UInt32.toBitVec_inj.mp
      rw [hand, hm]
      rfl
    simp [contains, hzero]
  | true =>
    have hbit : m.bits &&& c.bit = c.bit := by
      apply UInt32.toBitVec_inj.mp
      rw [hand, hm, Component.toBitVec_bit]
      rfl
    rw [contains, hbit]
    cases c <;> rfl

/-! ### Sets of lists -/

theorem has_foldl_insert (cs : List Component) (m : ComponentMask) (i : Nat) :
    (cs.foldl insert m).has i = true ↔ m.has i = true ∨ ∃ c ∈ cs, c.position = i := by
  induction cs generalizing m with
  | nil => simp
  | cons c cs ih =>
    have hsymm : i = c.position ↔ c.position = i := eq_comm
    rw [List.foldl_cons, ih, has_insert]
    simp only [Bool.or_eq_true, decide_eq_true_eq, List.mem_cons, exists_eq_or_imp, or_assoc, hsymm]

/-- The set of a list has the bits of its members, and no others. -/
theorem has_ofList (cs : List Component) (i : Nat) :
    (ofList cs).has i = true ↔ ∃ c ∈ cs, c.position = i := by
  have h := has_foldl_insert cs empty i
  rw [has_empty] at h
  simpa [ofList] using h

@[simp] theorem contains_ofList : (ofList cs).contains c = true ↔ c ∈ cs := by
  rw [contains_eq_has, has_ofList]
  constructor
  · rintro ⟨d, hd, h⟩
    exact Component.position_injective h ▸ hd
  · exact fun h => ⟨c, h, rfl⟩

@[simp] theorem contains_full (c : Component) : full.contains c = true := by
  cases c <;> decide

/-- Order and repetitions make no difference to the set of a list, and nothing else is lost. -/
theorem ofList_eq_ofList_iff : ofList cs = ofList ds ↔ ∀ c, c ∈ cs ↔ c ∈ ds := by
  constructor
  · intro h c
    rw [← contains_ofList, h, contains_ofList]
  · intro h
    refine eq_of_has fun i _ => ?_
    rw [Bool.eq_iff_iff, has_ofList, has_ofList]
    simp only [h]

end ComponentMask

namespace Gate

variable {g g' : Gate}

theorem eq_iff : g = g' ↔ g.threshold = g'.threshold ∧ g.mask = g'.mask := by
  cases g
  cases g'
  rw [mk.injEq, and_comm]

/-- A gate is determined by its threshold and its bits. -/
theorem eq_iff_has : g = g' ↔
    g'.threshold = g.threshold ∧ ∀ i, g'.mask.has i = true ↔ g.mask.has i = true := by
  constructor
  · rintro rfl
    exact ⟨rfl, fun _ => Iff.rfl⟩
  · rintro ⟨ht, hm⟩
    refine eq_iff.mpr ⟨ht.symm, ComponentMask.eq_of_has fun i _ => ?_⟩
    rw [Bool.eq_iff_iff, hm]

end Gate

end GatedLog
