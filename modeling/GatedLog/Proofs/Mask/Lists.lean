import Mathlib.Data.List.Perm.Basic
import GatedLog.Proofs.Mask

/-!
# Sets of components and lists of components

The set of a list has a bit for each member, and the list of a set has each component whose bit is
set, once and in the order of declaration. From lists to sets and back, repetitions and the order are
lost; from sets to lists and back, the bits of no component are (`masks_and_lists`).
-/

namespace GatedLog

namespace Component

variable {xs ys : List Component}

/-- Components are declared by rising positions. -/
theorem pairwise_all : all.Pairwise fun c d => c.position < d.position := by decide

/-- Lists in the order of declaration are equal if they have the same members. -/
theorem eq_of_sublist_all (hxs : xs.Sublist all) (hys : ys.Sublist all)
    (h : ∀ c, c ∈ xs ↔ c ∈ ys) : xs = ys := by
  have hnodup : all.Nodup := by decide
  have hperm : xs.Perm ys :=
    (List.perm_ext_iff_of_nodup (hnodup.sublist hxs) (hnodup.sublist hys)).mpr h
  refine hperm.eq_of_pairwise (fun c d _ _ hcd hdc => ?_) (pairwise_all.sublist hxs)
    (pairwise_all.sublist hys)
  exact absurd hcd (Nat.lt_asymm hdc)

end Component

namespace ComponentMask

variable {m : ComponentMask} {c : Component} {cs ds xs : List Component}

/-- What two sets have in common, bit by bit, and what they have together. -/
theorem has_and (m n : ComponentMask) (i : Nat) :
    (mk (m.bits &&& n.bits)).has i = (m.has i && n.has i) := by
  simp [has]

theorem has_or (m n : ComponentMask) (i : Nat) :
    (mk (m.bits ||| n.bits)).has i = (m.has i || n.has i) := by
  simp [has]

/-- The set of the bits that have a component. -/
def known : ComponentMask := ⟨0x1F⟩

theorem has_known (i : Nat) : known.has i = decide (i < 5) := by
  have hbits : known.bits.toBitVec = BitVec.ofNat 32 (2 ^ 5 - 1) := by decide
  rw [has, hbits, BitVec.getLsbD_ofNat, Nat.testBit_two_pow_sub_one, ← Bool.decide_and]
  congr 1
  simp only [eq_iff_iff]
  omega

/-! ### Lists of sets -/

@[simp] theorem mem_toList : c ∈ m.toList ↔ m.contains c = true := by
  simp [toList, Component.mem_all]

theorem toList_sublist (m : ComponentMask) : m.toList.Sublist Component.all := List.filter_sublist

/-- The list of the set of a list has the same members, in the order of declaration. -/
theorem toList_ofList_eq_iff :
    (ofList cs).toList = xs ↔ xs.Sublist Component.all ∧ ∀ c, c ∈ xs ↔ c ∈ cs := by
  have hmem (c : Component) : c ∈ (ofList cs).toList ↔ c ∈ cs := by rw [mem_toList, contains_ofList]
  constructor
  · rintro rfl
    exact ⟨toList_sublist _, hmem⟩
  · rintro ⟨hxs, h⟩
    exact Component.eq_of_sublist_all (toList_sublist _) hxs fun c => (hmem c).trans (h c).symm

/-! ### Sets of lists -/

/-- Two lists have the bits of either one. -/
theorem ofList_append (cs ds : List Component) :
    ofList (cs ++ ds) = ⟨(ofList cs).bits ||| (ofList ds).bits⟩ := by
  refine eq_of_has fun i _ => ?_
  rw [has_or, Bool.eq_iff_iff, Bool.or_eq_true, has_ofList, has_ofList, has_ofList]
  simp only [List.mem_append, or_and_right, exists_or]

/-- The list of a set keeps the bits of components, and no others. -/
theorem has_ofList_toList (m : ComponentMask) (i : Nat) :
    (ofList m.toList).has i = (m.has i && known.has i) := by
  rw [has_known, Bool.eq_iff_iff, has_ofList, Bool.and_eq_true, decide_eq_true_eq]
  constructor
  · rintro ⟨c, hc, rfl⟩
    rw [mem_toList, contains_eq_has] at hc
    exact ⟨hc, c.position_lt_five⟩
  · rintro ⟨hm, hi⟩
    obtain ⟨c, rfl⟩ := Component.exists_position i hi
    exact ⟨c, by rwa [mem_toList, contains_eq_has], rfl⟩

theorem ofList_toList (m : ComponentMask) : ofList m.toList = ⟨m.bits &&& known.bits⟩ :=
  eq_of_has fun i _ => by rw [has_ofList_toList, has_and]

/-- Nothing is lost if no other bit is set. -/
theorem ofList_toList_eq_iff : ofList m.toList = m ↔ ∀ i, 5 ≤ i → m.has i = false := by
  constructor
  · intro h i hi
    have hbit := has_ofList_toList m i
    rwa [h, has_known, decide_eq_false (Nat.not_lt.mpr hi), Bool.and_false] at hbit
  · intro h
    refine eq_of_has fun i _ => ?_
    rw [has_ofList_toList, has_known]
    by_cases hi : i < 5
    · rw [decide_eq_true hi, Bool.and_true]
    · rw [h i (Nat.not_lt.mp hi), Bool.false_and]

/-- How sets and lists of components convert into each other. -/
structure MasksAndLists : Prop where
  /-- The list of the set of a list has its members, each of them once, in the order of declaration. -/
  listed : ∀ cs xs : List Component, (ofList cs).toList = xs ↔
    xs.Sublist Component.all ∧ ∀ c, c ∈ xs ↔ c ∈ cs
  /-- So order and repetitions make no difference to the set. -/
  unordered : ∀ cs ds : List Component, ofList cs = ofList ds ↔ ∀ c, c ∈ cs ↔ c ∈ ds
  /-- Lists one after the other have the bits of both. -/
  joined : ∀ cs ds : List Component, (ofList (cs ++ ds)).bits = (ofList cs).bits ||| (ofList ds).bits
  /-- The set of the list of a set has its five lowest bits, -/
  cleared : ∀ m : ComponentMask, (ofList m.toList).bits = m.bits &&& 0x1F
  /-- which is the set itself if no other bit is set. -/
  returned : ∀ m : ComponentMask, ofList m.toList = m ↔ ∀ i, 5 ≤ i → m.has i = false

/-- **Sets and lists of components convert into each other**, but for the order and repetitions of
the lists and the bits of no component. -/
theorem masks_and_lists : MasksAndLists where
  listed _ _ := toList_ofList_eq_iff
  unordered _ _ := ofList_eq_ofList_iff
  joined cs ds := congrArg bits (ofList_append cs ds)
  cleared m := congrArg bits (ofList_toList m)
  returned _ := ofList_toList_eq_iff

/-- All components together are not the full set. -/
example : ofList full.toList ≠ full := by decide

end ComponentMask

end GatedLog
