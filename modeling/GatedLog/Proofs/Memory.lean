import Mathlib.Algebra.GroupWithZero.Nat
import Mathlib.Algebra.Order.BigOperators.Group.List
import Mathlib.Algebra.Order.Group.Nat
import GatedLog.ForeignRecord
import GatedLog.Proofs.Correspondence

/-!
# Records in memory

How a foreign record is copied and released where records and texts are blocks of memory and a record
points to its text. A copy is allocated as two blocks, or one if there is no text, and a release gives
them back; both reach into memory by pointers, so that copies share nothing has to be proved:
`Memory.Gains` says what is put into memory beside everything that was there, and a release takes away
the blocks of one record alone (`get?_release`).
-/

namespace GatedLog

/-- A place in memory. -/
abbrev Address := Nat

/-- What was allocated in one piece: the octets of a text, or a record, which points to its text if
it has one. -/
inductive Block where
  | text (octets : List UInt8)
  | record (text : Option Address) (level component : Int32)

/-- What was allocated and has not been given back. -/
abbrev Memory := Table Address Block

/-- What chooses the places of new blocks. It always finds one, and never one that is in use. -/
structure Allocator where
  next : Memory → Address
  unused : ∀ m : Memory, m.get? (next m) = none

namespace Allocator

/-- The text of a record, if there is to be one, in a new block. -/
def text (A : Allocator) (m : Memory) : Option (List UInt8) → Option Address × Memory
  | none => (none, m)
  | some octets => (some (A.next m), m.put (A.next m) (.text octets))

/-- Memory for a record. -/
def room (A : Allocator) (m : Memory) : Memory := m.put (A.next m) (.record none 0 0)

/-- A record in a new block, and its text in another. -/
def record (A : Allocator) (m : Memory) (r : ForeignRecord) : Address × Memory :=
  (A.next m, (A.text (A.room m) r.text).2.put (A.next m)
    (.record (A.text (A.room m) r.text).1 r.level r.component))

/-- One more than the sum of all addresses in use. -/
def beyond : Allocator where
  next m := (m.entries.map (·.1)).sum + 1
  unused m := by
    refine List.lookup_eq_none_iff.mpr fun e he => ?_
    have hle : e.1 ≤ (m.entries.map (·.1)).sum :=
      List.single_le_sum (fun _ _ => Nat.zero_le _) _ (List.mem_map_of_mem he)
    have hne : (m.entries.map (·.1)).sum + 1 ≠ e.1 := Nat.ne_of_gt (Nat.lt_succ_of_le hle)
    simpa using hne

instance : Inhabited Allocator := ⟨beyond⟩

end Allocator

namespace Memory

variable {m m' : Memory} {a c : Address} {r : ForeignRecord} {os : List UInt8}

/-- The record at an address. -/
def read? (m : Memory) (a : Address) : Option ForeignRecord :=
  match m.get? a with
  | some (.record none level component) => some ⟨none, level, component⟩
  | some (.record (some p) level component) =>
    match m.get? p with
    | some (.text octets) => some ⟨some octets, level, component⟩
    | _ => none
  | _ => none

/-- The blocks of the record at an address: its own and that of its text. -/
def footprint (m : Memory) (a : Address) : List Address :=
  match m.get? a with
  | some (.record (some p) _ _) => [a, p]
  | _ => [a]

/-- Two records share no block. -/
def Apart (m : Memory) (a b : Address) : Prop := ∀ x ∈ m.footprint a, x ∉ m.footprint b

theorem Apart.symm {b : Address} (h : m.Apart a b) : m.Apart b a := fun x hb ha => h x ha hb

instance (m : Memory) : Std.Symm m.Apart := ⟨fun _ _ => Apart.symm⟩

/-- A copy of the text that is pointed to, up to its first zero octet. -/
def copyText (A : Allocator) (m : Memory) : Option Address → Option Address × Memory
  | none => (none, m)
  | some p =>
    match m.get? p with
    | some (.text octets) => A.text m (some (ForeignRecord.visible octets))
    | _ => (none, m)

/-- Copies the record that is pointed to: room is made, the text is copied, and the record is filled
in. There is no copy of a null pointer. -/
def duplicate (A : Allocator) (m : Memory) : Option Address → Option Address × Memory
  | none => (none, m)
  | some a =>
    match m.get? a with
    | some (.record msg level component) =>
      (some (A.next m), (copyText A (A.room m) msg).2.put (A.next m)
        (.record (copyText A (A.room m) msg).1 level component))
    | _ => (none, m)

/-- Gives a record back that is pointed to: first its text, then, once it has been zeroed, its own
block. A null pointer is left alone. -/
def release (m : Memory) : Option Address → Memory
  | none => m
  | some a =>
    match m.get? a with
    | some (.record none _ _) => (m.put a (.record none 0 0)).erase a
    | some (.record (some p) _ _) => ((m.erase p).put a (.record none 0 0)).erase a
    | _ => m

/-- Lends a record to a callback that copies it. When the callback returns, the record that it was
lent is gone, and so is its text. -/
def lend (A : Allocator) (m : Memory) (r : ForeignRecord) : Option Address × Memory :=
  ((duplicate A (A.record m r).2 (some (A.record m r).1)).1,
    release (duplicate A (A.record m r).2 (some (A.record m r).1)).2 (some (A.record m r).1))

/-! ### What a record is made of -/

theorem mem_footprint_self (m : Memory) (a : Address) : a ∈ m.footprint a := by
  unfold footprint
  split <;> simp

/-- A record that can be read has its block, and so does its text. -/
theorem exists_of_read (h : m.read? a = some r) :
    ∃ p, m.get? a = some (.record p r.level r.component) ∧
      ((p = none ∧ r.text = none ∧ m.footprint a = [a]) ∨
        ∃ q os, p = some q ∧ r.text = some os ∧ m.get? q = some (.text os) ∧
          m.footprint a = [a, q]) := by
  unfold read? at h
  unfold footprint
  split at h
  · next level component ha =>
    obtain rfl := Option.some.inj h
    rw [ha]
    exact ⟨none, rfl, .inl ⟨rfl, rfl, rfl⟩⟩
  · next q level component ha =>
    split at h
    · next os hq =>
      obtain rfl := Option.some.inj h
      rw [ha]
      exact ⟨some q, rfl, .inr ⟨q, os, rfl, rfl, hq, rfl⟩⟩
    · cases h
  · cases h

theorem get?_ne_none_of_mem_footprint (h : m.read? a = some r) {x : Address}
    (hx : x ∈ m.footprint a) : m.get? x ≠ none := by
  obtain ⟨p, ha, ⟨-, -, hf⟩ | ⟨q, os, -, -, hq, hf⟩⟩ := exists_of_read h
  · rw [hf, List.mem_singleton] at hx
    simp [hx, ha]
  · rw [hf] at hx
    rcases List.mem_pair.mp hx with rfl | rfl
    · simp [ha]
    · simp [hq]

theorem not_apart_self (m : Memory) (a : Address) : ¬ m.Apart a a := fun h =>
  h a (mem_footprint_self m a) (mem_footprint_self m a)

/-- A record depends on its own blocks alone, whatever becomes of all others. -/
theorem footprint_congr (h : ∀ x ∈ m.footprint a, m'.get? x = m.get? x) :
    m'.read? a = m.read? a ∧ m'.footprint a = m.footprint a := by
  have ha := h a (mem_footprint_self m a)
  unfold read? footprint at *
  rw [ha]
  split at h
  · next p level component he =>
    rw [he]
    simp only [h p (by simp), and_self]
  · next hne =>
    refine ⟨?_, rfl⟩
    split
    · rfl
    · next p level component he => exact absurd he (hne p level component)
    · rfl

/-! ### What is put into memory -/

/-- The memory `m'` is `m` with one record more, in blocks of its own. -/
structure Gains (m m' : Memory) (c : Address) (r : ForeignRecord) : Prop where
  read : m'.read? c = some r
  kept : ∀ x, m.get? x ≠ none → m'.get? x = m.get? x
  unused : ∀ x ∈ m'.footprint c, m.get? x = none

theorem ne_of_get? {x y : Address} (hx : m.get? x ≠ none) (hy : m.get? y = none) : x ≠ y := by
  rintro rfl
  exact hx hy

/-- A record that is put where no block is, its text beside it. -/
theorem gains_put (os : List UInt8) (msg : Option Address) {b : Address} {level component : Int32}
    (hb : m.get? b = none) (hput : ∀ x, m'.get? x =
      if x = b then some (.record msg level component) else
        (msg.elim m fun p => m.put p (.text os)).get? x)
    (hp : ∀ p, msg = some p → p ≠ b ∧ m.get? p = none) :
    Gains m m' b ⟨msg.map fun _ => os, level, component⟩ := by
  cases msg with
  | none =>
    have hfoot : m'.footprint b = [b] := by rw [footprint, hput, if_pos rfl]
    refine ⟨?_, fun x hx => ?_, fun x hx => ?_⟩
    · rw [read?, hput, if_pos rfl]
      rfl
    · rw [hput, if_neg (ne_of_get? hx hb)]
      rfl
    · rw [hfoot, List.mem_singleton] at hx
      rw [hx, hb]
  | some p =>
    obtain ⟨hpb, hpm⟩ := hp p rfl
    have htext : m'.get? p = some (.text os) := by
      rw [hput, if_neg hpb]
      exact Table.get?_put_self ..
    have hfoot : m'.footprint b = [b, p] := by rw [footprint, hput, if_pos rfl]
    refine ⟨?_, fun x hx => ?_, fun x hx => ?_⟩
    · simp only [read?, hput b, if_pos, htext, Option.map_some]
    · rw [hput, if_neg (ne_of_get? hx hb)]
      exact Table.get?_put_ne _ _ (ne_of_get? hx hpm)
    · rw [hfoot] at hx
      rcases List.mem_pair.mp hx with rfl | rfl
      · exact hb
      · exact hpm

/-- Where room has been made no text comes. -/
theorem next_room (A : Allocator) (m : Memory) :
    A.next (A.room m) ≠ A.next m ∧ m.get? (A.next (A.room m)) = none := by
  have hne : A.next (A.room m) ≠ A.next m := by
    refine (ne_of_get? ?_ (A.unused (A.room m))).symm
    rw [Allocator.room, Table.get?_put_self]
    exact Option.some_ne_none _
  refine ⟨hne, ?_⟩
  rw [← A.unused (A.room m)]
  exact (Table.get?_put_ne _ _ hne).symm

theorem get?_put_room (A : Allocator) (m : Memory) (b : Block) (x : Address) :
    ((A.room m).put (A.next m) b).get? x = if x = A.next m then some b else m.get? x := by
  by_cases hx : x = A.next m
  · rw [if_pos hx, hx, Table.get?_put_self]
  · rw [if_neg hx, Table.get?_put_ne _ _ hx, Allocator.room, Table.get?_put_ne _ _ hx]

theorem get?_put_text (A : Allocator) (m : Memory) (os : List UInt8) (b : Block) (x : Address) :
    (((A.room m).put (A.next (A.room m)) (.text os)).put (A.next m) b).get? x =
      if x = A.next m then some b else (m.put (A.next (A.room m)) (.text os)).get? x := by
  by_cases hx : x = A.next m
  · rw [if_pos hx, hx, Table.get?_put_self]
  · rw [if_neg hx, Table.get?_put_ne _ _ hx]
    by_cases hp : x = A.next (A.room m)
    · rw [hp, Table.get?_put_self, Table.get?_put_self]
    · rw [Table.get?_put_ne _ _ hp, Table.get?_put_ne _ _ hp, Allocator.room,
        Table.get?_put_ne _ _ hx]

/-- A record that is made has blocks of its own. -/
theorem gains_record (A : Allocator) (m : Memory) (r : ForeignRecord) :
    Gains m (A.record m r).2 (A.record m r).1 r := by
  obtain ⟨text, level, component⟩ := r
  cases text with
  | none =>
    exact gains_put [] none (A.unused m) (get?_put_room A m (.record none level component))
      (by simp)
  | some os =>
    refine gains_put os (some (A.next (A.room m))) (A.unused m) (get?_put_text A m os _) ?_
    rintro p hp
    obtain rfl := Option.some.inj hp
    exact next_room A m

/-- A copy has blocks of its own. -/
theorem exists_duplicate (A : Allocator) (h : m.read? a = some r) :
    ∃ c m', duplicate A m (some a) = (some c, m') ∧ Gains m m' c r.copy := by
  refine ⟨(A.record m r.copy).1, (A.record m r.copy).2, ?_, gains_record A m r.copy⟩
  obtain ⟨p, ha, ⟨rfl, ht, -⟩ | ⟨q, os, rfl, ht, hq, -⟩⟩ := exists_of_read h
  · simp [duplicate, ha, copyText, Allocator.record, Allocator.text, ForeignRecord.copy,
      ForeignRecord.message, ht]
  · -- the text is still there when room has been made
    have hroom : (A.room m).get? q = some (.text os) := by
      rw [Allocator.room, Table.get?_put_ne _ _ (ne_of_get? (by simp [hq]) (A.unused m)), hq]
    simp [duplicate, ha, copyText, hroom, Allocator.record, Allocator.text, ForeignRecord.copy,
      ForeignRecord.message, ht]

theorem duplicate_null (A : Allocator) (m : Memory) : duplicate A m none = (none, m) := rfl

/-! ### What is given back -/

theorem release_null (m : Memory) : release m none = m := rfl

/-- A release takes the blocks of its own record and no others. -/
theorem get?_release (h : m.read? a = some r) (x : Address) :
    (release m (some a)).get? x = if x ∈ m.footprint a then none else m.get? x := by
  obtain ⟨p, ha, ⟨rfl, -, hf⟩ | ⟨q, os, rfl, -, -, hf⟩⟩ := exists_of_read h
  · simp only [release, ha, Table.get?_erase, hf, List.mem_singleton]
    split
    · rfl
    · next hx => exact Table.get?_put_ne _ _ hx
  · simp only [release, ha, Table.get?_erase, hf, List.mem_pair]
    by_cases hx : x = a
    · simp [hx]
    · rw [if_neg hx, Table.get?_put_ne _ _ hx, Table.get?_erase]
      simp [hx]

/-- A release leaves every record as it is whose blocks are others. -/
theorem read_release (h : m.read? a = some r) (hc : m.Apart c a) :
    (release m (some a)).read? c = m.read? c ∧
      (release m (some a)).footprint c = m.footprint c :=
  footprint_congr fun x hx => by rw [get?_release h, if_neg (hc x hx)]

/-- What was there before is read as before. -/
theorem Gains.read_kept {s : ForeignRecord} (h : Gains m m' c r) (ha : m.read? a = some s) :
    m'.read? a = m.read? a ∧ m'.footprint a = m.footprint a :=
  footprint_congr fun x hx => h.kept x (get?_ne_none_of_mem_footprint ha hx)

/-- The copy of a record that was lent stays when the record is gone, in blocks of its own. -/
theorem exists_lend (A : Allocator) (m : Memory) (r : ForeignRecord) :
    ∃ c m', lend A m r = (some c, m') ∧ Gains m m' c r.copy := by
  have hlent := gains_record A m r
  obtain ⟨c, m₂, hdup, hcopy⟩ := exists_duplicate A hlent.read
  obtain ⟨hread, hfoot⟩ := hcopy.read_kept hlent.read
  have hread := hread.trans hlent.read
  refine ⟨c, release m₂ (some (A.record m r).1), by simp only [lend, hdup], ?_⟩
  -- the blocks of the copy are not those of the record that was lent
  have hapart : m₂.Apart c (A.record m r).1 := fun x hx hx' =>
    get?_ne_none_of_mem_footprint hlent.read (hfoot ▸ hx') (hcopy.unused x hx)
  obtain ⟨hreadc, hfootc⟩ := read_release hread hapart
  refine ⟨hreadc.trans hcopy.read, fun x hx => ?_, fun x hx => ?_⟩
  · have hx₁ := hlent.kept x hx
    have hnot : x ∉ m₂.footprint (A.record m r).1 := fun h => hx (hlent.unused x (hfoot ▸ h))
    rw [get?_release hread, if_neg hnot, hcopy.kept x (hx₁ ▸ hx), hx₁]
  · by_contra hne
    exact hne ((hlent.kept x hne).symm.trans (hcopy.unused x (hfootc ▸ hx)))

end Memory

end GatedLog
