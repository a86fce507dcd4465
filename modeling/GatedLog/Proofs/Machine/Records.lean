import Mathlib.Data.List.Pairwise
import GatedLog.Proofs.Machine.Stores
import GatedLog.Proofs.Memory

/-!
# Copies of foreign records

A run makes foreign records, copies them, has callbacks that keep copies of the records they are
called with, and releases them, in any order. `State.recordChange?` says which of this a step does,
and it is all that happens to the records (`foreign_step`).

The same is done in memory, where names stand for pointers: `Heap.apply` copies and releases by
pointer, with any allocator. Whatever has not been released is there in blocks of its own
(`Heap.Shows`), so that a copy stays exactly as it was made until it is released itself
(`copies_independent`).
-/

namespace GatedLog

/-- What becomes of the foreign records. -/
inductive RecordChange where
  /-- The program makes a record. -/
  | make (id : String) (r : ForeignRecord)
  | copy (id source : String)
  /-- A callback copies the record that it is called with. -/
  | keep (id : String) (r : ForeignRecord)
  | free (id : String)

namespace RecordChange

/-- The name under which a record comes or goes. -/
def target : RecordChange → String
  | make id _ => id
  | copy id _ => id
  | keep id _ => id
  | free id => id

/-- The records by their names. -/
def apply (t : Table String ForeignRecord) : RecordChange → Table String ForeignRecord
  | make id r => t.put id r
  | copy id source => ((t.get? source).map fun r => t.put id r.copy).getD t
  | keep id r => t.put id r.copy
  | free id => t.erase id

theorem get?_apply_of_ne {c : RecordChange} {id : String} (h : id ≠ c.target)
    (t : Table String ForeignRecord) : (c.apply t).get? id = t.get? id := by
  cases c with
  | make name r => exact Table.get?_put_ne _ _ h
  | copy name source =>
    have hne : id ≠ name := h
    cases hs : t.get? source with
    | none => simp [apply, hs]
    | some r => simp [apply, hs, Table.get?_put_ne, hne]
  | keep name r => exact Table.get?_put_ne _ _ h
  | free name => exact (Table.get?_erase _ _ _).trans (if_neg h)

end RecordChange

/-- The change that an operation on the stores makes to the records. -/
def StoreOp.recordChange? : StoreOp → Option RecordChange
  | newRecord id text level component => some (.make id ⟨text, level.getD 0, component.getD 0⟩)
  | copyRecord id (some source) => some (.copy id source)
  | freeRecord (some id) => some (.free id)
  | _ => none

/-- What a callback keeps of the record that it is called with; the copies are numbered. -/
def keptOf (copies : Nat) : List (Hook × ForeignRecord) → Option RecordChange
  | [(.keeper, r)] => some (.keep (World.copyName copies) r)
  | _ => none

namespace State

/-- What becomes of the foreign records in the next step. -/
def recordChange? (s : State) : Option RecordChange :=
  match s.storeOp? with
  | some op => op.recordChange?
  | none => keptOf s.world.copies (calls s.step.2)

end State

namespace World

theorem foreign_applyStore (w : World) (op : StoreOp) :
    (w.applyStore op).1.foreign = (op.recordChange?.map fun c => c.apply w.foreign).getD w.foreign := by
  cases op with
  | newRecord id text level component => rfl
  | copyRecord id source =>
    cases source with
    | none => rfl
    | some source =>
      cases hs : w.foreign.get? source with
      | none => simp [applyStore, copyRecord, StoreOp.recordChange?, RecordChange.apply, hs]
      | some r =>
        simp [applyStore, copyRecord, putRecord, StoreOp.recordChange?, RecordChange.apply, hs]
  | freeRecord id => cases id <;> rfl
  | _ => exact (confined_applyStore ..).foreign (by simp) (by simp) (by simp)

theorem foreign_receive (w : World) (m : Message) (k : BackendKind) :
    (w.receive m k).world.foreign =
      ((keptOf w.copies (k.told m)).map fun c => c.apply w.foreign).getD w.foreign := by
  by_cases hk : k = .forwarding (some .keeper)
  · subst hk
    cases hw : m.worth with
    | false =>
      rw [receive_of_not_worth hw]
      simp [BackendKind.told, keptOf, hw]
    | true =>
      simp [receive, record, call, keepCopy, BackendKind.told, keptOf, RecordChange.apply, hw]
  · have hnone : keptOf w.copies (k.told m) = none := by
      unfold BackendKind.told keptOf
      cases k with
      | forwarding hook =>
        cases hook with
        | none => rfl
        | some hook => cases m.worth <;> cases hook <;> first | rfl | exact absurd rfl hk
      | _ => rfl
    rw [hnone]
    exact (ownStore_receive w m k).foreign hk

end World

namespace State

variable {s : State}

/-- Nothing else becomes of the records. -/
theorem foreign_step (hs : s.Housed) : s.step.1.world.foreign =
    (s.recordChange?.map fun c => c.apply s.world.foreign).getD s.world.foreign := by
  have hcalls := calls_step s
  cases (step_storage hs).1 with
  | kept hn hh hw =>
    rw [recordChange?, hn, hcalls, hh, hw.foreign]
    rfl
  | operated op hn hh hw hanswer =>
    rw [recordChange?, hn, hw]
    exact World.foreign_applyStore s.world op
  | received b m v hn hh hb hv hstamp hw =>
    rw [recordChange?, hn, hcalls, hh, hw, toldOf_singleton, World.foreign_receive, hv.foreign,
      hv.copies]

end State

/-! ### The records in memory -/

/-- The records in memory: the pointers that have names, and all records that have not been
released. -/
structure Heap where
  memory : Memory := {}
  pointers : Table String Address := {}
  live : List Address := []

namespace Heap

/-- A name for a new record, unless there is none. -/
def adopt (h : Heap) (id : String) (d : Option Address × Memory) : Heap :=
  match d.1 with
  | none => { h with memory := d.2 }
  | some a => { memory := d.2, pointers := h.pointers.put id a, live := a :: h.live }

/-- The records in memory after a change. -/
def apply (A : Allocator) (h : Heap) : RecordChange → Heap
  | .make id r => h.adopt id (some (A.record h.memory r).1, (A.record h.memory r).2)
  | .copy id source => h.adopt id (Memory.duplicate A h.memory (h.pointers.get? source))
  | .keep id r => h.adopt id (Memory.lend A h.memory r)
  | .free id =>
    { memory := h.memory.release (h.pointers.get? id)
      pointers := h.pointers.erase id
      live := (h.pointers.get? id).elim h.live h.live.erase }

/-- The record that a change releases. -/
def released (h : Heap) : Option RecordChange → Option Address
  | some (.free id) => h.pointers.get? id
  | _ => none

/-- The records in memory are those of a table, each of them in blocks of its own. -/
structure Shows (h : Heap) (t : Table String ForeignRecord) : Prop where
  readable : ∀ a ∈ h.live, ∃ r, h.memory.read? a = some r
  apart : h.live.Pairwise h.memory.Apart
  named : ∀ id a, h.pointers.get? id = some a → a ∈ h.live
  single : ∀ id id' a, h.pointers.get? id = some a → h.pointers.get? id' = some a → id = id'
  reads : ∀ id, (h.pointers.get? id).bind h.memory.read? = t.get? id

variable {h : Heap} {t : Table String ForeignRecord} {a b c : Address} {r : ForeignRecord}
  {id : String} {m : Memory}

namespace Shows

theorem nodup (hs : h.Shows t) : h.live.Nodup := by
  refine hs.apart.imp ?_
  rintro a b hab rfl
  exact Memory.not_apart_self _ a hab

theorem apart_of_ne (hs : h.Shows t) (ha : a ∈ h.live) (hb : b ∈ h.live) (hab : a ≠ b) :
    h.memory.Apart a b := hs.apart.forall ha hb hab

theorem get?_of_pointer (hs : h.Shows t) (ha : h.pointers.get? id = some a) :
    h.memory.read? a = t.get? id := by
  have hread := hs.reads id
  rwa [ha] at hread

/-- A name stands for a pointer if it stands for a record. -/
theorem exists_pointer (hs : h.Shows t) (hr : t.get? id = some r) :
    ∃ a, h.pointers.get? id = some a ∧ h.memory.read? a = some r := by
  have hread := hs.reads id
  rw [hr] at hread
  exact Option.bind_eq_some_iff.mp hread

theorem pointer_eq_none (hs : h.Shows t) (hr : t.get? id = none) : h.pointers.get? id = none := by
  cases ha : h.pointers.get? id with
  | none => rfl
  | some a =>
    obtain ⟨r, hread⟩ := hs.readable a (hs.named id a ha)
    rw [hs.get?_of_pointer ha, hr] at hread
    cases hread

/-- A new record is none of those that are there. -/
theorem not_mem_live (hs : h.Shows t) (g : Memory.Gains h.memory m c r) : c ∉ h.live := fun hc => by
  obtain ⟨s, hread⟩ := hs.readable c hc
  exact Memory.get?_ne_none_of_mem_footprint hread (Memory.mem_footprint_self ..)
    (g.unused c (Memory.mem_footprint_self ..))

/-- A new record gets a name. -/
theorem adopt (hs : h.Shows t) (g : Memory.Gains h.memory m c r) (id : String) :
    (h.adopt id (some c, m)).Shows (t.put id r) := by
  have hold : ∀ a ∈ h.live, m.read? a = h.memory.read? a ∧ m.footprint a = h.memory.footprint a :=
    fun a ha => by
      obtain ⟨s, hread⟩ := hs.readable a ha
      exact g.read_kept hread
  have hnew := hs.not_mem_live g
  refine ⟨fun a ha => ?_, ?_, fun name a ha => ?_, fun name name' a ha ha' => ?_, fun name => ?_⟩
  · rcases List.mem_cons.mp ha with rfl | ha
    · exact ⟨r, g.read⟩
    · rw [show (h.adopt id (some c, m)).memory = m from rfl, (hold a ha).1]
      exact hs.readable a ha
  · refine List.pairwise_cons.mpr ⟨fun a ha x hx hxa => ?_, ?_⟩
    · obtain ⟨s, hread⟩ := hs.readable a ha
      have hxa : x ∈ m.footprint a := hxa
      rw [(hold a ha).2] at hxa
      exact Memory.get?_ne_none_of_mem_footprint hread hxa (g.unused x hx)
    · refine hs.apart.imp_of_mem fun {a b} ha hb hab x hx hxb => ?_
      have hx : x ∈ m.footprint a := hx
      have hxb : x ∈ m.footprint b := hxb
      rw [(hold a ha).2] at hx
      rw [(hold b hb).2] at hxb
      exact hab x hx hxb
  · rcases Table.get?_put_eq_some.mp ha with ⟨-, rfl⟩ | ⟨-, ha⟩
    · exact List.mem_cons_self ..
    · exact List.mem_cons_of_mem _ (hs.named name a ha)
  · rcases Table.get?_put_eq_some.mp ha with ⟨rfl, rfl⟩ | ⟨-, ha⟩ <;>
      rcases Table.get?_put_eq_some.mp ha' with ⟨hn', hc⟩ | ⟨-, ha'⟩
    · exact hn'.symm
    · exact absurd (hs.named name' _ ha') hnew
    · exact absurd (hs.named name _ ha) (hc ▸ hnew)
    · exact hs.single name name' a ha ha'
  · show ((h.pointers.put id c).get? name).bind m.read? = (t.put id r).get? name
    by_cases hn : name = id
    · subst hn
      simpa using g.read
    · rw [Table.get?_put_ne _ _ hn, Table.get?_put_ne _ _ hn, ← hs.reads name]
      cases ha : h.pointers.get? name with
      | none => rfl
      | some a => exact (hold a (hs.named name a ha)).1

/-- Where a name is taken away, what is not its record need not change. -/
theorem reads_erase (hs : h.Shows t) (id : String)
    (hm : ∀ a ∈ h.live, h.pointers.get? id ≠ some a → m.read? a = h.memory.read? a)
    (name : String) : ((h.pointers.erase id).get? name).bind m.read? = (t.erase id).get? name := by
  by_cases hn : name = id
  · rw [hn, Table.get?_erase, Table.get?_erase, if_pos rfl, if_pos rfl]
    rfl
  · rw [Table.get?_erase, Table.get?_erase, if_neg hn, if_neg hn, ← hs.reads name]
    cases ha : h.pointers.get? name with
    | none => rfl
    | some a => exact hm a (hs.named name a ha) fun hp => hn (hs.single name id a ha hp)

/-- A record that is released takes nothing else with it. -/
theorem free (hs : h.Shows t) (A : Allocator) (id : String) :
    (h.apply A (.free id)).Shows (t.erase id) := by
  have hsingle : ∀ name name' a, (h.pointers.erase id).get? name = some a →
      (h.pointers.erase id).get? name' = some a → name = name' := fun name name' a ha ha' =>
    hs.single name name' a (Table.get?_erase_eq_some.mp ha).2 (Table.get?_erase_eq_some.mp ha').2
  cases hp : h.pointers.get? id with
  | none =>
    have happly : h.apply A (.free id) = { h with pointers := h.pointers.erase id } := by
      simp [Heap.apply, hp, Memory.release_null]
    rw [happly]
    exact ⟨hs.readable, hs.apart,
      fun name a ha => hs.named name a (Table.get?_erase_eq_some.mp ha).2, hsingle,
      hs.reads_erase id fun a ha _ => rfl⟩
  | some p =>
    have happly : h.apply A (.free id) =
        ⟨h.memory.release (some p), h.pointers.erase id, h.live.erase p⟩ := by
      simp [Heap.apply, hp]
    have hlive := hs.named id p hp
    obtain ⟨r, hr⟩ := hs.readable p hlive
    have hmem : ∀ a, a ∈ h.live.erase p ↔ a ≠ p ∧ a ∈ h.live := fun a => hs.nodup.mem_erase_iff
    have hkept : ∀ a, a ≠ p → a ∈ h.live → (h.memory.release (some p)).read? a = h.memory.read? a ∧
        (h.memory.release (some p)).footprint a = h.memory.footprint a := fun a hap ha =>
      Memory.read_release hr (hs.apart_of_ne ha hlive hap)
    rw [happly]
    refine ⟨fun a ha => ?_, ?_, fun name a ha => ?_, hsingle, hs.reads_erase id fun a ha hap => ?_⟩
    · obtain ⟨hap, ha⟩ := (hmem a).mp ha
      rw [(hkept a hap ha).1]
      exact hs.readable a ha
    · refine (hs.apart.sublist List.erase_sublist).imp_of_mem fun {a b} ha hb hab => ?_
      obtain ⟨hap, ha⟩ := (hmem a).mp ha
      obtain ⟨hbp, hb⟩ := (hmem b).mp hb
      rw [Memory.Apart, (hkept a hap ha).2, (hkept b hbp hb).2]
      exact hab
    · obtain ⟨hn, hname⟩ := Table.get?_erase_eq_some.mp ha
      have hap : a ≠ p := fun he => hn (hs.single name id a hname (he ▸ hp))
      exact (hmem a).mpr ⟨hap, hs.named name a hname⟩
    · refine (hkept a (fun he => hap ?_) ha).1
      rw [hp, he]

/-- The records in memory follow those of a table. -/
theorem apply (hs : h.Shows t) (A : Allocator) (c : RecordChange) :
    (h.apply A c).Shows (c.apply t) := by
  cases c with
  | make id r => exact hs.adopt (Memory.gains_record A h.memory r) id
  | copy id source =>
    cases ht : t.get? source with
    | none =>
      have hcopy : h.apply A (.copy id source) = h := by
        rw [Heap.apply, hs.pointer_eq_none ht]
        rfl
      rw [hcopy, RecordChange.apply, ht]
      exact hs
    | some r =>
      obtain ⟨a, ha, hread⟩ := hs.exists_pointer ht
      obtain ⟨c, m, hdup, g⟩ := Memory.exists_duplicate A hread
      rw [Heap.apply, ha, hdup, RecordChange.apply, ht]
      exact hs.adopt g id
  | keep id r =>
    obtain ⟨c, m, hlend, g⟩ := Memory.exists_lend A h.memory r
    rw [Heap.apply, hlend]
    exact hs.adopt g id
  | free id => exact hs.free A id

end Shows

/-- A record that is not the one that is released stays, and so does all that can be read of it. -/
theorem stays_apply (hs : h.Shows t) (A : Allocator) {change : RecordChange} (ha : a ∈ h.live)
    (hr : h.released (some change) ≠ some a) :
    a ∈ (h.apply A change).live ∧ (h.apply A change).memory.read? a = h.memory.read? a := by
  obtain ⟨r, hread⟩ := hs.readable a ha
  have adopted : ∀ {id c m s}, Memory.Gains h.memory m c s →
      a ∈ (h.adopt id (some c, m)).live ∧ (h.adopt id (some c, m)).memory.read? a =
        h.memory.read? a := fun g => ⟨List.mem_cons_of_mem _ ha, (g.read_kept hread).1⟩
  cases change with
  | make id r => exact adopted (Memory.gains_record A h.memory r)
  | copy id source =>
    cases hp : h.pointers.get? source with
    | none =>
      rw [Heap.apply, hp]
      exact ⟨ha, rfl⟩
    | some p =>
      obtain ⟨s, hsource⟩ := hs.readable p (hs.named source p hp)
      obtain ⟨c, m, hdup, g⟩ := Memory.exists_duplicate A hsource
      rw [Heap.apply, hp, hdup]
      exact adopted g
  | keep id r =>
    obtain ⟨c, m, hlend, g⟩ := Memory.exists_lend A h.memory r
    rw [Heap.apply, hlend]
    exact adopted g
  | free id =>
    cases hp : h.pointers.get? id with
    | none =>
      rw [Heap.apply, hp]
      exact ⟨ha, rfl⟩
    | some p =>
      have hap : a ≠ p := fun he => hr (he ▸ hp)
      have hlive := hs.named id p hp
      obtain ⟨s, hsource⟩ := hs.readable p hlive
      rw [Heap.apply, hp]
      exact ⟨hs.nodup.mem_erase_iff.mpr ⟨hap, ha⟩,
        (Memory.read_release hsource (hs.apart_of_ne ha hlive hap)).1⟩

end Heap

namespace State

/-- The records in memory after so many steps. In each step another allocator may do the work. -/
def heapAfter (A : Nat → Allocator) (program : Program) : Nat → Heap
  | 0 => {}
  | n + 1 =>
    match (run n (start program)).1.recordChange? with
    | none => heapAfter A program n
    | some c => (heapAfter A program n).apply (A n) c

variable {A : Nat → Allocator} {program : Program} {n : Nat}

theorem heapAfter_of_none (h : (run n (start program)).1.recordChange? = none) :
    heapAfter A program (n + 1) = heapAfter A program n := by
  rw [heapAfter, h]

theorem heapAfter_of_some {c : RecordChange} (h : (run n (start program)).1.recordChange? = some c) :
    heapAfter A program (n + 1) = (heapAfter A program n).apply (A n) c := by
  rw [heapAfter, h]

/-- What a run has under the names is what is read through the pointers. -/
theorem shows_run (A : Nat → Allocator) (program : Program) (n : Nat) :
    (heapAfter A program n).Shows (run n (start program)).1.world.foreign := by
  induction n with
  | zero =>
    exact ⟨fun a ha => absurd ha List.not_mem_nil, List.Pairwise.nil, fun id a ha => (nomatch ha),
      fun id id' a ha => (nomatch ha), fun id => rfl⟩
  | succ n ih =>
    rw [run_next, foreign_step (housed_run program n)]
    cases hc : (run n (start program)).1.recordChange? with
    | none =>
      rw [heapAfter_of_none hc]
      exact ih
    | some c =>
      rw [heapAfter_of_some hc]
      exact ih.apply (A n) c

/-- A record stays until it is released. -/
theorem stays_run {a : Address} (ha : a ∈ (heapAfter A program n).live) {k : Nat} (hk : n ≤ k)
    (hr : ∀ j, n ≤ j → j < k → (heapAfter A program j).released
      (run j (start program)).1.recordChange? ≠ some a) :
    a ∈ (heapAfter A program k).live ∧
      (heapAfter A program k).memory.read? a = (heapAfter A program n).memory.read? a := by
  induction k, hk using Nat.le_induction with
  | base => exact ⟨ha, rfl⟩
  | succ k hk ih =>
    obtain ⟨hlive, hread⟩ := ih fun j hj hjk => hr j hj (Nat.lt_succ_of_lt hjk)
    have hrk := hr k hk (Nat.lt_succ_self k)
    cases hc : (run k (start program)).1.recordChange? with
    | none =>
      rw [heapAfter_of_none hc]
      exact ⟨hlive, hread⟩
    | some c =>
      rw [hc] at hrk
      obtain ⟨hlive', hread'⟩ := Heap.stays_apply (shows_run A program k) (A k) hlive hrk
      rw [heapAfter_of_some hc]
      exact ⟨hlive', hread'.trans hread⟩

/-- What a name stands for stays as long as nothing comes or goes under it. -/
theorem foreign_run (program : Program) (id : String) {k : Nat} (hk : n ≤ k)
    (hr : ∀ j, n ≤ j → j < k → ∀ c, (run j (start program)).1.recordChange? = some c →
      c.target ≠ id) :
    (run k (start program)).1.world.foreign.get? id =
      (run n (start program)).1.world.foreign.get? id := by
  induction k, hk using Nat.le_induction with
  | base => rfl
  | succ k hk ih =>
    have ih := ih fun j hj hjk => hr j hj (Nat.lt_succ_of_lt hjk)
    have hrk := hr k hk (Nat.lt_succ_self k)
    rw [run_next, foreign_step (housed_run program k)]
    cases hc : (run k (start program)).1.recordChange? with
    | none => exact ih
    | some c => exact (RecordChange.get?_apply_of_ne (hrk c hc).symm _).trans ih

end State

/-- The record `c` says of a statement what the record `r` says, as far as that can be seen. -/
structure ForeignRecord.CopyOf (c r : ForeignRecord) : Prop where
  level : c.level = r.level
  component : c.component = r.component
  /-- Where there is no text there is none in the copy. -/
  null : r.text = none → c.text = none
  /-- Otherwise its octets are those in front of the first zero. -/
  octets : ∀ os, r.text = some os → c.text = some (ForeignRecord.visible os)

theorem ForeignRecord.copyOf_copy (r : ForeignRecord) : r.copy.CopyOf r where
  level := rfl
  component := rfl
  null h := by rw [copy, message, h]; rfl
  octets os h := by rw [copy, message, h]; rfl

namespace Heap

/-- From the heap `h` to the heap `h'` a copy of the record `r` has come in, under a name. -/
def Copies (h h' : Heap) (id : String) (r c : ForeignRecord) : Prop :=
  ∃ a, h'.pointers.get? id = some a ∧ a ∈ h'.live ∧ a ∉ h.live ∧ h'.memory.read? a = some c ∧
    c.CopyOf r

namespace Shows

variable {h : Heap} {t : Table String ForeignRecord} {r : ForeignRecord} {a : Address}

theorem copies_adopt {m : Memory} (hs : h.Shows t) (g : Memory.Gains h.memory m a r.copy)
    (id : String) : h.Copies (h.adopt id (some a, m)) id r r.copy :=
  ⟨a, Table.get?_put_self .., List.mem_cons_self .., hs.not_mem_live g, g.read, r.copyOf_copy⟩

theorem copies_copy {source : String} (hs : h.Shows t) (hr : t.get? source = some r)
    (A : Allocator) (id : String) : h.Copies (h.apply A (.copy id source)) id r r.copy := by
  obtain ⟨a, ha, hread⟩ := hs.exists_pointer hr
  obtain ⟨c, m, hdup, g⟩ := Memory.exists_duplicate A hread
  rw [Heap.apply, ha, hdup]
  exact hs.copies_adopt g id

theorem copies_keep (hs : h.Shows t) (A : Allocator) (id : String) (r : ForeignRecord) :
    h.Copies (h.apply A (.keep id r)) id r r.copy := by
  obtain ⟨c, m, hlend, g⟩ := Memory.exists_lend A h.memory r
  rw [Heap.apply, hlend]
  exact hs.copies_adopt g id

/-- What is released is gone, with its blocks and no others. -/
theorem gone (hs : h.Shows t) (A : Allocator) {id : String} (ha : h.pointers.get? id = some a) :
    a ∉ (h.apply A (.free id)).live ∧ ∀ x, (h.apply A (.free id)).memory.get? x =
      if x ∈ h.memory.footprint a then none else h.memory.get? x := by
  obtain ⟨r, hread⟩ := hs.readable a (hs.named id a ha)
  rw [Heap.apply, ha]
  exact ⟨fun hmem => (hs.nodup.mem_erase_iff.mp hmem).1 rfl, Memory.get?_release hread⟩

end Shows

end Heap

namespace State

variable {s : State}

/-- Copies of foreign records, after the first `n` steps of a program: in memory, and under the
names that the run has for them. -/
structure CopiesIndependent (A : Nat → Allocator) (program : Program) (n : Nat) (s : State)
    (h : Heap) : Prop where
  /-- What is under a name is what is read through its pointer. -/
  shows : ∀ id, (h.pointers.get? id).bind h.memory.read? = s.world.foreign.get? id
  /-- Two records that have not been released share no block, and there is something to read in each
  of them. -/
  apart : ∀ a ∈ h.live, ∀ b ∈ h.live, a ≠ b → h.memory.Apart a b
  readable : ∀ a ∈ h.live, ∃ r, h.memory.read? a = some r
  /-- A record that is copied gets a copy in blocks of its own. -/
  copied : ∀ id source r, s.storeOp? = some (.copyRecord id (some source)) →
    s.world.foreign.get? source = some r → ∃ c, h.Copies (heapAfter A program (n + 1)) id r c ∧
      s.step.1.world.foreign.get? id = some c ∧ s.step.1.answer = .copied (some c)
  /-- So does a record that a callback keeps, although it is gone when the callback returns. -/
  kept : ∀ r, (.keeper, r) ∈ calls s.step.2 → ∃ m c, r = World.recordOf m ∧
    h.Copies (heapAfter A program (n + 1)) (World.copyName s.world.copies) r c ∧
      s.step.1.world.foreign.get? (World.copyName s.world.copies) = some c
  /-- A copy, and any other record, stays as it is until it is released itself. -/
  stays : ∀ a ∈ h.live, ∀ k, n ≤ k → (∀ j, n ≤ j → j < k → (heapAfter A program j).released
      (run j (start program)).1.recordChange? ≠ some a) →
    a ∈ (heapAfter A program k).live ∧
      (heapAfter A program k).memory.read? a = h.memory.read? a
  /-- What a name stands for stays until something else comes or goes under it. -/
  named : ∀ id k, n ≤ k → (∀ j, n ≤ j → j < k → ∀ c,
      (run j (start program)).1.recordChange? = some c → c.target ≠ id) →
    (run k (start program)).1.world.foreign.get? id = s.world.foreign.get? id
  /-- It does not matter what is written anywhere else. -/
  overwritten : ∀ a m, (∀ x ∈ h.memory.footprint a, Table.get? m x = h.memory.get? x) →
    Memory.read? m a = h.memory.read? a
  /-- A release gives back the blocks of its record and no others, and its name. -/
  released : ∀ id a, s.storeOp? = some (.freeRecord (some id)) → h.pointers.get? id = some a →
    a ∉ (heapAfter A program (n + 1)).live ∧
      (∀ x, (heapAfter A program (n + 1)).memory.get? x =
        if x ∈ h.memory.footprint a then none else h.memory.get? x) ∧
      ∀ name, s.step.1.world.foreign.get? name =
        if name = id then none else s.world.foreign.get? name
  /-- The copy of null is null, and nothing comes of it. -/
  copyNull : ∀ id, s.storeOp? = some (.copyRecord id none) →
    s.step.1.answer = .copied none ∧ s.step.1.world = s.world ∧
      heapAfter A program (n + 1) = h ∧ ∀ B, Memory.duplicate B h.memory none = (none, h.memory)
  /-- Nothing comes of a release of null. -/
  freeNull : s.storeOp? = some (.freeRecord none) → s.step.1.world = s.world ∧
    heapAfter A program (n + 1) = h ∧ h.memory.release none = h.memory

/-- A step in which a keeper is called makes one call. -/
theorem calls_of_keeper (hs : s.Housed) {r : ForeignRecord} (hr : (.keeper, r) ∈ calls s.step.2) :
    s.storeOp? = none ∧ calls s.step.2 = [(.keeper, r)] := by
  have hcalls := calls_step s
  cases (step_storage hs).1 with
  | kept hn hh hw =>
    rw [hcalls, hh] at hr
    cases hr
  | operated op hn hh hw hanswer =>
    rw [hcalls, hh] at hr
    cases hr
  | received b m v hn hh hb hv hstamp hw =>
    refine ⟨hn, ?_⟩
    rw [hcalls, hh, toldOf_singleton] at hr ⊢
    unfold BackendKind.told at hr ⊢
    split at hr
    · next hook hk =>
      split at hr
      · next hworth =>
        obtain ⟨rfl, rfl⟩ := Prod.mk.inj (List.mem_singleton.mp hr)
        rw [if_pos hworth]
      · cases hr
    · cases hr

/-- **Copies of foreign records**, in every state that a program can reach and with any allocators. -/
theorem copies_independent (A : Nat → Allocator) (program : Program) (n : Nat) :
    CopiesIndependent A program n (run n (start program)).1 (heapAfter A program n) := by
  have hs := shows_run A program n
  have hhoused := housed_run program n
  have hforeign := foreign_step hhoused
  have hnone : (run n (start program)).1.recordChange? = none →
      heapAfter A program (n + 1) = heapAfter A program n := heapAfter_of_none
  have hsome : ∀ c, (run n (start program)).1.recordChange? = some c →
      heapAfter A program (n + 1) = (heapAfter A program n).apply (A n) c :=
    fun _ => heapAfter_of_some
  have hkeeper : ∀ r, (Hook.keeper, r) ∈ calls (run n (start program)).1.step.2 →
      ∃ b m, (b, m) ∈ (run n (start program)).1.handed ∧
        b.kind = .forwarding (some .keeper) ∧ m.worth = true ∧ r = World.recordOf m :=
    fun r => exists_handed_of_call
  have hstays := fun a (ha : a ∈ (heapAfter A program n).live) k (hk : n ≤ k) =>
    stays_run ha hk
  have hnamed := fun id k (hk : n ≤ k) => foreign_run program id hk
  generalize (run n (start program)).1 = s at *
  generalize heapAfter A program n = h at *
  refine ⟨hs.reads, fun a ha b hb => hs.apart_of_ne ha hb, hs.readable, fun id source r hn hr => ?_,
    fun r hr => ?_, hstays, hnamed, fun a m hm => (Memory.footprint_congr hm).1,
    fun id a hn ha => ?_, fun id hn => ?_, fun hn => ?_⟩
  · have hc : s.recordChange? = some (.copy id source) := by rw [recordChange?, hn]; rfl
    refine ⟨r.copy, ?_, ?_, ?_⟩
    · rw [hsome _ hc]
      exact hs.copies_copy hr (A n) id
    · rw [hforeign, hc, Option.map_some, Option.getD_some, RecordChange.apply, hr]
      exact Table.get?_put_self ..
    · rw [(step_of_storeOp hn).2]
      simp [World.applyStore, World.copyRecord, hr]
  · obtain ⟨b, m, -, -, -, hm⟩ := hkeeper r hr
    obtain ⟨hn, hcalls⟩ := calls_of_keeper hhoused hr
    have hc : s.recordChange? = some (.keep (World.copyName s.world.copies) r) := by
      rw [recordChange?, hn, hcalls]
      rfl
    refine ⟨m, r.copy, hm, ?_, ?_⟩
    · rw [hsome _ hc]
      exact hs.copies_keep (A n) _ r
    · rw [hforeign, hc, Option.map_some, Option.getD_some]
      exact Table.get?_put_self ..
  · have hc : s.recordChange? = some (.free id) := by rw [recordChange?, hn]; rfl
    obtain ⟨hgone, hrest⟩ := hs.gone (A n) ha
    rw [← hsome _ hc] at hgone hrest
    refine ⟨hgone, hrest, fun name => ?_⟩
    rw [hforeign, hc, Option.map_some, Option.getD_some]
    exact Table.get?_erase ..
  · have hc : s.recordChange? = none := by rw [recordChange?, hn]; rfl
    obtain ⟨hw, ha⟩ := step_of_storeOp hn
    exact ⟨ha, hw, hnone hc, fun B => Memory.duplicate_null B h.memory⟩
  · have hc : s.recordChange? = none := by rw [recordChange?, hn]; rfl
    exact ⟨(step_of_storeOp hn).1, hnone hc, Memory.release_null h.memory⟩

end State

end GatedLog
