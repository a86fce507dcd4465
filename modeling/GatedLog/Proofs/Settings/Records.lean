import Mathlib.Data.List.Count
import GatedLog.Proofs.Settings.Reads

/-!
# Records by their fields

The fields of a record are read in the order in which they are given, and a draft is filled with
them. That comes to the same as filling it in the order of declaration, with what `slots?` finds for
every field (`reads_record`), since fields do not disturb each other (`Independent`).
-/

namespace GatedLog.Settings

open Json (Value Token joined)

/-- A field together with what it says of a value, which its reader reads. -/
structure Slot (α : Type) extends Field α where
  decode : α → Value → Option α
  reads : ∀ a, Reads (read a) (decode a)

section OwnType

variable {α β : Type} (name : String) (get : α → Option β) (set : α → β → α)
  (read : List Token → Reading β)
  (shrinks : ∀ {b ts rest}, read ts = .ok (b, rest) → rest.length < ts.length)
  (decode : Value → Option β)

theorem reads_slot (h : Reads read decode) (a : α) :
    Reads ((Field.slot name get set read shrinks).read a) fun v => (decode v).map (set a) := by
  intro ts b rest
  simp only [Field.slot]
  constructor
  · intro hr
    split at hr
    · next hc =>
      obtain ⟨rfl, rfl⟩ := ok_inj hr
      obtain ⟨v, rfl, hv⟩ := (h _ _ _).mp hc
      exact ⟨v, rfl, by rw [hv, Option.map_some]⟩
    · cases hr
  · rintro ⟨v, rfl, hv⟩
    obtain ⟨c, hc, rfl⟩ := Option.map_eq_some_iff.mp hv
    rw [(h _ c rest).mpr ⟨v, rfl, hc⟩]

/-- A field that holds a value of its own type. -/
def Slot.of (h : Reads read decode) : Slot α where
  toField := .slot name get set read shrinks
  decode a v := (decode v).map (set a)
  reads := reads_slot name get set read shrinks decode h

end OwnType

section Filling

variable {α : Type}

/-- Fills fields in their order with what each is given, if anything. -/
def fillSlots : List (Slot α) → α → List (Option Value) → Option α
  | [], a, [] => some a
  | s :: ss, a, o :: os => (o.elim (some a) (s.decode a)).bind fun b => fillSlots ss b os
  | _, _, _ => none

/-- Fills fields with the items of an array. -/
def fillItems : List (Slot α) → α → List Value → Option α
  | _, a, [] => some a
  | [], _, _ :: _ => none
  | s :: ss, a, v :: vs => (s.decode a v).bind fun b => fillItems ss b vs

/-- Fills the field of a name, if there is one, and if it has not been filled before. -/
def fillMember (slots : List (Slot α)) (a : α) (name : String) (v : Value) : Option α :=
  match slots.find? fun s => s.name == name with
  | some s => if s.given a then none else s.decode a v
  | none => some a

/-- Fills fields with the members of an object. -/
def fillMembers (slots : List (Slot α)) : α → List (Option String × Value) → Option α
  | a, [] => some a
  | _, (none, _) :: _ => none
  | a, (some name, v) :: ms => (fillMember slots a name v).bind fun b => fillMembers slots b ms

end Filling

/-! ### What is read -/

section Reading

variable {α : Type} {slots : List (Slot α)} {a b : α} {first : Bool} {ts us rest : List Token}

theorem readItems_eq_ok_iff : readItems (slots.map (·.toField)) first a ts = .ok (b, rest) ↔
    ∃ vs : List Value, ts = joined first (vs.map Value.tokens) ++ .closeBracket :: rest ∧
      fillItems slots a vs = some b := by
  induction slots generalizing first a ts with
  | nil =>
    rw [List.map_nil, readItems, closeArray_eq_ok_iff]
    constructor
    · rintro ⟨rfl, rfl⟩
      exact ⟨[], rfl, rfl⟩
    · rintro ⟨vs, rfl, hf⟩
      cases vs with
      | nil => exact ⟨Option.some.inj hf, rfl⟩
      | cons v vs => cases hf
  | cons s ss ih =>
    rw [List.map_cons, readItems]
    constructor
    · intro h
      split at h
      · cases h
      · obtain ⟨rfl, rfl⟩ := closeArray_eq_ok_iff.mp h
        exact ⟨[], rfl, rfl⟩
      · next items hn =>
        split at h
        · cases h
        · next c us hr =>
          obtain ⟨v, rfl, hv⟩ := (s.reads a _ _ _).mp hr
          obtain ⟨vs, rfl, hvs⟩ := ih.mp h
          refine ⟨v :: vs, ?_, ?_⟩
          · rw [List.map_cons, joined_cons_append]
            exact eq_of_nextItem hn
          · rw [fillItems, hv, Option.bind_some, hvs]
    · rintro ⟨vs, rfl, hf⟩
      cases vs with
      | nil => exact closeArray_eq_ok_iff.mpr ⟨Option.some.inj hf, rfl⟩
      | cons v vs =>
        obtain ⟨c, hc, hf⟩ := Option.bind_eq_some_iff.mp hf
        rw [List.map_cons, joined_cons_append, nextItem_value]
        dsimp only
        rw [(s.reads a _ c _).mpr ⟨v, rfl, hc⟩]
        exact ih.mpr ⟨vs, rfl, hf⟩

theorem afterColon_eq_ok_iff : afterColon ts = .ok us ↔ ts = .colon :: us := by
  constructor
  · intro h
    unfold afterColon at h
    split at h
    · rw [Except.ok.inj h]
    · cases h
  · rintro rfl
    rfl

theorem readMember_eq_ok_iff {name : String} :
    readMember (slots.map (·.toField)) a name ts = .ok (b, rest) ↔
      ∃ v : Value, ts = .colon :: (v.tokens ++ rest) ∧ fillMember slots a name v = some b := by
  have hfind : (slots.map (·.toField)).find? (fun f => f.name == name) =
      (slots.find? fun s => s.name == name).map (·.toField) := List.find?_map
  unfold readMember fillMember
  rw [hfind]
  cases slots.find? fun s => s.name == name with
  | some s =>
    dsimp only [Option.map_some]
    by_cases hg : s.given a = true
    · simp [hg]
    · simp only [hg, Bool.false_eq_true, if_false]
      constructor
      · intro h
        split at h
        · next hc =>
          obtain rfl := afterColon_eq_ok_iff.mp hc
          obtain ⟨v, rfl, hv⟩ := (s.reads a _ _ _).mp h
          exact ⟨v, rfl, hv⟩
        · cases h
      · rintro ⟨v, rfl, hv⟩
        exact (s.reads a _ _ _).mpr ⟨v, rfl, hv⟩
  | none =>
    dsimp only [Option.map_none]
    constructor
    · intro h
      split at h
      · cases h
      · next hc =>
        obtain rfl := afterColon_eq_ok_iff.mp hc
        split at h
        · next hs =>
          obtain ⟨rfl, rfl⟩ := ok_inj h
          obtain ⟨v, rfl⟩ := Json.skipValue_eq_some_iff.mp hs
          exact ⟨v, rfl, rfl⟩
        · cases h
    · rintro ⟨v, rfl, hv⟩
      obtain rfl := Option.some.inj hv
      have hs : Json.skipValue (v.tokens ++ rest) = some rest :=
        Json.skipValue_eq_some_iff.mpr ⟨v, rfl⟩
      simp only [afterColon, hs]

theorem nextMember_eq_ok_none_iff :
    nextMember first ts = .ok (none, us) ↔ ts = .closeBrace :: us := by
  constructor
  · intro h
    unfold nextMember at h
    split at h
    · rw [(ok_inj h).2]
    · split at h <;> cases h
    · split at h <;> cases h
    · cases h
  · rintro rfl
    rfl

theorem nextMember_eq_ok_some_iff {name : String} : nextMember first ts = .ok (some name, us) ↔
    ts = (if first then [] else [.comma]) ++ .text (some name) :: us := by
  constructor
  · intro h
    unfold nextMember at h
    cases first with
    | true =>
      split at h
      · cases h
      · cases h
      · obtain ⟨hn, rfl⟩ := ok_inj h
        rw [Option.some.inj hn]
        rfl
      · cases h
    | false =>
      split at h
      · cases h
      · obtain ⟨hn, rfl⟩ := ok_inj h
        rw [Option.some.inj hn]
        rfl
      · cases h
      · cases h
  · rintro rfl
    cases first <;> rfl

theorem nextMember_name (first : Bool) (name : String) (us : List Token) :
    nextMember first ((if first then [] else [.comma]) ++ .text (some name) :: us) =
      .ok (some name, us) := nextMember_eq_ok_some_iff.mpr rfl

/-- How members are read, one at a time. -/
theorem readMembers_eq (fields : List (Field α)) (first : Bool) (a : α) (ts : List Token) :
    readMembers fields first a ts = (nextMember first ts).bind fun
      | (none, rest) => .ok (a, rest)
      | (some name, rest) => (readMember fields a name rest).bind fun p =>
        readMembers fields false p.1 p.2 := by
  conv => lhs; unfold readMembers
  split
  · next hn => rw [hn]; rfl
  · next hn => rw [hn]; rfl
  · next hn =>
    split
    · next hm => simp only [hn, Except.bind, hm]
    · next hm => simp only [hn, Except.bind, hm]

theorem readMembers_cons {fields : List (Field α)} {c : α} {name : String} {items : List Token}
    (hn : nextMember first ts = .ok (some name, items))
    (hm : readMember fields a name items = .ok (c, us)) :
    readMembers fields first a ts = readMembers fields false c us := by
  simp only [readMembers_eq fields first a ts, hn, Except.bind, hm]

theorem readMembers_nil {fields : List (Field α)} (hn : nextMember first ts = .ok (none, us)) :
    readMembers fields first a ts = .ok (a, us) := by
  simp only [readMembers_eq, hn, Except.bind]

theorem readMembers_eq_ok_iff : readMembers (slots.map (·.toField)) first a ts = .ok (b, rest) ↔
    ∃ ms : List (Option String × Value),
      ts = joined first (ms.map Value.memberTokens) ++ .closeBrace :: rest ∧
        fillMembers slots a ms = some b := by
  constructor
  · intro h
    fun_induction readMembers (slots.map (·.toField)) first a ts with
    | case1 => cases h
    | case2 first a ts us hn =>
      obtain ⟨rfl, rfl⟩ := ok_inj h
      exact ⟨[], nextMember_eq_ok_none_iff.mp hn, rfl⟩
    | case3 => cases h
    | case4 first a ts name us hn c us' hm _ _ ih =>
      obtain ⟨v, rfl, hv⟩ := readMember_eq_ok_iff.mp hm
      obtain ⟨ms, rfl, hms⟩ := ih h
      refine ⟨(some name, v) :: ms, ?_, ?_⟩
      · rw [List.map_cons, joined_cons_append]
        exact nextMember_eq_ok_some_iff.mp hn
      · rw [fillMembers, hv, Option.bind_some, hms]
  · rintro ⟨ms, rfl, hf⟩
    induction ms generalizing first a with
    | nil =>
      obtain rfl := Option.some.inj hf
      exact readMembers_nil (nextMember_eq_ok_none_iff.mpr rfl)
    | cons m ms ih =>
      obtain ⟨name, v⟩ := m
      cases name with
      | none => cases hf
      | some name =>
        obtain ⟨c, hc, hf⟩ := Option.bind_eq_some_iff.mp hf
        have hm : readMember (slots.map (·.toField)) a name (.colon :: (v.tokens ++
            (joined false (ms.map Value.memberTokens) ++ .closeBrace :: rest))) = .ok (c, _) :=
          readMember_eq_ok_iff.mpr ⟨v, rfl, hc⟩
        rw [List.map_cons, joined_cons_append]
        exact (readMembers_cons (nextMember_eq_ok_some_iff.mpr rfl) hm).trans (ih hf)

end Reading

/-! ### Fields in the order of their declaration -/

/-- Two fields that do not disturb each other. -/
structure Compatible {α : Type} (s t : Slot α) : Prop where
  name_ne : s.name ≠ t.name
  comm : ∀ a v w, ((s.decode a v).bind fun b => t.decode b w) =
    (t.decode a w).bind fun b => s.decode b v
  given_left : ∀ a v b, s.decode a v = some b → t.given b = t.given a
  given_right : ∀ a v b, t.decode a v = some b → s.given b = s.given a

/-- Fields that do not disturb each other and are given once they have been filled. -/
structure Independent {α : Type} (slots : List (Slot α)) : Prop where
  compatible : slots.Pairwise Compatible
  given : ∀ s ∈ slots, ∀ a v b, s.decode a v = some b → s.given b = true

section Order

variable {α : Type} {slots : List (Slot α)} {s t : Slot α} {a b : α}

theorem Compatible.symm (h : Compatible s t) : Compatible t s where
  name_ne := h.name_ne.symm
  comm a v w := (h.comm a w v).symm
  given_left := h.given_right
  given_right := h.given_left

namespace Independent

theorem tail (h : Independent (s :: slots)) : Independent slots where
  compatible := (List.pairwise_cons.mp h.compatible).2
  given t ht := h.given t (List.mem_cons_of_mem _ ht)

theorem head (h : Independent (s :: slots)) (ht : t ∈ slots) : Compatible s t :=
  (List.pairwise_cons.mp h.compatible).1 t ht

theorem eq_or_compatible (h : Independent slots) (hs : s ∈ slots) (ht : t ∈ slots) :
    t = s ∨ Compatible s t := by
  induction slots with
  | nil => cases hs
  | cons r rs ih =>
    rcases List.mem_cons.mp hs with rfl | hs'
    · rcases List.mem_cons.mp ht with rfl | ht'
      · exact .inl rfl
      · exact .inr (h.head ht')
    · rcases List.mem_cons.mp ht with rfl | ht'
      · exact .inr (h.head hs').symm
      · exact ih h.tail hs' ht'

end Independent

theorem fillSlots_none (slots : List (Slot α)) (a : α) :
    fillSlots slots a (slots.map fun _ => none) = some a := by
  induction slots with
  | nil => rfl
  | cons s ss ih => exact ih

/-- The items of an array fill the first fields, and nothing fills the others. -/
theorem fillItems_eq (slots : List (Slot α)) (a : α) (vs : List Value) :
    fillItems slots a vs =
      if vs.length ≤ slots.length then
        fillSlots slots a (vs.map some ++ List.replicate (slots.length - vs.length) none)
      else none := by
  induction slots generalizing a vs with
  | nil =>
    cases vs with
    | nil => rfl
    | cons v vs => rfl
  | cons s ss ih =>
    cases vs with
    | nil =>
      have := fillSlots_none (s :: ss) a
      rw [List.map_const'] at this
      exact this.symm
    | cons v vs =>
      rw [fillItems]
      by_cases hl : vs.length ≤ ss.length
      · rw [if_pos (by simpa using hl)]
        simp only [List.length_cons, Nat.add_sub_add_right, List.map_cons, List.cons_append, fillSlots]
        refine congrArg _ (funext fun b => ?_)
        rw [ih, if_pos hl]
      · rw [if_neg (by simpa using hl)]
        cases s.decode a v with
        | none => rfl
        | some b => rw [Option.bind_some, ih, if_neg hl]

/-- A field can be filled before those that are declared before it. -/
theorem fillSlots_eq_bind (hi : Independent slots) (hs : s ∈ slots) {v : Value}
    (g g' : String → Option Value) (hv : g s.name = some v) (hn : g' s.name = none)
    (hg : ∀ t ∈ slots, t.name ≠ s.name → g t.name = g' t.name) (a : α) :
    fillSlots slots a (slots.map fun t => g t.name) =
      (s.decode a v).bind fun b => fillSlots slots b (slots.map fun t => g' t.name) := by
  induction slots generalizing a with
  | nil => cases hs
  | cons t ts ih =>
    rcases List.mem_cons.mp hs with rfl | hs'
    · have hmap : (ts.map fun t => g t.name) = ts.map fun t => g' t.name :=
        List.map_congr_left fun t ht =>
          hg t (List.mem_cons_of_mem _ ht) (hi.head ht).name_ne.symm
      simp only [List.map_cons, fillSlots, hv, hn, hmap, Option.elim_some, Option.elim_none,
        Option.bind_some]
    · have hts := hi.head hs'
      have hrest := ih hi.tail hs' fun u hu => hg u (List.mem_cons_of_mem _ hu)
      simp only [List.map_cons, fillSlots, hg t (List.mem_cons_self ..) hts.name_ne, hrest]
      cases g' t.name with
      | none => rfl
      | some w =>
        simp only [Option.elim_some]
        rw [← Option.bind_assoc, hts.comm, Option.bind_assoc]

/-! ### The members of an object -/

/-- No field is given twice, counting those that have been filled before. -/
def Fresh (slots : List (Slot α)) (a : α) (ms : List (Option String × Value)) : Prop :=
  ∀ s ∈ slots, ms.countP (fun m => m.1 == some s.name) + (s.given a).toNat ≤ 1

theorem lookup_eq_none {name : Option String} {ms : List (Option String × Value)}
    (h : ms.countP (fun m => m.1 == name) = 0) : ms.lookup name = none := by
  induction ms with
  | nil => rfl
  | cons m ms ih =>
    obtain ⟨n, v⟩ := m
    rw [List.countP_cons] at h
    have hn : ¬ (n == name) = true := by
      intro hn
      simp [hn] at h
    have hn' : (name == n) = false := by simpa using fun he => hn (by simp [he])
    rw [List.lookup_cons, hn']
    exact ih (by omega)

theorem countP_cons_of_ne {name other : String} (h : other ≠ name) (v : Value)
    (ms : List (Option String × Value)) :
    ((some name, v) :: ms).countP (fun m => m.1 == some other) =
      ms.countP fun m => m.1 == some other := by
  refine List.countP_cons_of_neg ?_
  simpa using h.symm

theorem lookup_cons_of_ne {name other : String} (h : other ≠ name) (v : Value)
    (ms : List (Option String × Value)) :
    ((some name, v) :: ms).lookup (some other) = ms.lookup (some other) := by
  have hn : (some other == some name) = false := by simpa using h
  rw [List.lookup_cons, hn]

theorem fresh_cons_of_ne {name : String} (h : ∀ s ∈ slots, s.name ≠ name) (v : Value)
    (ms : List (Option String × Value)) :
    Fresh slots a ((some name, v) :: ms) ↔ Fresh slots a ms :=
  forall₂_congr fun s hs => by rw [countP_cons_of_ne (h s hs)]

/-- A member counts as given from then on. -/
theorem Independent.fresh_cons (hi : Independent slots) (hs : s ∈ slots) (hg : s.given a = false)
    {v : Value} (hd : s.decode a v = some b) (ms : List (Option String × Value)) :
    Fresh slots a ((some s.name, v) :: ms) ↔ Fresh slots b ms := by
  refine forall₂_congr fun t ht => ?_
  rcases hi.eq_or_compatible hs ht with rfl | hst
  · rw [List.countP_cons_of_pos (by simp), hg, hi.given t ht a v b hd]
    simp
  · rw [countP_cons_of_ne hst.name_ne.symm, hst.given_left a v b hd]

/-- A member whose field is not given twice comes before its field has been filled, and no other
member of the name follows. -/
theorem Fresh.head {v : Value} {ms : List (Option String × Value)} (hs : s ∈ slots)
    (h : Fresh slots a ((some s.name, v) :: ms)) :
    s.given a = false ∧ ms.lookup (some s.name) = none := by
  have hcount := h s hs
  rw [List.countP_cons_of_pos (by simp)] at hcount
  cases hg : s.given a with
  | true =>
    rw [hg] at hcount
    exact absurd hcount (by simp)
  | false => exact ⟨rfl, lookup_eq_none (by omega)⟩

/-- What is looked up for the fields, with a member taken from the front. -/
theorem Independent.fillSlots_member (hi : Independent slots) (hs : s ∈ slots) {v : Value}
    {ms : List (Option String × Value)} (h : Fresh slots a ((some s.name, v) :: ms)) :
    fillSlots slots a (slots.map fun t => ((some s.name, v) :: ms).lookup (some t.name)) =
      (s.decode a v).bind fun b => fillSlots slots b (slots.map fun t => ms.lookup (some t.name)) :=
  fillSlots_eq_bind hi hs (fun n => ((some s.name, v) :: ms).lookup (some n))
    (fun n => ms.lookup (some n)) (by simp) (h.head hs).2 (fun t _ ht => lookup_cons_of_ne ht v ms) a

/-- The members of an object fill the fields with what is looked up for them. -/
theorem fillMembers_eq_some_iff (hi : Independent slots) {ms : List (Option String × Value)} :
    fillMembers slots a ms = some b ↔ (∀ m ∈ ms, m.1 ≠ none) ∧ Fresh slots a ms ∧
      fillSlots slots a (slots.map fun s => ms.lookup (some s.name)) = some b := by
  induction ms generalizing a with
  | nil =>
    have hfresh : Fresh slots a [] := by
      intro s hs
      simpa using Bool.toNat_le (s.given a)
    have hnone := fillSlots_none slots a
    constructor
    · intro h
      exact ⟨fun m hm => absurd hm List.not_mem_nil, hfresh, hnone.trans h⟩
    · rintro ⟨-, -, h⟩
      exact hnone.symm.trans h
  | cons m ms ih =>
    obtain ⟨name, v⟩ := m
    cases name with
    | none =>
      constructor
      · intro h
        cases h
      · rintro ⟨h, -⟩
        exact absurd rfl (h _ (List.mem_cons_self ..))
    | some name =>
      have hkeys : (∀ m ∈ (some name, v) :: ms, m.1 ≠ none) ↔ ∀ m ∈ ms, m.1 ≠ none := by
        simp
      rw [hkeys, fillMembers, fillMember]
      cases hf : slots.find? fun s => s.name == name with
      | none =>
        -- the member is none of the fields
        have hne : ∀ s ∈ slots, s.name ≠ name := by simpa using hf
        have hmap : (slots.map fun s => ((some name, v) :: ms).lookup (some s.name)) =
            slots.map fun s => ms.lookup (some s.name) :=
          List.map_congr_left fun s hs => lookup_cons_of_ne (hne s hs) v ms
        rw [hmap, fresh_cons_of_ne hne]
        exact ih
      | some s =>
        have hs := List.mem_of_find?_eq_some hf
        obtain rfl : s.name = name := by simpa using List.find?_some hf
        dsimp only
        constructor
        · intro h
          split at h
          · cases h
          · next hg =>
            obtain ⟨c, hd, hc⟩ := Option.bind_eq_some_iff.mp h
            obtain ⟨hkeys, hfresh, hc⟩ := ih.mp hc
            have hfresh' := (hi.fresh_cons hs (Bool.eq_false_iff.mpr hg) hd ms).mpr hfresh
            refine ⟨hkeys, hfresh', ?_⟩
            rw [hi.fillSlots_member hs hfresh', hd, Option.bind_some, hc]
        · rintro ⟨hkeys, hfresh, h⟩
          have hg := (hfresh.head hs).1
          rw [hi.fillSlots_member hs hfresh] at h
          obtain ⟨c, hd, hc⟩ := Option.bind_eq_some_iff.mp h
          rw [hg, if_neg Bool.false_ne_true, hd, Option.bind_some]
          exact ih.mpr ⟨hkeys, (hi.fresh_cons hs hg hd ms).mp hfresh, hc⟩

end Order

/-! ### Records -/

theorem fresh_iff_of_empty {α : Type} {slots : List (Slot α)} {empty : α}
    (he : ∀ s ∈ slots, s.given empty = false) (ms : List (Option String × Value)) :
    Fresh slots empty ms ↔
      ∀ f ∈ slots.map (·.name), ms.countP (fun m => m.1 == some f) ≤ 1 := by
  rw [List.forall_mem_map]
  refine forall₂_congr fun s hs => ?_
  rw [he s hs]
  rfl

/-- **A record is read by its fields**: their values are found first, whichever of the two forms it
has, and then they fill the empty draft in the order of declaration. -/
theorem reads_record {α : Type} {slots : List (Slot α)} (wanted : Wanted) (empty : α)
    (hi : Independent slots) (he : ∀ s ∈ slots, s.given empty = false) :
    Reads (readRecord wanted (slots.map (·.toField)) empty) fun v =>
      (slots? (slots.map (·.name)) v).bind (fillSlots slots empty) := by
  intro ts b rest
  constructor
  · intro h
    unfold readRecord at h
    split at h
    · obtain ⟨vs, rfl, hvs⟩ := readItems_eq_ok_iff.mp h
      refine ⟨.array vs, by simp, ?_⟩
      show (slots? _ (.array vs)).bind _ = some b
      rw [← hvs, fillItems_eq, slots?, List.length_map]
      split <;> rfl
    · obtain ⟨ms, rfl, hms⟩ := readMembers_eq_ok_iff.mp h
      refine ⟨.object ms, by simp, ?_⟩
      obtain ⟨hkeys, hfresh, hfill⟩ := (fillMembers_eq_some_iff hi).mp hms
      have hu : Unambiguous (slots.map (·.name)) ms :=
        ⟨hkeys, (fresh_iff_of_empty he ms).mp hfresh⟩
      show (slots? _ (.object ms)).bind _ = some b
      rw [slots?, if_pos hu, List.map_map]
      exact hfill
    · cases h
  · rintro ⟨v, rfl, hd⟩
    obtain ⟨os, hos, hd⟩ := Option.bind_eq_some_iff.mp hd
    cases v with
    | array vs =>
      rw [Value.tokens_array, List.append_assoc, List.cons_append, readRecord]
      refine readItems_eq_ok_iff.mpr ⟨vs, rfl, ?_⟩
      rw [slots?, List.length_map] at hos
      rw [fillItems_eq]
      split at hos
      · next hl =>
        obtain rfl := Option.some.inj hos
        rw [if_pos hl, hd]
      · cases hos
    | object ms =>
      rw [Value.tokens_object, List.append_assoc, List.cons_append, readRecord]
      refine readMembers_eq_ok_iff.mpr ⟨ms, rfl, (fillMembers_eq_some_iff hi).mpr ?_⟩
      rw [slots?] at hos
      split at hos
      · next hu =>
        obtain rfl := Option.some.inj hos
        rw [List.map_map] at hd
        exact ⟨hu.1, (fresh_iff_of_empty he ms).mpr hu.2, hd⟩
      · cases hos
    | _ => cases hos

end GatedLog.Settings
