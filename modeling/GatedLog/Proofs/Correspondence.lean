import Mathlib.Data.List.Forall2
import Mathlib.Data.Option.Defs
import GatedLog.Table

/-!
# Corresponding lists and tables

Two runs may give the same thing different numbers. A `Pairing` says which numbers stand for the same
thing; lists that grow at their ends correspond along a pairing (`Pairing.Couples`), and tables
correspond key by key (`Table.Agree`). Beside each of the two stands what it means that only the
paired places have changed since (`Pairing.Spared`, `Table.Spared`).
-/

namespace GatedLog

theorem optionRel_mono {α β : Type} {R R' : α → β → Prop} {x : Option α} {y : Option β}
    (h : Option.Rel R x y) (hR : ∀ x y, R x y → R' x y) : Option.Rel R' x y := by
  cases h with
  | none => exact .none
  | some hxy => exact .some (hR _ _ hxy)

theorem optionRel_map {α β γ δ : Type} {R : α → β → Prop} {S : γ → δ → Prop} {x : Option α}
    {y : Option β} {f : α → γ} {g : β → δ} (h : Option.Rel R x y)
    (hfg : ∀ x y, R x y → S (f x) (g y)) : Option.Rel S (x.map f) (y.map g) := by
  cases h with
  | none => exact .none
  | some hxy => exact .some (hfg _ _ hxy)

theorem optionRel_refl {α : Type} {R : α → α → Prop} (hR : ∀ x, R x x) (x : Option α) :
    Option.Rel R x x := by
  cases x with
  | none => exact .none
  | some x => exact .some (hR x)

/-- Numbers of one side and of the other that stand for the same thing. -/
structure Pairing where
  rel : Nat → Nat → Prop
  /-- No number stands for two things. -/
  inj : ∀ {a b c d}, rel a b → rel c d → (a = c ↔ b = d)

namespace Pairing

variable {α β : Type} {P Q S : Pairing} {R : α → β → Prop} {l l₁ l₂ : List α} {l' : List β}
  {a b m n : Nat}

/-- Every number stands for the same thing on both sides. -/
def identity : Pairing where
  rel a b := a = b
  inj := by
    rintro a b c d rfl rfl
    exact .rfl

/-- The numbers that are paired are below `m` and `n`, or just as far above. -/
def Spans (P : Pairing) (m n : Nat) : Prop :=
  ∀ a b, P.rel a b → a < m ∧ b < n ∨ ∃ k, a = m + k ∧ b = n + k

/-- The next numbers of both sides stand for the same new thing. -/
def extend (P : Pairing) (m n : Nat) (h : P.Spans m n) : Pairing where
  rel a b := P.rel a b ∨ a = m ∧ b = n
  inj := by
    rintro a b c d (hab | ⟨rfl, rfl⟩) (hcd | ⟨rfl, rfl⟩)
    · exact P.inj hab hcd
    · rcases h a b hab with ⟨ha, hb⟩ | ⟨k, rfl, rfl⟩ <;> omega
    · rcases h c d hcd with ⟨hc, hd⟩ | ⟨k, rfl, rfl⟩ <;> omega
    · exact iff_of_true rfl rfl

theorem spans_identity (m : Nat) : identity.Spans m m := by
  rintro a b rfl
  rcases Nat.lt_or_ge a m with h | h
  · exact .inl ⟨h, h⟩
  · obtain ⟨k, rfl⟩ := Nat.exists_eq_add_of_le h
    exact .inr ⟨k, rfl, rfl⟩

theorem Spans.lt_iff (h : P.Spans m n) (hab : P.rel a b) : a < m ↔ b < n := by
  rcases h a b hab with ⟨ha, hb⟩ | ⟨k, rfl, rfl⟩
  · exact iff_of_true ha hb
  · constructor <;> intro hlt <;> omega

theorem Spans.extend (h : P.Spans m n) : (P.extend m n h).Spans (m + 1) (n + 1) := by
  rintro a b (hab | ⟨rfl, rfl⟩)
  · rcases h a b hab with ⟨ha, hb⟩ | ⟨k, rfl, rfl⟩
    · exact .inl ⟨by omega, by omega⟩
    · cases k with
      | zero => exact .inl ⟨by omega, by omega⟩
      | succ k => exact .inr ⟨k, by omega, by omega⟩
  · exact .inl ⟨Nat.lt_succ_self _, Nat.lt_succ_self _⟩

/-! ### Growing pairings -/

/-- What is paired stays paired, and what is new lies between `m` and `n`. -/
structure Grows (P Q : Pairing) (m n : Nat) : Prop where
  keeps : ∀ {a b}, P.rel a b → Q.rel a b
  fresh : ∀ {a b}, Q.rel a b → P.rel a b ∨ m ≤ a ∧ a < n

theorem Grows.refl (P : Pairing) (m n : Nat) : P.Grows P m n := ⟨id, .inl⟩

theorem Grows.trans {k : Nat} (h : P.Grows Q m n) (h' : Q.Grows S n k) (hmn : m ≤ n)
    (hnk : n ≤ k) : P.Grows S m k where
  keeps hab := h'.keeps (h.keeps hab)
  fresh hab := by
    rcases h'.fresh hab with hab | ⟨hna, hak⟩
    · exact (h.fresh hab).imp_right fun ⟨hma, han⟩ => ⟨hma, Nat.lt_of_lt_of_le han hnk⟩
    · exact .inr ⟨Nat.le_trans hmn hna, hak⟩

theorem grows_extend (h : P.Spans m n) : P.Grows (P.extend m n h) m (m + 1) where
  keeps := .inl
  fresh := by
    rintro a b (hab | ⟨rfl, rfl⟩)
    · exact .inl hab
    · exact .inr ⟨Nat.le_refl _, Nat.lt_succ_self _⟩

/-! ### Corresponding lists -/

/-- The lists are alike in the places that are paired. -/
structure Couples (P : Pairing) (R : α → β → Prop) (l : List α) (l' : List β) : Prop where
  spans : P.Spans l.length l'.length
  rel : ∀ {a b}, P.rel a b → Option.Rel R l[a]? l'[b]?

theorem couples_identity {R : α → α → Prop} (hR : ∀ x, R x x) (l : List α) :
    identity.Couples R l l where
  spans := spans_identity _
  rel := by
    rintro a b rfl
    exact optionRel_refl hR _

theorem Couples.mono {R' : α → β → Prop} (h : P.Couples R l l') (hR : ∀ x y, R x y → R' x y) :
    P.Couples R' l l' where
  spans := h.spans
  rel hab := optionRel_mono (h.rel hab) hR

theorem Couples.modify (h : P.Couples R l l') (hab : P.rel a b) {f : α → α} {g : β → β}
    (hfg : ∀ x y, R x y → R (f x) (g y)) : P.Couples R (l.modify a f) (l'.modify b g) where
  spans := by simpa using h.spans
  rel {c d} hcd := by
    rw [List.getElem?_modify, List.getElem?_modify]
    refine optionRel_map (h.rel hcd) fun x y hxy => ?_
    by_cases hac : a = c
    · rw [if_pos hac, if_pos ((P.inj hab hcd).mp hac)]
      exact hfg x y hxy
    · rw [if_neg hac, if_neg fun hbd => hac ((P.inj hab hcd).mpr hbd)]
      exact hxy

theorem Couples.append (h : P.Couples R l l') {x : α} {y : β} (hxy : R x y) :
    (P.extend _ _ h.spans).Couples R (l ++ [x]) (l' ++ [y]) where
  spans := by simpa using h.spans.extend
  rel := by
    rintro a b (hab | ⟨rfl, rfl⟩)
    · have hrel := h.rel hab
      rcases h.spans a b hab with ⟨ha, hb⟩ | ⟨k, rfl, rfl⟩
      · rwa [List.getElem?_append_left ha, List.getElem?_append_left hb]
      · cases k with
        | zero => simpa using Option.Rel.some hxy
        | succ k =>
          rw [List.getElem?_eq_none (by simp), List.getElem?_eq_none (by simp)]
          exact .none
    · simpa using Option.Rel.some hxy

/-! ### Lists that change in some places only -/

/-- The list has grown, and has changed in paired places only. -/
structure Spared (P : Pairing) (l l₁ : List α) : Prop where
  length_le : l.length ≤ l₁.length
  eq : ∀ a < l.length, (∀ b, ¬ P.rel a b) → l₁[a]? = l[a]?

theorem Spared.refl (P : Pairing) (l : List α) : P.Spared l l := ⟨Nat.le_refl _, fun _ _ _ => rfl⟩

theorem Spared.trans (h : P.Spared l l₁) (hQ : P.Grows Q l.length l₁.length)
    (h' : Q.Spared l₁ l₂) : P.Spared l l₂ where
  length_le := Nat.le_trans h.length_le h'.length_le
  eq a ha hP := by
    refine (h'.eq a (Nat.lt_of_lt_of_le ha h.length_le) fun b hb => ?_).trans (h.eq a ha hP)
    rcases hQ.fresh hb with hb | ⟨hl, -⟩
    · exact hP b hb
    · omega

theorem spared_modify (hab : P.rel a b) (l : List α) (f : α → α) : P.Spared l (l.modify a f) where
  length_le := by simp
  eq c _ hc := by
    have hac : a ≠ c := by
      rintro rfl
      exact hc b hab
    simp [hac]

theorem spared_append (P : Pairing) (l l₁ : List α) : P.Spared l (l ++ l₁) where
  length_le := by simp
  eq a ha _ := List.getElem?_append_left ha

/-! ### Several pairings of one list -/

/-- Every pairing has places of its own in a list of `m` places. -/
structure Partition {ι : Type} (P : ι → Pairing) (m : Nat) : Prop where
  lt : ∀ {p a b}, (P p).rel a b → a < m
  disjoint : ∀ {p q}, p ≠ q → ∀ {a b d}, (P p).rel a b → ¬ (P q).rel a d

/-- One of the pairings grows by places that are new in the list. -/
theorem Partition.grow {ι : Type} {P P' : ι → Pairing} {q : ι} (h : Partition P m)
    (hq : (P q).Grows (P' q) m n) (hP : ∀ p, p ≠ q → P' p = P p) (hmn : m ≤ n) :
    Partition P' n where
  lt {p a b} hab := by
    by_cases hp : p = q
    · subst hp
      rcases hq.fresh hab with hab | ⟨-, ha⟩
      · exact Nat.lt_of_lt_of_le (h.lt hab) hmn
      · exact ha
    · rw [hP p hp] at hab
      exact Nat.lt_of_lt_of_le (h.lt hab) hmn
  disjoint {p r} hpr a b d hb hd := by
    -- a place that is new belongs to no other pairing
    have new : ∀ {i b d}, i ≠ q → (P i).rel a b → ¬ (P' q).rel a d := fun hi hb hd => by
      rcases hq.fresh hd with hd | ⟨hm, -⟩
      · exact h.disjoint hi hb hd
      · exact absurd (h.lt hb) (Nat.not_lt.mpr hm)
    by_cases hp : p = q
    · subst hp
      rw [hP r (Ne.symm hpr)] at hd
      exact new (Ne.symm hpr) hd hb
    · rw [hP p hp] at hb
      by_cases hr : r = q
      · subst hr
        exact new hp hb hd
      · rw [hP r hr] at hd
        exact h.disjoint hpr hb hd

/-- The list may change in places of another pairing. -/
theorem Couples.of_spared (h : P.Couples R l l') (hs : Q.Spared l l₁)
    (hlt : ∀ {a b}, P.rel a b → a < l.length) (hd : ∀ {a b d}, P.rel a b → ¬ Q.rel a d) :
    P.Couples R l₁ l' where
  spans a b hab := by
    have ha := hlt hab
    exact .inl ⟨Nat.lt_of_lt_of_le ha hs.length_le, (h.spans.lt_iff hab).mp ha⟩
  rel {a b} hab := by
    rw [hs.eq a (hlt hab) fun _ => hd hab]
    exact h.rel hab

end Pairing

/-! ### Corresponding tables -/

namespace Table

variable {κ α β : Type} [DecidableEq κ] {K : κ → Prop} {R : α → β → Prop} {t t₁ t₂ : Table κ α}
  {t' : Table κ β} {k : κ}

theorem get?_erase (t : Table κ α) (k j : κ) :
    (t.erase k).get? j = if j = k then none else t.get? j := by
  unfold erase get?
  induction t.entries with
  | nil => simp
  | cons e es ih =>
    obtain ⟨i, x⟩ := e
    by_cases hi : i = k
    · subst hi
      by_cases hj : j = i
      · simpa [hj] using ih
      · have hb : (j == i) = false := by simpa using hj
        simpa [List.lookup_cons, hb, hj] using ih
    · by_cases hj : j = i
      · subst hj
        simp [hi]
      · have hb : (j == i) = false := by simpa using hj
        simpa [List.lookup_cons, hb, hi] using ih

theorem get?_erase_eq_some {j : κ} {x : α} :
    (t.erase k).get? j = some x ↔ j ≠ k ∧ t.get? j = some x := by
  rw [get?_erase]
  split <;> simp [*]

/-- A value in a table is the one that has been put in, or has been there. -/
theorem get?_put_eq_some {j : κ} {x y : α} :
    (t.put k x).get? j = some y ↔ j = k ∧ x = y ∨ j ≠ k ∧ t.get? j = some y := by
  by_cases h : j = k
  · simp [h]
  · simp [h, get?_put_ne]

/-- The tables are alike in the keys that satisfy `K`. -/
def Agree (K : κ → Prop) (R : α → β → Prop) (t : Table κ α) (t' : Table κ β) : Prop :=
  ∀ k, K k → Option.Rel R (t.get? k) (t'.get? k)

theorem agree_of_eq {R : α → α → Prop} (hR : ∀ x, R x x) {t t' : Table κ α} (h : t = t') :
    Agree K R t t' := by
  subst h
  exact fun k _ => optionRel_refl hR _

theorem Agree.mono {R' : α → β → Prop} (h : Agree K R t t') (hR : ∀ x y, R x y → R' x y) :
    Agree K R' t t' := fun k hk => optionRel_mono (h k hk) hR

theorem Agree.put (h : Agree K R t t') {x : α} {y : β} (hxy : R x y) :
    Agree K R (t.put k x) (t'.put k y) := by
  intro j hj
  by_cases hjk : j = k
  · subst hjk
    simpa using Option.Rel.some hxy
  · rw [get?_put_ne _ _ hjk, get?_put_ne _ _ hjk]
    exact h j hj

theorem Agree.erase (h : Agree K R t t') (k : κ) : Agree K R (t.erase k) (t'.erase k) := by
  intro j hj
  rw [get?_erase, get?_erase]
  split
  · exact .none
  · exact h j hj

/-- The table has changed in keys only that satisfy `K`. -/
def Spared (K : κ → Prop) (t t₁ : Table κ α) : Prop := ∀ k, ¬ K k → t₁.get? k = t.get? k

/-- The table may change in other keys. -/
theorem Agree.of_spared {K' : κ → Prop} (h : Agree K R t t') (hs : Spared K' t t₁)
    (hK : ∀ k, K k → ¬ K' k) : Agree K R t₁ t' := fun k hk => by
  rw [hs k (hK k hk)]
  exact h k hk

theorem Spared.refl (K : κ → Prop) (t : Table κ α) : Spared K t t := fun _ _ => rfl

theorem Spared.trans (h : Spared K t t₁) (h' : Spared K t₁ t₂) : Spared K t t₂ :=
  fun k hk => (h' k hk).trans (h k hk)

theorem spared_put (hk : K k) (t : Table κ α) (x : α) : Spared K t (t.put k x) := by
  intro j hj
  have hjk : j ≠ k := fun h => hj (h ▸ hk)
  exact get?_put_ne _ _ hjk

theorem spared_erase (hk : K k) (t : Table κ α) : Spared K t (t.erase k) := by
  intro j hj
  have hjk : j ≠ k := fun h => hj (h ▸ hk)
  rw [get?_erase, if_neg hjk]

end Table

end GatedLog
