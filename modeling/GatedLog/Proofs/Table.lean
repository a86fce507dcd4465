import Mathlib.Data.List.Perm.Basic
import GatedLog.Table

/-!
# The values in a table

Tables own the values that are put into them: putting a value in takes the place of the one that the
key had, and taking a key away takes its value away.
-/

namespace GatedLog.Table

variable {κ α : Type} [DecidableEq κ]

/-- The values in a table. -/
def values (t : Table κ α) : List α := t.entries.map (·.2)

theorem perm_lookup_putList (k : κ) (a : α) (es : List (κ × α)) :
    ∃ rest, (es.map (·.2)).Perm ((es.lookup k).toList ++ rest) ∧
      ((putList k a es).map (·.2)).Perm (a :: rest) := by
  induction es with
  | nil => exact ⟨[], by simp, by simp [putList]⟩
  | cons e es ih =>
    obtain ⟨j, b⟩ := e
    by_cases h : k = j
    · subst h
      exact ⟨es.map (·.2), by simp, by simp [putList]⟩
    · obtain ⟨rest, h₁, h₂⟩ := ih
      have hb : (k == j) = false := by simpa using h
      refine ⟨b :: rest, ?_, ?_⟩
      · rw [List.map_cons, List.lookup_cons, hb]
        exact (h₁.cons b).trans List.perm_middle.symm
      · rw [putList, if_neg h, List.map_cons]
        exact (h₂.cons b).trans (List.Perm.swap a b rest)

/-- A value that is put in takes the place of the one that the key had. -/
theorem exists_perm_put (t : Table κ α) (k : κ) (a : α) :
    ∃ rest, t.values.Perm ((t.get? k).toList ++ rest) ∧ (t.put k a).values.Perm (a :: rest) :=
  perm_lookup_putList k a t.entries

theorem mem_values_put {t : Table κ α} {k : κ} {a b : α} (h : b ∈ (t.put k a).values) :
    b = a ∨ b ∈ t.values := by
  obtain ⟨rest, h₁, h₂⟩ := t.exists_perm_put k a
  rcases List.mem_cons.mp (h₂.mem_iff.mp h) with rfl | h
  · exact .inl rfl
  · exact .inr (h₁.mem_iff.mpr (List.mem_append_right _ h))

/-- A key that is taken away takes its value away. -/
theorem exists_perm_erase {t : Table κ α} {k : κ} {a : α} (h : t.get? k = some a) :
    ∃ rest, t.values.Perm (a :: rest) ∧ (t.erase k).values.Sublist rest := by
  obtain ⟨es⟩ := t
  unfold get? at h
  unfold values erase
  dsimp only at h ⊢
  induction es with
  | nil => cases h
  | cons e es ih =>
    obtain ⟨j, b⟩ := e
    by_cases hk : k = j
    · subst hk
      obtain rfl : b = a := by simpa using h
      refine ⟨es.map (·.2), .refl _, ?_⟩
      simpa using (List.filter_sublist (l := es)).map Prod.snd
    · have hb : (k == j) = false := by simpa using hk
      rw [List.lookup_cons, hb] at h
      obtain ⟨rest, h₁, h₂⟩ := ih h
      refine ⟨b :: rest, (h₁.cons b).trans (List.Perm.swap a b rest), ?_⟩
      simpa [Ne.symm hk] using h₂

theorem mem_values_of_get? {t : Table κ α} {k : κ} {a : α} (h : t.get? k = some a) :
    a ∈ t.values := by
  obtain ⟨rest, h₁, -⟩ := exists_perm_erase h
  exact h₁.mem_iff.mpr (List.mem_cons_self ..)

theorem mem_values_erase {t : Table κ α} {k : κ} {b : α} (h : b ∈ (t.erase k).values) :
    b ∈ t.values := by
  refine List.Sublist.subset ?_ h
  exact (List.filter_sublist (l := t.entries)).map Prod.snd

end GatedLog.Table
