import Mathlib.Data.List.Basic

/-!
# Prefix-free codes

If no code is the beginning of another one, what was put in front of a text can be told from it
(`PrefixFree.append_inj`), and so can what was put around it (`PrefixFree.enclosed_inj`).
-/

namespace GatedLog

/-- No code is the beginning of another one. -/
def PrefixFree {α β : Type} (code : α → List β) : Prop := ∀ a b, code a <+: code b → a = b

/-- So a code can be taken off the front of a list in one way only. -/
theorem PrefixFree.append_inj {α β : Type} {code : α → List β} (h : PrefixFree code) {a b : α}
    {xs ys : List β} (heq : code a ++ xs = code b ++ ys) : a = b ∧ xs = ys := by
  have hab : a = b := by
    have hb : code b <+: code a ++ xs := ⟨ys, heq.symm⟩
    rcases List.prefix_or_prefix_of_prefix (List.prefix_append (code a) xs) hb with hp | hp
    · exact h a b hp
    · exact (h b a hp).symm
  subst hab
  exact ⟨rfl, List.append_cancel_left heq⟩

/-- What stands between two texts that belong together can be told from them. -/
theorem PrefixFree.enclosed_inj {α : Type} {opening closing : α → String}
    (h : PrefixFree fun a => (opening a).toList) {a b : α} {x y : String}
    (heq : opening a ++ x ++ closing a = opening b ++ y ++ closing b) : a = b ∧ x = y := by
  simp only [← String.toList_inj, String.toList_append, List.append_assoc] at heq ⊢
  obtain ⟨rfl, hrest⟩ := h.append_inj heq
  exact ⟨rfl, List.append_cancel_right hrest⟩

end GatedLog
