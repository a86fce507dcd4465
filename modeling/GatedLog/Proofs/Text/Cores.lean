import Mathlib.Data.List.Basic
import Mathlib.Data.List.Forall2
import GatedLog.Proofs.Environment

/-!
# Cores of texts

What is left of a text without its blank ends (`Core`), and texts that are equal but for the case of
their ASCII letters (`SameWord`). A text has one core (`core_iff`), and what is equal to ASCII
letters up to case consists of ASCII letters.
-/

namespace GatedLog.Text

/-! ### Blank ends -/

/-- A text with a blank at neither end. -/
def Tight (cs : List Char) : Prop :=
  (∀ c ∈ cs.head?, isBlank c = false) ∧ ∀ c ∈ cs.getLast?, isBlank c = false

/-- What is left of a text without its blank ends. -/
def Core (cs body : List Char) : Prop := Between cs body ∧ Tight body

/-- A text between two others. -/
def within (l body r : List Char) : String := String.ofList (l ++ body ++ r)

variable {cs ds body : List Char}

theorem dropWhile_of_head (h : ∀ c ∈ cs.head?, isBlank c = false) : cs.dropWhile isBlank = cs := by
  cases cs with
  | nil => rfl
  | cons c cs => rw [List.dropWhile_cons_of_neg (by simp [h c rfl])]

theorem trimEnd_of_getLast (h : ∀ c ∈ cs.getLast?, isBlank c = false) : trimEnd cs = cs := by
  rw [← List.head?_reverse] at h
  rw [trimEnd, dropWhile_of_head h, List.reverse_reverse]

theorem trim_of_tight (h : Tight cs) : trim cs = cs := by
  rw [trim, dropWhile_of_head h.1, trimEnd_of_getLast h.2]

theorem head_dropWhile (cs : List Char) : ∀ c ∈ (cs.dropWhile isBlank).head?, isBlank c = false := by
  intro c hc
  have hne : cs.dropWhile isBlank ≠ [] := by
    rintro he
    rw [he] at hc
    cases hc
  obtain rfl : (cs.dropWhile isBlank).head hne = c := by
    rw [List.head?_eq_some_head hne] at hc
    exact Option.some.inj hc
  simpa using List.head_dropWhile_not isBlank hne

theorem getLast_trimEnd (cs : List Char) : ∀ c ∈ (trimEnd cs).getLast?, isBlank c = false := by
  rw [trimEnd, List.getLast?_reverse]
  exact head_dropWhile cs.reverse

theorem tight_trim (cs : List Char) : Tight (trim cs) := by
  refine ⟨fun c hc => ?_, getLast_trimEnd _⟩
  -- what is trimmed at its end begins as before
  obtain ⟨r, hr⟩ : trimEnd (cs.dropWhile isBlank) <+: cs.dropWhile isBlank := by
    rw [trimEnd]
    exact List.reverse_suffix.mp (by simpa using List.dropWhile_suffix isBlank)
  refine head_dropWhile cs c ?_
  rw [← hr]
  exact List.mem_head?_append_of_mem_head? hc

/-- A text has one core. -/
theorem core_iff : Core cs body ↔ trim cs = body := by
  constructor
  · rintro ⟨⟨l, r, rfl, hl, hr⟩, htight⟩
    rw [trim_padded hl hr, trim_of_tight htight]
  · rintro rfl
    exact ⟨between_trim cs, tight_trim cs⟩

theorem core_trim (cs : List Char) : Core cs (trim cs) := core_iff.mpr rfl

/-! ### The case of letters -/

/-- An ASCII letter stands 32 places before its small form. -/
def Capital (c d : Char) : Prop := 97 ≤ d.toNat ∧ d.toNat ≤ 122 ∧ c.toNat + 32 = d.toNat

/-- The same character, or the same ASCII letter in the other case. -/
def SameLetter (c d : Char) : Prop := c = d ∨ Capital c d ∨ Capital d c

/-- The same text but for the case of its ASCII letters. -/
def SameWord (cs ds : List Char) : Prop := List.Forall₂ SameLetter cs ds

theorem toNat_toLower (c : Char) :
    c.toLower.toNat = if 65 ≤ c.toNat ∧ c.toNat ≤ 90 then c.toNat + 32 else c.toNat := by
  have hiff : (c.val ≥ 'A'.val ∧ c.val ≤ 'Z'.val) ↔ 65 ≤ c.toNat ∧ c.toNat ≤ 90 :=
    and_congr UInt32.le_iff_toNat_le UInt32.le_iff_toNat_le
  unfold Char.toLower
  split
  · next h =>
    rw [if_pos (hiff.mp h)]
    have hc : c.val.toNat ≤ 90 := (hiff.mp h).2
    change (c.val + ('a'.val - 'A'.val)).toNat = c.val.toNat + 32
    rw [UInt32.toNat_add, show ('a'.val - 'A'.val).toNat = 32 from rfl]
    omega
  · next h => rw [if_neg fun hc => h (hiff.mpr hc)]

theorem sameLetter_iff {c d : Char} : SameLetter c d ↔ c.toLower = d.toLower := by
  rw [SameLetter, Capital, Capital, ← Char.toNat_inj, ← Char.toNat_inj, toNat_toLower, toNat_toLower]
  split <;> split <;> omega

theorem sameWord_iff : SameWord cs ds ↔ cs.map Char.toLower = ds.map Char.toLower := by
  have heq : SameLetter = fun c d => c.toLower = d.toLower :=
    funext fun c => funext fun d => propext sameLetter_iff
  rw [← List.forall₂_eq_eq_eq, List.forall₂_map_left_iff, List.forall₂_map_right_iff, SameWord, heq]

theorem toLower_of_isLower {c : Char} (h : c.isLower = true) : c.toLower = c := by
  have hc := toNat_of_isLower h
  rw [← Char.toNat_inj, toNat_toLower, if_neg (by omega)]

theorem isBlank_toLower (c : Char) : isBlank c.toLower = isBlank c := by
  rw [Bool.eq_iff_iff]
  simp only [isBlank, toNat_toLower, Bool.or_eq_true, Bool.and_eq_true, decide_eq_true_eq, beq_iff_eq]
  split <;> omega

/-- Blank ends are the same in either case. -/
theorem map_toLower_trim (cs : List Char) :
    (trim cs).map Char.toLower = trim (cs.map Char.toLower) := by
  have hblank : isBlank ∘ Char.toLower = isBlank := funext isBlank_toLower
  simp only [trim, trimEnd, List.dropWhile_map, hblank, ← List.map_reverse]

/-- A text is a small word up to case if its small form is this word. -/
theorem sameWord_of_isLower (h : ∀ c ∈ ds, c.isLower = true) :
    SameWord cs ds ↔ cs.map Char.toLower = ds := by
  rw [sameWord_iff, List.map_congr_left fun c hc => toLower_of_isLower (h c hc), List.map_id']

/-- A text that is a small word up to case has no character but ASCII letters. -/
theorem SameWord.isLower (h : SameWord cs ds) (hds : ∀ c ∈ ds, c.isLower = true) :
    ∀ c ∈ cs, c.toLower.isLower = true := by
  intro c hc
  refine hds _ ?_
  rw [← (sameWord_of_isLower hds).mp h]
  exact List.mem_map_of_mem hc

theorem toNat_lt_of_isLower_toLower {c : Char} (h : c.toLower.isLower = true) : c.toNat < 128 := by
  have hn := toNat_of_isLower_toLower h
  omega

theorem toNat_lt_of_isDigit {c : Char} (h : c.isDigit = true) : c.toNat < 128 := by
  rw [Char.isDigit, Bool.and_eq_true, decide_eq_true_eq, decide_eq_true_eq] at h
  have hc : c.toNat ≤ 57 := UInt32.le_iff_toNat_le.mp h.2
  omega

end GatedLog.Text
