import Mathlib.Tactic.IntervalCases
import Mathlib.Data.List.Induction
import GatedLog.Text.Digits

/-!
# Numerals

Which texts are integer literals, and for which integers: a numeral in the ten ASCII digits, with at
most one sign in front of it. A literal is read as a 32-bit integer exactly if its integer is one
(`readInt32_eq_some_iff`), whatever its length.
-/

namespace GatedLog.Text

/-- One of the ten digits, and the number that it stands for. -/
def Digit (c : Char) (d : Nat) : Prop :=
  ['0', '1', '2', '3', '4', '5', '6', '7', '8', '9'][d]? = some c

theorem Digit.toNat_eq {c : Char} {d : Nat} (h : Digit c d) : c.toNat = 48 + d ∧ d < 10 := by
  have hd : d < 10 := (List.getElem?_eq_some_iff.mp h).1
  unfold Digit at h
  interval_cases d <;> cases h <;> decide

theorem Digit.isDigit {c : Char} {d : Nat} (h : Digit c d) : c.isDigit = true := by
  have hd : d < 10 := h.toNat_eq.2
  unfold Digit at h
  interval_cases d <;> cases h <;> rfl

theorem exists_digit {c : Char} (h : c.isDigit = true) : ∃ d, Digit c d := by
  simp only [Char.isDigit, Bool.and_eq_true, decide_eq_true_eq] at h
  have hlow : 48 ≤ c.toNat := UInt32.le_iff_toNat_le.mp h.1
  have hhigh : c.toNat ≤ 57 := UInt32.le_iff_toNat_le.mp h.2
  refine ⟨c.toNat - 48, ?_⟩
  have hc : Char.ofNat c.toNat = c := Char.ofNat_toNat c
  generalize c.toNat = n at hlow hhigh hc ⊢
  subst hc
  interval_cases n <;> rfl

/-- One or more digits, the last of which counts for the ones, and their number. -/
inductive Numeral : List Char → Nat → Prop
  | one {c : Char} {d : Nat} (h : Digit c d) : Numeral [c] d
  | more {cs : List Char} {n : Nat} {c : Char} {d : Nat} (h : Numeral cs n) (hd : Digit c d) :
    Numeral (cs ++ [c]) (10 * n + d)

/-- A numeral with at most one sign in front, and its integer. -/
inductive Literal : List Char → Int → Prop
  | plain {cs : List Char} {n : Nat} (h : Numeral cs n) : Literal cs n
  | plus {cs : List Char} {n : Nat} (h : Numeral cs n) : Literal ('+' :: cs) n
  | minus {cs : List Char} {n : Nat} (h : Numeral cs n) : Literal ('-' :: cs) (-n)

variable {cs : List Char} {n : Nat} {i j : Int}

/-! ### Digits -/

theorem numeral_ofDigitChars (hne : cs ≠ []) (h : ∀ c ∈ cs, c.isDigit = true) :
    Numeral cs (Nat.ofDigitChars 10 cs 0) := by
  -- on the list from its end, as the digits count
  induction cs using List.reverseRecOn with
  | nil => exact absurd rfl hne
  | append_singleton cs c ih =>
    obtain ⟨d, hd⟩ := exists_digit (h c (by simp))
    have hvalue : c.toNat - '0'.toNat = d := by
      rw [hd.toNat_eq.1]
      exact Nat.add_sub_cancel_left 48 d
    rw [Nat.ofDigitChars_append, Nat.ofDigitChars_cons, hvalue]
    by_cases hcs : cs = []
    · subst hcs
      simpa using Numeral.one hd
    · exact .more (ih hcs fun c hc => h c (List.mem_append_left _ hc)) hd

theorem Numeral.ne_nil (h : Numeral cs n) : cs ≠ [] := by
  cases h <;> simp

theorem Numeral.isDigit (h : Numeral cs n) : ∀ c ∈ cs, c.isDigit = true := by
  induction h with
  | one h => simpa using h.isDigit
  | more h hd ih => exact List.forall_mem_append.mpr ⟨ih, by simpa using hd.isDigit⟩

theorem Numeral.ofDigitChars_eq (h : Numeral cs n) : Nat.ofDigitChars 10 cs 0 = n := by
  induction h with
  | one h => simp [Nat.ofDigitChars_cons, h.toNat_eq.1]
  | more h hd ih => simp [Nat.ofDigitChars_append, Nat.ofDigitChars_cons, ih, hd.toNat_eq.1]

theorem readDigits_eq_some_iff : readDigits cs = some n ↔ Numeral cs n := by
  constructor
  · intro h
    unfold readDigits at h
    split at h
    · next hall =>
      cases h
      rw [Bool.and_eq_true, Bool.not_eq_true', List.isEmpty_eq_false_iff, List.all_eq_true] at hall
      exact numeral_ofDigitChars hall.1 hall.2
    · cases h
  · intro h
    have hall : (!cs.isEmpty && cs.all Char.isDigit) = true := by
      rw [Bool.and_eq_true, Bool.not_eq_true', List.isEmpty_eq_false_iff, List.all_eq_true]
      exact ⟨h.ne_nil, h.isDigit⟩
    rw [readDigits, if_pos hall, h.ofDigitChars_eq]

/-! ### Signs -/

theorem readInteger_minus (ds : List Char) :
    readInteger ('-' :: ds) = (readDigits ds).map fun n : Nat => -(n : Int) := by
  rw [readInteger]
  cases readDigits ds <;> rfl

theorem readInteger_plus (ds : List Char) :
    readInteger ('+' :: ds) = (readDigits ds).map fun n : Nat => (n : Int) := by
  rw [readInteger]
  cases readDigits ds <;> rfl

theorem readInteger_plain {ds : List Char} (hminus : ∀ cs, ds ≠ '-' :: cs)
    (hplus : ∀ cs, ds ≠ '+' :: cs) :
    readInteger ds = (readDigits ds).map fun n : Nat => (n : Int) := by
  rw [readInteger.eq_3 ds hminus hplus]
  cases readDigits ds <;> rfl

theorem Numeral.ne_cons (h : Numeral cs n) {c : Char} (hc : c.isDigit = false) (ds : List Char) :
    cs ≠ c :: ds := by
  rintro rfl
  have hdigit := h.isDigit c (List.mem_cons_self ..)
  rw [hc] at hdigit
  cases hdigit

theorem readInteger_eq_some_iff : readInteger cs = some i ↔ Literal cs i := by
  constructor
  · intro h
    by_cases hminus : ∃ ds, cs = '-' :: ds
    · obtain ⟨ds, rfl⟩ := hminus
      rw [readInteger_minus, Option.map_eq_some_iff] at h
      obtain ⟨n, hn, rfl⟩ := h
      exact .minus (readDigits_eq_some_iff.mp hn)
    · by_cases hplus : ∃ ds, cs = '+' :: ds
      · obtain ⟨ds, rfl⟩ := hplus
        rw [readInteger_plus, Option.map_eq_some_iff] at h
        obtain ⟨n, hn, rfl⟩ := h
        exact .plus (readDigits_eq_some_iff.mp hn)
      · rw [readInteger_plain (not_exists.mp hminus) (not_exists.mp hplus),
          Option.map_eq_some_iff] at h
        obtain ⟨n, hn, rfl⟩ := h
        exact .plain (readDigits_eq_some_iff.mp hn)
  · intro h
    cases h with
    | plain h =>
      rw [readInteger_plain (h.ne_cons rfl) (h.ne_cons rfl), readDigits_eq_some_iff.mpr h,
        Option.map_some]
    | plus h => rw [readInteger_plus, readDigits_eq_some_iff.mpr h, Option.map_some]
    | minus h => rw [readInteger_minus, readDigits_eq_some_iff.mpr h, Option.map_some]

/-- A text is a literal for one integer at most. -/
theorem Literal.unique (h : Literal cs i) (h' : Literal cs j) : i = j := by
  rw [← readInteger_eq_some_iff] at h h'
  exact Option.some.inj (h.symm.trans h')

theorem Literal.ne_nil (h : Literal cs i) : cs ≠ [] := by
  cases h with
  | plain h => exact h.ne_nil
  | plus h => exact List.cons_ne_nil _ _
  | minus h => exact List.cons_ne_nil _ _

/-- Every character of a literal is a digit or a sign. -/
theorem Literal.mem (h : Literal cs i) : ∀ c ∈ cs, c = '-' ∨ c = '+' ∨ c.isDigit = true := by
  intro c hc
  cases h with
  | plain h => exact .inr (.inr (h.isDigit c hc))
  | plus h =>
    rcases List.mem_cons.mp hc with rfl | hc
    · exact .inr (.inl rfl)
    · exact .inr (.inr (h.isDigit c hc))
  | minus h =>
    rcases List.mem_cons.mp hc with rfl | hc
    · exact .inl rfl
    · exact .inr (.inr (h.isDigit c hc))

/-! ### Literals of 32 bits -/

/-- A literal of 32 bits is read as the integer that it is. -/
theorem readInt32_eq_some_iff {n : Int32} : readInt32 cs = some n ↔ Literal cs n.toInt := by
  rw [readInt32, Option.bind_eq_some_iff]
  constructor
  · rintro ⟨i, hi, h⟩
    split at h
    · next hrange =>
      cases h
      rw [Int32.toInt_ofInt_of_le hrange.1 (Int.lt_of_le_sub_one hrange.2)]
      exact readInteger_eq_some_iff.mp hi
    · cases h
  · intro h
    refine ⟨n.toInt, readInteger_eq_some_iff.mpr h, ?_⟩
    rw [if_pos ⟨n.minValue_le_toInt, n.toInt_le⟩, n.ofInt_toInt]

/-- Nothing else is read: no text but a literal, and no literal of more bits. -/
theorem readInt32_eq_none_iff :
    readInt32 cs = none ↔ ∀ i, Literal cs i → i < -2 ^ 31 ∨ 2 ^ 31 ≤ i := by
  constructor
  · intro h i hi
    by_contra hrange
    rw [not_or, not_lt, not_le] at hrange
    have hread : readInt32 cs = some (Int32.ofInt i) := by
      rw [readInt32_eq_some_iff, Int32.toInt_ofInt_of_le hrange.1 hrange.2]
      exact hi
    rw [h] at hread
    cases hread
  · intro h
    cases hread : readInt32 cs with
    | none => rfl
    | some n =>
      have hlow := n.le_toInt
      have hhigh := n.toInt_lt
      have hn := h n.toInt (readInt32_eq_some_iff.mp hread)
      omega

end GatedLog.Text
