import Mathlib.Tactic.IntervalCases
import GatedLog.Proofs.Text.Numerals

/-!
# Positional notation

Numbers are spelled in figures, in any base up to sixteen. Whatever spells a number is its plain
spelling with zeros in front (`spells_iff`), so that the plain one is shorter than any other
(`shortest_toDigits`), and spellings of one length are the same for the same number
(`Spells.eq_of_length`). Among the literals of an integer the one without a plus and without zeros in
front is shorter than any other, too (`shortest_decimal`).
-/

namespace GatedLog.Text

/-- One of the figures of a base, letters being lower case, and the number that it stands for. -/
def Figure (b : Nat) (c : Char) (d : Nat) : Prop :=
  d < b ∧
    ['0', '1', '2', '3', '4', '5', '6', '7', '8', '9', 'a', 'b', 'c', 'd', 'e', 'f'][d]? = some c

/-- One or more figures of a base, the last of which counts for the ones, and their number. -/
inductive Spells (b : Nat) : List Char → Nat → Prop
  | one {c : Char} {d : Nat} (h : Figure b c d) : Spells b [c] d
  | more {cs : List Char} {n : Nat} {c : Char} {d : Nat} (h : Spells b cs n) (hd : Figure b c d) :
    Spells b (cs ++ [c]) (b * n + d)

/-- No zero stands in front of another figure. -/
def Trimmed (cs : List Char) : Prop := ∀ ds, cs = '0' :: ds → ds = []

/-- Of all that stands for the same, the shortest, and no other is as short. -/
def Shortest {α : Type} (StandsFor : List Char → α → Prop) (cs : List Char) (a : α) : Prop :=
  StandsFor cs a ∧ ∀ ds, StandsFor ds a → ds ≠ cs → cs.length < ds.length

/-- Reads one or more hexadecimal digits, of either case. -/
def readHexadecimal (cs : List Char) : Option Nat :=
  if cs = [] then none else cs.foldlM (fun n c => (hexValue? c).map fun d => 16 * n + d) 0

variable {b d n : Nat} {c : Char} {cs ds : List Char}

/-! ### Figures -/

theorem Figure.eq_of_number {c' : Char} (h : Figure b c d) (h' : Figure b c' d) : c = c' :=
  Option.some.inj (h.2.symm.trans h'.2)

theorem figure_digitChar (hb : b ≤ 16) (hd : d < b) : Figure b d.digitChar d := by
  have hlt : d < 16 := Nat.lt_of_lt_of_le hd hb
  refine ⟨hd, ?_⟩
  interval_cases d <;> rfl

theorem Figure.eq_digitChar (hb : b ≤ 16) (h : Figure b c d) : c = d.digitChar :=
  h.eq_of_number (figure_digitChar hb h.1)

theorem figure_zero (hb : 1 < b) : Figure b '0' 0 := ⟨Nat.lt_of_succ_lt hb, rfl⟩

/-- The digits of decimal numerals are the figures of base ten. -/
theorem digit_iff_figure : Digit c d ↔ Figure 10 c d := by
  constructor
  · intro h
    have hd : d < 10 := h.toNat_eq.2
    refine ⟨hd, ?_⟩
    unfold Digit at h
    interval_cases d <;> exact h
  · rintro ⟨hd, h⟩
    unfold Digit
    interval_cases d <;> exact h

theorem Figure.hexValue?_eq (h : Figure 16 c d) : hexValue? c = some d := by
  obtain ⟨hd, h⟩ := h
  interval_cases d <;> cases h <;> rfl

/-! ### Spellings -/

theorem spells_zeros (hb : 1 < b) (k : Nat) : Spells b (List.replicate (k + 1) '0') 0 := by
  induction k with
  | zero => exact .one (figure_zero hb)
  | succ k ih =>
    rw [List.replicate_succ']
    exact .more ih (figure_zero hb)

namespace Spells

/-- Zeros in front do not count. -/
theorem zeros (hb : 1 < b) (h : Spells b cs n) (k : Nat) :
    Spells b (List.replicate k '0' ++ cs) n := by
  induction h with
  | @one c d h =>
    cases k with
    | zero => exact .one h
    | succ k =>
      have hvalue : b * 0 + d = d := by rw [Nat.mul_zero, Nat.zero_add]
      exact hvalue ▸ .more (spells_zeros hb k) h
  | more h hd ih =>
    rw [← List.append_assoc]
    exact .more ih hd

theorem exists_zeros (hb : 1 < b) (hb' : b ≤ 16) (h : Spells b cs n) :
    ∃ k, cs = List.replicate k '0' ++ Nat.toDigits b n := by
  induction h with
  | one h => exact ⟨0, by rw [Nat.toDigits_of_lt_base h.1, h.eq_digitChar hb']; rfl⟩
  | @more cs n c d h hd ih =>
    obtain ⟨k, rfl⟩ := ih
    have hlast : [c] = Nat.toDigits b d := by
      rw [Nat.toDigits_of_lt_base hd.1, hd.eq_digitChar hb']
    rcases Nat.eq_zero_or_pos n with rfl | hn
    · -- a zero has been all so far, and now stands in front
      refine ⟨k + 1, ?_⟩
      rw [Nat.toDigits_zero, ← List.replicate_succ', hlast, Nat.mul_zero, Nat.zero_add]
    · exact ⟨k, by rw [List.append_assoc, hlast, Nat.toDigits_append_toDigits hb hn hd.1]⟩

end Spells

theorem spells_toDigits (hb : 1 < b) (hb' : b ≤ 16) (n : Nat) : Spells b (Nat.toDigits b n) n := by
  induction n using Nat.strong_induction_on with
  | _ n ih =>
    rw [Nat.toDigits_eq_if hb]
    split
    · next hn => exact .one (figure_digitChar hb' hn)
    · next hn =>
      have hfewer : n / b < n := Nat.div_lt_self (by omega) hb
      have hlast : n % b < b := Nat.mod_lt n (by omega)
      have hmore := Spells.more (ih (n / b) hfewer) (figure_digitChar hb' hlast)
      rwa [Nat.div_add_mod] at hmore

/-- A number has one spelling, apart from zeros in front. -/
theorem spells_iff (hb : 1 < b) (hb' : b ≤ 16) :
    Spells b cs n ↔ ∃ k, cs = List.replicate k '0' ++ Nat.toDigits b n := by
  constructor
  · exact Spells.exists_zeros hb hb'
  · rintro ⟨k, rfl⟩
    exact (spells_toDigits hb hb' n).zeros hb k

theorem eq_zero_of_toDigits_eq (hb : 1 < b) (h : Nat.toDigits b n = ['0']) : n = 0 := by
  have hlength : (Nat.toDigits b n).length ≤ 1 := by rw [h]; exact Nat.le_refl 1
  have hn : n < b := by simpa using (Nat.length_toDigits_le_iff hb Nat.one_pos).mp hlength
  rw [Nat.toDigits_of_lt_base hn] at h
  exact Nat.digitChar_eq_zero.mp (List.cons_eq_cons.mp h).1

theorem trimmed_toDigits (hb : 1 < b) (n : Nat) : Trimmed (Nat.toDigits b n) := by
  induction n using Nat.strong_induction_on with
  | _ n ih =>
    intro ds hds
    rw [Nat.toDigits_eq_if hb] at hds
    split at hds
    · exact (List.cons_eq_cons.mp hds).2.symm
    · next hn =>
      have hpos : 0 < n / b := Nat.div_pos (by omega) (by omega)
      rcases List.append_eq_cons_iff.mp hds with ⟨hnil, -⟩ | ⟨es, hes, -⟩
      · exact absurd hnil Nat.toDigits_ne_nil
      · obtain rfl := ih (n / b) (Nat.div_lt_self (by omega) hb) es hes
        exact absurd (eq_zero_of_toDigits_eq hb hes) (Nat.ne_of_gt hpos)

theorem shortest_toDigits (hb : 1 < b) (hb' : b ≤ 16) (n : Nat) :
    Shortest (Spells b) (Nat.toDigits b n) n := by
  refine ⟨spells_toDigits hb hb' n, fun ds h hne => ?_⟩
  obtain ⟨k, rfl⟩ := (spells_iff hb hb').mp h
  cases k with
  | zero => exact absurd rfl hne
  | succ k =>
    rw [List.length_append, List.length_replicate]
    omega

/-- As many figures for the same number are the same figures. -/
theorem Spells.eq_of_length (hb : 1 < b) (hb' : b ≤ 16) (h : Spells b cs n) (h' : Spells b ds n)
    (hlength : cs.length = ds.length) : cs = ds := by
  obtain ⟨j, rfl⟩ := (spells_iff hb hb').mp h
  obtain ⟨k, rfl⟩ := (spells_iff hb hb').mp h'
  simp only [List.length_append, List.length_replicate, Nat.add_right_cancel_iff] at hlength
  rw [hlength]

/-- What is spelled in hexadecimal is read back. -/
theorem Spells.readHexadecimal_eq (h : Spells 16 cs n) : readHexadecimal cs = some n := by
  have hfold : cs ≠ [] ∧
      cs.foldlM (fun n c => (hexValue? c).map fun d => 16 * n + d) 0 = some n := by
    induction h with
    | one h => simp [h.hexValue?_eq]
    | more h hd ih => simp [List.foldlM_append, ih.2, hd.hexValue?_eq]
  rw [readHexadecimal, if_neg hfold.1, hfold.2]

theorem readHexadecimal_hexadecimal (n : Nat) : readHexadecimal (hexadecimal n) = some n :=
  (spells_toDigits (by decide) (by decide) n).readHexadecimal_eq

theorem hexadecimal_injective : Function.Injective hexadecimal := by
  intro m n h
  have hread := readHexadecimal_hexadecimal m
  rw [h, readHexadecimal_hexadecimal] at hread
  exact (Option.some.inj hread).symm

/-! ### Integers -/

theorem numeral_iff_spells : Numeral cs n ↔ Spells 10 cs n := by
  constructor
  · intro h
    induction h with
    | one h => exact .one (digit_iff_figure.mp h)
    | more h hd ih => exact .more ih (digit_iff_figure.mp hd)
  · intro h
    induction h with
    | one h => exact .one (digit_iff_figure.mpr h)
    | more h hd ih => exact .more ih (digit_iff_figure.mpr hd)

/-- Zeros in front of a numeral do not count. -/
theorem Numeral.zeros (h : Numeral cs n) (k : Nat) : Numeral (List.replicate k '0' ++ cs) n :=
  numeral_iff_spells.mpr ((numeral_iff_spells.mp h).zeros (by decide) k)

theorem shortest_decimalNat (n : Nat) : Shortest Numeral (decimalNat n) n := by
  obtain ⟨h, hshort⟩ := shortest_toDigits (b := 10) (by decide) (by decide) n
  exact ⟨numeral_iff_spells.mpr h, fun ds hds => hshort ds (numeral_iff_spells.mp hds)⟩

/-- A numeral is as long as the plain one at least. -/
theorem Numeral.length_le (h : Numeral cs n) : (decimalNat n).length ≤ cs.length := by
  by_cases hcs : cs = decimalNat n
  · rw [hcs]
  · exact Nat.le_of_lt ((shortest_decimalNat n).2 cs h hcs)

theorem decimal_neg (hn : 0 < n) : decimal (-(n : Int)) = '-' :: decimalNat n := by
  obtain ⟨m, rfl⟩ := Nat.exists_eq_add_of_lt hn
  rw [Nat.zero_add]
  rfl

theorem literal_decimal (i : Int) : Literal (decimal i) i := by
  cases i with
  | ofNat n => exact .plain (shortest_decimalNat n).1
  | negSucc n => exact .minus (shortest_decimalNat (n + 1)).1

theorem decimal_injective : Function.Injective decimal := fun i j h =>
  (literal_decimal i).unique (h ▸ literal_decimal j)

/-- An integer is written as short as can be. -/
theorem shortest_decimal (i : Int) : Shortest Literal (decimal i) i := by
  refine ⟨literal_decimal i, fun ds h hne => ?_⟩
  cases h with
  | plain h => exact (shortest_decimalNat _).2 ds h hne
  | plus h => exact Nat.lt_succ_of_le h.length_le
  | @minus cs n h =>
    rcases Nat.eq_zero_or_pos n with rfl | hn
    · exact Nat.lt_succ_of_le h.length_le
    · rw [decimal_neg hn] at hne ⊢
      have hdigits := (shortest_decimalNat n).2 cs h fun he => hne (he ▸ rfl)
      exact Nat.succ_lt_succ hdigits

end GatedLog.Text
