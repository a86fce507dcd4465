import GatedLog.Proofs.Mask
import GatedLog.Proofs.Reading.Literals

/-!
# Codes

An integer is tested for being a code, looked up, and converted, each in a way of its own: the test
of a component's code is word arithmetic, and that of a severity's a range. For every integer of 32
bits they agree (`codes_agree`). The test of a component subtracts only from positive integers, so
that it never overflows.
-/

namespace GatedLog

/-- A test, a look-up and a conversion treat an integer alike: as the code of something, or of
nothing. -/
structure AgreeOn {α : Type} (code : α → Int32) (test : Int32 → Bool) (find : Int32 → Option α)
    (convert : Int32 → Except Rejection α) (why : Int32 → Rejection) (n : Int32) : Prop where
  tested : test n = true ↔ ∃ a, code a = n
  found : ∀ a, find n = some a ↔ code a = n
  converted : ∀ a, convert n = .ok a ↔ code a = n
  missed : test n = false ↔ find n = none
  rejected : test n = false ↔ convert n = .error (why n)

/-- They agree if each finds what has the code, and the conversion fails where the look-up does. -/
theorem agreeOn_of_found {α : Type} {code : α → Int32} {test : Int32 → Bool}
    {find : Int32 → Option α} {convert : Int32 → Except Rejection α} {why : Int32 → Rejection}
    {n : Int32} (htest : test n = true ↔ ∃ a, code a = n) (hfind : ∀ a, find n = some a ↔ code a = n)
    (hok : ∀ a, convert n = .ok a ↔ code a = n) (herror : find n = none → convert n = .error (why n)) :
    AgreeOn code test find convert why n := by
  cases hn : find n with
  | some a =>
    have hcode := (hfind a).mp hn
    have htrue : test n = true := htest.mpr ⟨a, hcode⟩
    exact ⟨htest, hfind, hok, by simp [htrue, hn], by simp [htrue, (hok a).mpr hcode]⟩
  | none =>
    have hfalse : test n = false := by
      rw [← Bool.not_eq_true, htest, not_exists]
      intro a ha
      rw [← hfind a, hn] at ha
      cases ha
    exact ⟨htest, hfind, hok, by simp [hfalse, hn], by simp [hfalse, herror hn]⟩

/-! ### Words -/

/-- A word of which the next smaller one shares no bit is a power of two: if it has one of the five
lowest bits, it has no other. -/
theorem exists_two_pow_of_and_pred {x : Nat} (h : x &&& (x - 1) = 0) (hlow : x % 2 ^ 5 ≠ 0) :
    ∃ i < 5, x = 2 ^ i := by
  -- above the five bits, the two words are the same
  have hsame : (x - 1) / 2 ^ 5 = x / 2 ^ 5 := by omega
  have hhigh : x / 2 ^ 5 = 0 := by
    have hand := congrArg (· / 2 ^ 5) h
    simpa only [Nat.and_div_two_pow, hsame, Nat.and_self, Nat.zero_div] using hand
  have hfive : ∀ y < 32, y ≠ 0 → y &&& (y - 1) = 0 → ∃ i < 5, y = 2 ^ i := by decide
  exact hfive x (by omega) (by omega) h

/-- One less is the next smaller word, for a positive integer. -/
theorem and_pred_of_and_sub_one {n : Int32} (hpos : 0 < n) (h : n &&& (n - 1) = 0) :
    n.toBitVec.toNat &&& (n.toBitVec.toNat - 1) = 0 := by
  have hne : n.toBitVec.toNat ≠ 0 := fun h0 => by
    obtain rfl : n = 0 := Int32.toBitVec_inj.mp (BitVec.eq_of_toNat_eq h0)
    exact absurd hpos (by decide)
  have hpred : (n - 1).toBitVec.toNat = n.toBitVec.toNat - 1 := by
    rw [Int32.toBitVec_sub, BitVec.toNat_sub_of_le (Nat.one_le_iff_ne_zero.mpr hne)]
    rfl
  calc n.toBitVec.toNat &&& (n.toBitVec.toNat - 1)
    _ = (n &&& (n - 1)).toBitVec.toNat := by rw [Int32.toBitVec_and, BitVec.toNat_and, hpred]
    _ = 0 := by rw [h]; rfl

/-- A difference of two integers, unless it does not have 32 bits. -/
def subtract? (a b : Int32) : Option Int32 :=
  if a.toBitVec.ssubOverflow b.toBitVec then none else some (a - b)

theorem ssubOverflow_one_iff {n : Int32} :
    n.toBitVec.ssubOverflow (1 : Int32).toBitVec = true ↔ n = Int32.minValue := by
  have hone : (1 : Int32).toBitVec.toInt = 1 := by decide
  have hmin : Int32.minValue.toInt = -2 ^ 31 := by decide
  have hlow := n.le_toInt
  have hhigh := n.toInt_lt
  rw [BitVec.ssubOverflow, hone, Int32.toInt_toBitVec, ← Int32.toInt_inj, hmin]
  simp only [Bool.or_eq_true, decide_eq_true_eq]
  omega

/-- The integer in front of another one exists unless that is the smallest of all. -/
theorem subtract?_one_eq_none_iff {n : Int32} : subtract? n 1 = none ↔ n = Int32.minValue := by
  rw [← ssubOverflow_one_iff, subtract?]
  split
  · next h => exact iff_of_true rfl h
  · next h => exact iff_of_false (Option.some_ne_none _) h

theorem subtract?_one_of_pos {n : Int32} (h : 0 < n) : subtract? n 1 = some (n - 1) := by
  have hne : n ≠ Int32.minValue := by
    rintro rfl
    exact absurd h (by decide)
  rw [subtract?, if_neg (mt ssubOverflow_one_iff.mp hne)]

/-! ### Components -/

namespace Component

/-- Evaluates the test of a code from left to right, where a subtraction can fail. -/
def evaluate (minusOne : Int32 → Option Int32) (n : Int32) : Option Bool :=
  if 0 < n then (minusOne n).map fun k => n &&& k == 0 && n &&& allCodes != 0 else some false

/-- The component of a code, case by case. -/
def named? (n : Int32) : Option Component :=
  if n = 1 then some unknown
  else if n = 2 then some rpc
  else if n = 4 then some blockReader
  else if n = 8 then some fileHandle
  else if n = 16 then some fileSystem
  else none

theorem toNat_code (c : Component) : c.code.toBitVec.toNat = 2 ^ c.position := by
  cases c <;> decide

theorem isCode_code (c : Component) : isCode c.code = true := by cases c <;> decide

theorem and_allCodes_eq_zero_iff {n : Int32} :
    n &&& allCodes = 0 ↔ n.toBitVec.toNat % 2 ^ 5 = 0 := by
  have hmod : (n &&& allCodes).toBitVec.toNat = n.toBitVec.toNat % 2 ^ 5 := by
    rw [Int32.toBitVec_and, BitVec.toNat_and]
    exact Nat.and_two_pow_sub_one_eq_mod _ 5
  rw [← hmod, ← Int32.toBitVec_inj, ← BitVec.toNat_inj]
  rfl

/-- A positive integer with a single bit, which is a known one, is a code. -/
theorem isCode_iff {n : Int32} : isCode n = true ↔ ∃ c : Component, c.code = n := by
  constructor
  · intro h
    simp only [isCode, Bool.and_eq_true, decide_eq_true_eq, beq_iff_eq, bne_iff_ne] at h
    obtain ⟨⟨hpos, hsingle⟩, hknown⟩ := h
    have hlow := mt and_allCodes_eq_zero_iff.mpr hknown
    obtain ⟨i, hi, hx⟩ := exists_two_pow_of_and_pred (and_pred_of_and_sub_one hpos hsingle) hlow
    obtain ⟨c, rfl⟩ := exists_position i hi
    exact ⟨c, Int32.toBitVec_inj.mp (BitVec.eq_of_toNat_eq ((toNat_code c).trans hx.symm))⟩
  · rintro ⟨c, rfl⟩
    exact isCode_code c

theorem named?_eq_some {n : Int32} {c : Component} : named? n = some c ↔ c.code = n := by
  constructor
  · intro h
    unfold named? at h
    split_ifs at h <;> cases h <;> exact Eq.symm ‹_›
  · rintro rfl
    cases c <;> rfl

/-- The test may come first, and the cases after it. -/
theorem ofCode?_eq_tested (n : Int32) : ofCode? n = if isCode n then named? n else none := by
  ext c
  rw [Option.ite_none_right_eq_some, named?_eq_some, ofCode?_eq_some, isCode_iff]
  exact ⟨fun h => ⟨⟨c, h⟩, h⟩, And.right⟩

/-- The subtraction is reached only from positive integers, and has a result there. -/
theorem evaluate_subtract? (n : Int32) : evaluate (subtract? · 1) n = some (isCode n) := by
  by_cases h : 0 < n
  · rw [evaluate, if_pos h, subtract?_one_of_pos h, Option.map_some, isCode, decide_eq_true h,
      Bool.true_and]
  · rw [evaluate, if_neg h, isCode, decide_eq_false h, Bool.false_and, Bool.false_and]

end Component

/-! ### Severities -/

namespace Severity

theorem isCode_iff_range {n : Int32} : isCode n = true ↔ 0 ≤ n.toInt ∧ n.toInt ≤ 4 := by
  rw [isCode, Bool.and_eq_true, decide_eq_true_eq, decide_eq_true_eq, Int32.le_iff_toInt_le,
    Int32.le_iff_toInt_le]
  rfl

theorem isCode_iff {n : Int32} : isCode n = true ↔ ∃ s : Severity, s.code = n := by
  have hrange : isCode n = true ↔ ofCode? n ≠ none := by
    rw [isCode_iff_range, ne_eq, ofCode?_eq_none_iff]
    omega
  rw [hrange, Option.ne_none_iff_exists']
  simp only [ofCode?_eq_some]

end Severity

/-! ### Every integer -/

/-- How an integer of 32 bits is treated where a code is expected. -/
structure CodesAgree (n : Int32) : Prop where
  component : AgreeOn Component.code Component.isCode Component.ofCode? Component.ofCode
    .componentCode n
  severity : AgreeOn Severity.code Severity.isCode Severity.ofCode? Severity.ofCode .severityCode n
  /-- The bit of a component is its code as a word without a sign. -/
  bit : ∀ c : Component, c.code = n → c.bit = n.toUInt32
  /-- Where some component is wanted, it is the one of the code, or else the unknown one. -/
  fallback : ∀ c : Component, Component.ofCodeOrUnknown n = c ↔
    c.code = n ∨ c = .unknown ∧ Component.isCode n = false
  /-- The look-up can be put off until the test has succeeded. -/
  guarded : Component.ofCode? n = if Component.isCode n then Component.named? n else none
  /-- The test of a component evaluates without overflow, -/
  evaluated : Component.evaluate (subtract? · 1) n = some (Component.isCode n)
  /-- for it does not subtract unless the integer is positive, -/
  reached : ¬ 0 < n → ∀ minusOne, Component.evaluate minusOne n = some false
  /-- and the subtraction has a result for all integers but the smallest. -/
  overflow : subtract? n 1 = none ↔ n = Int32.minValue
  /-- The test of a severity is a range. -/
  range : Severity.isCode n = true ↔ 0 ≤ n.toInt ∧ n.toInt ≤ 4

theorem Component.ofCodeOrUnknown_eq_iff {n : Int32} {c : Component} : ofCodeOrUnknown n = c ↔
    c.code = n ∨ c = .unknown ∧ isCode n = false := by
  rw [ofCodeOrUnknown, ← Bool.not_eq_true, isCode_iff, ← ofCode?_eq_some]
  simp only [← ofCode?_eq_some]
  cases ofCode? n with
  | none => simp [eq_comm]
  | some d => simp

/-- **All ways to recognise a code agree**, on all integers of 32 bits. -/
theorem codes_agree (n : Int32) : CodesAgree n where
  component := agreeOn_of_found Component.isCode_iff (fun _ => Component.ofCode?_eq_some)
    (fun _ => Component.ofCode_eq_ok_iff) fun h => by rw [Component.ofCode, h]
  severity := agreeOn_of_found Severity.isCode_iff (fun _ => Severity.ofCode?_eq_some)
    (fun _ => Severity.ofCode_eq_ok_iff) fun h => by rw [Severity.ofCode, h]
  bit c hc := hc ▸ c.bit_eq_toUInt32
  fallback _ := Component.ofCodeOrUnknown_eq_iff
  guarded := Component.ofCode?_eq_tested n
  evaluated := Component.evaluate_subtract? n
  reached h _ := if_neg h
  overflow := subtract?_one_eq_none_iff
  range := Severity.isCode_iff_range

end GatedLog
