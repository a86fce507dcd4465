/-!
# Digits

Integers in decimal and words in hexadecimal notation, and the reading of integer literals: an
optional sign and one or more ASCII digits.
-/

namespace GatedLog.Text

/-- A natural number in decimal digits. -/
def decimalNat (n : Nat) : List Char := Nat.toDigits 10 n

/-- An integer in decimal digits, after a minus sign if it is negative. -/
def decimal : Int → List Char
  | .ofNat n => decimalNat n
  | .negSucc n => '-' :: decimalNat (n + 1)

/-- A natural number in lower-case hexadecimal digits. -/
def hexadecimal (n : Nat) : List Char := Nat.toDigits 16 n

/-- Zeros in front make a text at least `width` long. -/
def padZeros (width : Nat) (cs : List Char) : List Char := List.replicate (width - cs.length) '0' ++ cs

/-- An address: `0x` and sixteen hexadecimal digits. -/
def address (a : UInt64) : List Char := '0' :: 'x' :: padZeros 16 (hexadecimal a.toNat)

/-- Reads one or more decimal digits. -/
def readDigits (cs : List Char) : Option Nat :=
  if !cs.isEmpty && cs.all Char.isDigit then some (Nat.ofDigitChars 10 cs 0) else none

/-- Reads an integer literal. -/
def readInteger : List Char → Option Int
  | '-' :: ds => (readDigits ds).map fun n => -(n : Int)
  | '+' :: ds => (readDigits ds).map fun n => (n : Int)
  | ds => (readDigits ds).map fun n => (n : Int)

/-- Reads an integer literal whose value has 32 bits. -/
def readInt32 (cs : List Char) : Option Int32 :=
  (readInteger cs).bind fun n =>
    if Int32.minValue.toInt ≤ n ∧ n ≤ Int32.maxValue.toInt then some (Int32.ofInt n) else none

/-- The value of a hexadecimal digit of either case. -/
def hexValue? (c : Char) : Option Nat :=
  if '0' ≤ c ∧ c ≤ '9' then some (c.toNat - 48)
  else if 'a' ≤ c ∧ c ≤ 'f' then some (c.toNat - 87)
  else if 'A' ≤ c ∧ c ≤ 'F' then some (c.toNat - 55)
  else none

theorem readDigits_decimalNat (n : Nat) : readDigits (decimalNat n) = some n := by
  have hne : Nat.toDigits 10 n ≠ [] := Nat.toDigits_ne_nil
  have hall : (Nat.toDigits 10 n).all Char.isDigit = true :=
    List.all_eq_true.2 fun c hc => Nat.isDigit_of_mem_toDigits (by decide) (by decide) hc
  have hval : Nat.ofDigitChars 10 (Nat.toDigits 10 n) 0 = n :=
    Nat.ofDigitChars_toDigits (by decide) (by decide)
  simp [readDigits, decimalNat, hne, hall, hval]

theorem length_padZeros {width : Nat} {cs : List Char} (h : cs.length ≤ width) :
    (padZeros width cs).length = width := by
  simp [padZeros]
  omega

end GatedLog.Text
