/-!
# UTF-8

The octets of a text, and a decoder that reads any octets: it holds at most one unfinished
character, and puts one replacement character for every longest piece that starts a character but
is not continued by one. Octets are well formed when they are the encoding of what they decode to.
-/

namespace GatedLog.Text.Utf8

/-- The encoding of a text. -/
def encode (s : String) : List UInt8 := s.toList.flatMap String.utf8EncodeChar

/-- What the decoder holds: nothing, or the start of a character whose next octet is bounded. -/
inductive Pending where
  | none
  | more (octets : Nat) (low high : UInt8) (value : Nat)
  deriving DecidableEq, Repr

/-- What stands for a piece that is no character. -/
def replacement : Char := '\uFFFD'

/-- Starts a character. -/
def start (b : UInt8) : List Char × Pending :=
  if b < 0x80 then ([Char.ofNat b.toNat], .none)
  else if 0xC2 ≤ b ∧ b ≤ 0xDF then ([], .more 1 0x80 0xBF (b.toNat - 0xC0))
  else if b = 0xE0 then ([], .more 2 0xA0 0xBF 0)
  else if b = 0xED then ([], .more 2 0x80 0x9F 0xD)
  else if 0xE1 ≤ b ∧ b ≤ 0xEF then ([], .more 2 0x80 0xBF (b.toNat - 0xE0))
  else if b = 0xF0 then ([], .more 3 0x90 0xBF 0)
  else if 0xF1 ≤ b ∧ b ≤ 0xF3 then ([], .more 3 0x80 0xBF (b.toNat - 0xF0))
  else if b = 0xF4 then ([], .more 3 0x80 0x8F 4)
  else ([replacement], .none)

/-- Reads one octet; one that cannot continue the pending character starts another. -/
def advance : Pending → UInt8 → List Char × Pending
  | .none, b => start b
  | .more k low high value, b =>
    if low ≤ b ∧ b ≤ high then
      let value := value * 64 + (b.toNat - 0x80)
      if k ≤ 1 then ([Char.ofNat value], .none) else ([], .more (k - 1) 0x80 0xBF value)
    else
      let next := start b
      (replacement :: next.1, next.2)

/-- Decodes octets after a pending start. -/
def decodeFrom : Pending → List UInt8 → List Char
  | .none, [] => []
  | .more .., [] => [replacement]
  | p, b :: bs =>
    let next := advance p b
    next.1 ++ decodeFrom next.2 bs

/-- Decodes any octets. -/
def decode (bs : List UInt8) : String := String.ofList (decodeFrom .none bs)

/-- Decodes well-formed octets. -/
def decode? (bs : List UInt8) : Option String :=
  if encode (decode bs) = bs then some (decode bs) else none

@[simp] theorem encode_empty : encode "" = [] := rfl

theorem encode_append (s t : String) : encode (s ++ t) = encode s ++ encode t := by
  simp [encode, String.toList_append]

/-- No octet of a character is below 128 but that of a character below 128. -/
theorem toNat_of_mem_utf8EncodeChar {c : Char} {b : UInt8} (hb : b ∈ String.utf8EncodeChar c)
    (hlow : b.toNat < 128) : String.utf8EncodeChar c = [b] ∧ b.toNat = c.val.toNat := by
  simp only [String.utf8EncodeChar] at hb ⊢
  generalize c.val.toNat = n at hb
  split at hb
  · next h =>
    obtain rfl := List.mem_singleton.mp hb
    rw [if_pos h]
    refine ⟨rfl, ?_⟩
    simp
    omega
  · -- every octet of a longer encoding has its highest bit set
    exfalso
    split at hb
    · simp only [List.mem_cons, List.not_mem_nil, or_false] at hb
      rcases hb with rfl | rfl <;> simp at hlow <;> omega
    · split at hb
      · simp only [List.mem_cons, List.not_mem_nil, or_false] at hb
        rcases hb with rfl | rfl | rfl <;> simp at hlow <;> omega
      · simp only [List.mem_cons, List.not_mem_nil, or_false] at hb
        rcases hb with rfl | rfl | rfl | rfl <;> simp at hlow <;> omega

theorem encode_of_decode? {bs : List UInt8} {s : String} (h : decode? bs = some s) : encode s = bs := by
  unfold decode? at h
  split at h
  · rename_i he
    obtain rfl := Option.some.inj h
    exact he
  · exact absurd h (by simp)

end GatedLog.Text.Utf8
