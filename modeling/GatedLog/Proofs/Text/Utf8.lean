import GatedLog.Text.Utf8

/-!
# Texts and their octets

The decoder undoes the encoding (`decode_encode`): after the octets of a character it is where it
was before them, and has put that character. So the octets that are well formed are the encodings of
texts, each of one text (`decode?_eq_some_iff`).
-/

namespace GatedLog.Text.Utf8

/-! ### First octets -/

theorem start_one {n : Nat} (h : n < 128) : start (UInt8.ofNat n) = ([Char.ofNat n], .none) := by
  have hmod : n % 256 = n := Nat.mod_eq_of_lt (by omega)
  have hlow : UInt8.ofNat n < 0x80 := by
    rw [UInt8.lt_iff_toNat_lt]
    simpa [hmod] using h
  simp [start, hlow, hmod]

theorem start_two : ∀ k < 32, 2 ≤ k →
    start (UInt8.ofNat (k + 192)) = ([], .more 1 0x80 0xBF k) := by
  decide

/-- After 0xE0 the next octet is bounded below, and after 0xED above: the first would spell a
character of two octets, the second a surrogate. -/
theorem start_three : ∀ k < 16, start (UInt8.ofNat (k + 224)) =
    ([], .more 2 (if k = 0 then 0xA0 else 0x80) (if k = 13 then 0x9F else 0xBF) k) := by
  decide

/-- After 0xF0 the next octet is bounded below, and after 0xF4 above: no character is larger. -/
theorem start_four : ∀ k < 5, start (UInt8.ofNat (k + 240)) =
    ([], .more 3 (if k = 0 then 0x90 else 0x80) (if k = 4 then 0x8F else 0xBF) k) := by
  decide

/-! ### Further octets -/

variable {k n j : Nat} {low high : UInt8}

/-- Six bits are in the bounds of an octet that continues any character. -/
theorem bounds_of_lt (hj : j < 64) : (0x80 : UInt8).toNat ≤ j + 128 ∧ j + 128 ≤ (0xBF : UInt8).toNat :=
  ⟨Nat.le_add_left .., Nat.add_le_add_right (Nat.le_of_lt_succ hj) 128⟩

theorem advance_more (hj : j < 64) (hb : low.toNat ≤ j + 128 ∧ j + 128 ≤ high.toNat) :
    advance (.more k low high n) (UInt8.ofNat (j + 128)) =
      if k ≤ 1 then ([Char.ofNat (n * 64 + j)], .none)
      else ([], .more (k - 1) 0x80 0xBF (n * 64 + j)) := by
  have hmod : (j + 128) % 256 = j + 128 := Nat.mod_eq_of_lt (by omega)
  have hnat : (UInt8.ofNat (j + 128)).toNat = j + 128 := by rw [UInt8.toNat_ofNat', hmod]
  have hbounds : low ≤ UInt8.ofNat (j + 128) ∧ UInt8.ofNat (j + 128) ≤ high := by
    rw [UInt8.le_iff_toNat_le, UInt8.le_iff_toNat_le, hnat]
    exact hb
  rw [advance, if_pos hbounds, hnat, Nat.add_sub_cancel]

theorem decodeFrom_last (hj : j < 64) (hb : low.toNat ≤ j + 128 ∧ j + 128 ≤ high.toNat)
    (bs : List UInt8) :
    decodeFrom (.more 1 low high n) (UInt8.ofNat (j + 128) :: bs) =
      Char.ofNat (n * 64 + j) :: decodeFrom .none bs := by
  rw [decodeFrom, advance_more hj hb]
  rfl

theorem decodeFrom_further (hj : j < 64) (hb : low.toNat ≤ j + 128 ∧ j + 128 ≤ high.toNat)
    (bs : List UInt8) :
    decodeFrom (.more (k + 2) low high n) (UInt8.ofNat (j + 128) :: bs) =
      decodeFrom (.more (k + 1) 0x80 0xBF (n * 64 + j)) bs := by
  rw [decodeFrom, advance_more hj hb, if_neg (by omega)]
  rfl

theorem decodeFrom_start {b : UInt8} {p : Pending} (h : start b = ([], p)) (bs : List UInt8) :
    decodeFrom .none (b :: bs) = decodeFrom p bs := by
  rw [decodeFrom, advance, h]
  rfl

/-! ### Characters and texts -/

/-- The octets of a character decode to it, whatever follows. -/
theorem decodeFrom_utf8EncodeChar (c : Char) (bs : List UInt8) :
    decodeFrom .none (String.utf8EncodeChar c ++ bs) = c :: decodeFrom .none bs := by
  have hc : Char.ofNat c.val.toNat = c := Char.ofNat_toNat c
  have hvalid : c.val.toNat < 0xD800 ∨ 0xDFFF < c.val.toNat ∧ c.val.toNat < 0x110000 := c.valid
  have hbits (m : Nat) : m % 64 < 64 := Nat.mod_lt m (by decide)
  unfold String.utf8EncodeChar
  generalize c.val.toNat = v at hc hvalid
  dsimp only
  by_cases h1 : v ≤ 127
  · rw [if_pos h1, List.singleton_append, decodeFrom, advance, start_one (by omega), hc]
    rfl
  rw [if_neg h1]
  by_cases h2 : v ≤ 2047
  · have hfirst : v / 64 % 32 = v / 64 := Nat.mod_eq_of_lt (by omega)
    have hv : v / 64 * 64 + v % 64 = v := by omega
    rw [if_pos h2, hfirst, List.cons_append, List.singleton_append,
      decodeFrom_start (start_two _ (by omega) (by omega)),
      decodeFrom_last (hbits _) (bounds_of_lt (hbits _)), hv, hc]
  rw [if_neg h2]
  by_cases h3 : v ≤ 65535
  · have hfirst : v / 4096 % 16 = v / 4096 := Nat.mod_eq_of_lt (by omega)
    have hv : (v / 4096 * 64 + v / 64 % 64) * 64 + v % 64 = v := by omega
    -- the bounds of the second octet: the character is neither small nor a surrogate
    have hsecond : (if v / 4096 = 0 then 0xA0 else 0x80 : UInt8).toNat ≤ v / 64 % 64 + 128 ∧
        v / 64 % 64 + 128 ≤ (if v / 4096 = 13 then 0x9F else 0xBF : UInt8).toNat := by
      constructor <;> split <;> simp <;> omega
    rw [if_pos h3, hfirst, List.cons_append, List.cons_append, List.singleton_append,
      decodeFrom_start (start_three _ (by omega)), decodeFrom_further (hbits _) hsecond,
      decodeFrom_last (hbits _) (bounds_of_lt (hbits _)), hv, hc]
  · have hfirst : v / 262144 % 8 = v / 262144 := Nat.mod_eq_of_lt (by omega)
    have hv : ((v / 262144 * 64 + v / 4096 % 64) * 64 + v / 64 % 64) * 64 + v % 64 = v := by omega
    have hsecond : (if v / 262144 = 0 then 0x90 else 0x80 : UInt8).toNat ≤ v / 4096 % 64 + 128 ∧
        v / 4096 % 64 + 128 ≤ (if v / 262144 = 4 then 0x8F else 0xBF : UInt8).toNat := by
      constructor <;> split <;> simp <;> omega
    rw [if_neg h3, hfirst, List.cons_append, List.cons_append, List.cons_append,
      List.singleton_append, decodeFrom_start (start_four _ (by omega)),
      decodeFrom_further (hbits _) hsecond, decodeFrom_further (hbits _) (bounds_of_lt (hbits _)),
      decodeFrom_last (hbits _) (bounds_of_lt (hbits _)), hv, hc]

theorem decodeFrom_flatMap (cs : List Char) :
    decodeFrom .none (cs.flatMap String.utf8EncodeChar) = cs := by
  induction cs with
  | nil => rfl
  | cons c cs ih => rw [List.flatMap_cons, decodeFrom_utf8EncodeChar, ih]

/-- The decoder undoes the encoding. -/
theorem decode_encode (s : String) : decode (encode s) = s := by
  rw [decode, encode, decodeFrom_flatMap, String.ofList_toList]

/-- Texts with the same octets are the same. -/
theorem encode_inj {s t : String} : encode s = encode t ↔ s = t := by
  constructor
  · intro h
    rw [← decode_encode s, h, decode_encode]
  · exact congrArg encode

/-- Octets are well formed for the text that they encode. -/
theorem decode?_eq_some_iff {bs : List UInt8} {s : String} : decode? bs = some s ↔ encode s = bs := by
  constructor
  · exact encode_of_decode?
  · rintro rfl
    rw [decode?, decode_encode, if_pos rfl]

/-- Octets are not well formed if they encode no text. -/
theorem decode?_eq_none_iff {bs : List UInt8} : decode? bs = none ↔ ∀ s, encode s ≠ bs := by
  rw [Option.eq_none_iff_forall_ne_some]
  simp only [ne_eq, decode?_eq_some_iff]

end GatedLog.Text.Utf8
