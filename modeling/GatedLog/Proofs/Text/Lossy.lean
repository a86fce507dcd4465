import GatedLog.Proofs.Text.Utf8

/-!
# Octets that are no text

What the decoder makes of octets that encode no text: it keeps every character, and replaces every
longest piece that is none, the start of a character that is not continued, or an octet that starts
none (`decodeFrom_eq_iff`). That a piece is as long as can be is said without the decoder, by the
encodings of all characters. The decoder knows it from the bounds of the next octet: whatever is
within them goes on to some character (`Holds.exists_char`).
-/

namespace GatedLog.Text.Utf8

/-! ### The rule -/

/-- The octets are the first ones of some character. -/
def Begins (bs : List UInt8) : Prop := ∃ c, bs <+: String.utf8EncodeChar c

/-- A piece of octets that is no character, as long as can be with what follows it. -/
inductive Piece : List UInt8 → List UInt8 → Prop
  /-- A character is begun and not continued. -/
  | unfinished {p rest : List UInt8} (hp : p ≠ []) (hb : Begins p)
    (hc : ∀ c, p ≠ String.utf8EncodeChar c) (hrest : ∀ b ∈ rest.head?, ¬ Begins (p ++ [b])) :
    Piece p rest
  /-- No character begins like this. -/
  | stray {b : UInt8} (hb : ¬ Begins [b]) (rest : List UInt8) : Piece [b] rest

/-- The characters are kept, and the pieces replaced. -/
inductive Decodes : List UInt8 → List Char → Prop
  | nil : Decodes [] []
  | char (c : Char) {bs : List UInt8} {cs : List Char} (h : Decodes bs cs) :
    Decodes (String.utf8EncodeChar c ++ bs) (c :: cs)
  | piece {p bs : List UInt8} {cs : List Char} (hp : Piece p bs) (h : Decodes bs cs) :
    Decodes (p ++ bs) (replacement :: cs)

/-! ### Octets that spell a character -/

section Spelling

variable {j₁ j₂ j₃ k : Nat}

theorem toNat_ofNat {n : Nat} (h : n.isValidChar) : (Char.ofNat n).val.toNat = n := by
  rw [Char.ofNat, dif_pos h]
  rfl

theorem utf8EncodeChar_one (hk : k < 128) :
    String.utf8EncodeChar (Char.ofNat k) = [UInt8.ofNat k] := by
  rw [String.utf8EncodeChar, toNat_ofNat (.inl (by omega))]
  exact if_pos (by omega)

theorem utf8EncodeChar_two (hk : k < 32) (hlow : 2 ≤ k) (h₁ : j₁ < 64) :
    String.utf8EncodeChar (Char.ofNat (k * 64 + j₁)) =
      [UInt8.ofNat (k + 192), UInt8.ofNat (j₁ + 128)] := by
  have hfirst : (k * 64 + j₁) / 64 % 32 = k := by omega
  have hlast : (k * 64 + j₁) % 64 = j₁ := by omega
  rw [String.utf8EncodeChar, toNat_ofNat (.inl (by omega))]
  rw [if_neg (by omega), if_pos (by omega), hfirst, hlast]

/-- The second octet keeps clear of the characters of two octets and of the surrogates. -/
theorem utf8EncodeChar_three (hk : k < 16) (h₁ : j₁ < 64) (h₂ : j₂ < 64) (hlow : k = 0 → 32 ≤ j₁)
    (hhigh : k = 13 → j₁ < 32) :
    String.utf8EncodeChar (Char.ofNat ((k * 64 + j₁) * 64 + j₂)) =
      [UInt8.ofNat (k + 224), UInt8.ofNat (j₁ + 128), UInt8.ofNat (j₂ + 128)] := by
  have hvalid : ((k * 64 + j₁) * 64 + j₂).isValidChar := by
    show _ < 0xD800 ∨ 0xDFFF < _ ∧ _ < 0x110000
    omega
  have hfirst : ((k * 64 + j₁) * 64 + j₂) / 4096 % 16 = k := by omega
  have hsecond : ((k * 64 + j₁) * 64 + j₂) / 64 % 64 = j₁ := by omega
  have hlast : ((k * 64 + j₁) * 64 + j₂) % 64 = j₂ := by omega
  rw [String.utf8EncodeChar, toNat_ofNat hvalid]
  rw [if_neg (by omega), if_neg (by omega), if_pos (by omega), hfirst, hsecond, hlast]

/-- The second octet keeps clear of the characters of three octets and of what is no character. -/
theorem utf8EncodeChar_four (hk : k < 5) (h₁ : j₁ < 64) (h₂ : j₂ < 64) (h₃ : j₃ < 64)
    (hlow : k = 0 → 16 ≤ j₁) (hhigh : k = 4 → j₁ < 16) :
    String.utf8EncodeChar (Char.ofNat (((k * 64 + j₁) * 64 + j₂) * 64 + j₃)) =
      [UInt8.ofNat (k + 240), UInt8.ofNat (j₁ + 128), UInt8.ofNat (j₂ + 128),
        UInt8.ofNat (j₃ + 128)] := by
  have hvalid : (((k * 64 + j₁) * 64 + j₂) * 64 + j₃).isValidChar := by
    show _ < 0xD800 ∨ 0xDFFF < _ ∧ _ < 0x110000
    omega
  have hfirst : (((k * 64 + j₁) * 64 + j₂) * 64 + j₃) / 262144 % 8 = k := by omega
  have hsecond : (((k * 64 + j₁) * 64 + j₂) * 64 + j₃) / 4096 % 64 = j₁ := by omega
  have hthird : (((k * 64 + j₁) * 64 + j₂) * 64 + j₃) / 64 % 64 = j₂ := by omega
  have hlast : (((k * 64 + j₁) * 64 + j₂) * 64 + j₃) % 64 = j₃ := by omega
  rw [String.utf8EncodeChar, toNat_ofNat hvalid]
  rw [if_neg (by omega), if_neg (by omega), if_neg (by omega), hfirst, hsecond, hthird, hlast]

end Spelling

/-! ### First octets -/

/-- The octet starts a character of several octets, of which the decoder holds this. -/
inductive Opens : UInt8 → Pending → Prop
  | two {k : Nat} (hk : k < 32) (hlow : 2 ≤ k) : Opens (UInt8.ofNat (k + 192)) (.more 1 0x80 0xBF k)
  | three {k : Nat} (hk : k < 16) : Opens (UInt8.ofNat (k + 224))
    (.more 2 (if k = 0 then 0xA0 else 0x80) (if k = 13 then 0x9F else 0xBF) k)
  | four {k : Nat} (hk : k < 5) : Opens (UInt8.ofNat (k + 240))
    (.more 3 (if k = 0 then 0x90 else 0x80) (if k = 4 then 0x8F else 0xBF) k)

theorem Opens.start_eq {b : UInt8} {p : Pending} (h : Opens b p) : start b = ([], p) := by
  cases h with
  | two hk hlow => exact start_two _ hk hlow
  | three hk => exact start_three _ hk
  | four hk => exact start_four _ hk

/-- Something is held, and there is an octet that continues it. -/
theorem Opens.exists_more {b : UInt8} {p : Pending} (h : Opens b p) :
    ∃ k low high v, p = .more k low high v ∧ low ≤ high := by
  cases h with
  | two hk hlow => exact ⟨_, _, _, _, rfl, by decide⟩
  | @three k hk =>
    refine ⟨_, _, _, _, rfl, ?_⟩
    by_cases h0 : k = 0
    · rw [if_pos h0, if_neg (by omega)]
      decide
    · rw [if_neg h0]
      split <;> decide
  | @four k hk =>
    refine ⟨_, _, _, _, rfl, ?_⟩
    by_cases h0 : k = 0
    · rw [if_pos h0, if_neg (by omega)]
      decide
    · rw [if_neg h0]
      split <;> decide

/-- These octets continue a character, or would start one of two octets for what needs only one. -/
theorem start_stray_low : ∀ k < 66, start (UInt8.ofNat (k + 128)) = ([replacement], .none) := by
  decide +kernel

/-- These octets would start characters that are too large. -/
theorem start_stray_high : ∀ k < 11, start (UInt8.ofNat (k + 245)) = ([replacement], .none) := by
  decide

/-- An octet is a character, starts one, or does neither. -/
theorem first_cases (b : UInt8) :
    (∃ c, String.utf8EncodeChar c = [b] ∧ start b = ([c], .none)) ∨ (∃ p, Opens b p) ∨
      start b = ([replacement], .none) := by
  have hb : ∀ k, k ≤ b.toNat → b = UInt8.ofNat (b.toNat - k + k) := by
    intro k hk
    rw [Nat.sub_add_cancel hk, UInt8.ofNat_toNat]
  have hlt : b.toNat < 256 := b.toNat_lt
  by_cases h1 : b.toNat < 128
  · refine .inl ⟨Char.ofNat b.toNat, ?_, ?_⟩
    · rw [utf8EncodeChar_one h1, UInt8.ofNat_toNat]
    · rw [← start_one h1, UInt8.ofNat_toNat]
  by_cases h2 : b.toNat < 194
  · refine .inr (.inr ?_)
    rw [hb 128 (by omega)]
    exact start_stray_low _ (by omega)
  by_cases h3 : b.toNat < 224
  · have h := Opens.two (k := b.toNat - 192) (by omega) (by omega)
    rw [← hb 192 (by omega)] at h
    exact .inr (.inl ⟨_, h⟩)
  by_cases h4 : b.toNat < 240
  · have h := Opens.three (k := b.toNat - 224) (by omega)
    rw [← hb 224 (by omega)] at h
    exact .inr (.inl ⟨_, h⟩)
  by_cases h5 : b.toNat < 245
  · have h := Opens.four (k := b.toNat - 240) (by omega)
    rw [← hb 240 (by omega)] at h
    exact .inr (.inl ⟨_, h⟩)
  · refine .inr (.inr ?_)
    rw [hb 245 (by omega)]
    exact start_stray_high _ (by omega)

theorem opens_of_start {b : UInt8} {p : Pending} (h : start b = ([], p)) : Opens b p := by
  obtain ⟨c, -, hc⟩ | ⟨q, hq⟩ | hstray := first_cases b
  · rw [hc] at h
    cases h
  · rw [hq.start_eq] at h
    cases h
    exact hq
  · rw [hstray] at h
    cases h

/-! ### Octets that complete a character -/

/-- The octets complete the character that the decoder holds: each is within the bounds. -/
inductive Completes : Pending → List UInt8 → Prop
  | last {k v : Nat} {low high b : UInt8} (hk : k ≤ 1) (hb : low ≤ b ∧ b ≤ high) :
    Completes (.more k low high v) [b]
  | further {k v : Nat} {low high b : UInt8} {bs : List UInt8} (hk : 1 < k) (hb : low ≤ b ∧ b ≤ high)
    (h : Completes (.more (k - 1) 0x80 0xBF (v * 64 + (b.toNat - 0x80))) bs) :
    Completes (.more k low high v) (b :: bs)

/-- An octet within the bounds can be gone on from. -/
theorem exists_completion (k v : Nat) {low high b : UInt8} (hb : low ≤ b ∧ b ≤ high) :
    ∃ bs, Completes (.more k low high v) (b :: bs) := by
  induction k generalizing v low high b with
  | zero => exact ⟨[], .last (by omega) hb⟩
  | succ k ih =>
    by_cases hk : k + 1 ≤ 1
    · exact ⟨[], .last hk hb⟩
    · have hlowest : (0x80 : UInt8) ≤ 0x80 ∧ (0x80 : UInt8) ≤ 0xBF := by decide
      obtain ⟨bs, hbs⟩ := ih (v * 64 + (b.toNat - 0x80)) hlowest
      exact ⟨_, .further (by omega) hb hbs⟩

/-- An octet between bounds that continue a character holds six bits. -/
theorem exists_bits {low high b : UInt8} (hb : low ≤ b ∧ b ≤ high) (hlow : 0x80 ≤ low)
    (hhigh : high ≤ 0xBF) :
    ∃ j < 64, b = UInt8.ofNat (j + 128) ∧ low.toNat ≤ j + 128 ∧ j + 128 ≤ high.toNat := by
  rw [UInt8.le_iff_toNat_le] at hlow hhigh
  rw [UInt8.le_iff_toNat_le, UInt8.le_iff_toNat_le] at hb
  have h1 : (0x80 : UInt8).toNat = 128 := rfl
  have h2 : (0xBF : UInt8).toNat = 191 := rfl
  have hnat : b.toNat - 128 + 128 = b.toNat := by omega
  refine ⟨b.toNat - 128, by omega, ?_, by omega, by omega⟩
  rw [hnat, UInt8.ofNat_toNat]

section Bits

variable {k v : Nat} {low high : UInt8} {bs : List UInt8}

theorem Completes.of_last (h : Completes (.more 1 low high v) bs) (hlow : 0x80 ≤ low)
    (hhigh : high ≤ 0xBF) :
    ∃ j < 64, bs = [UInt8.ofNat (j + 128)] ∧ low.toNat ≤ j + 128 ∧ j + 128 ≤ high.toNat := by
  cases h with
  | last hk hb =>
    obtain ⟨j, hj, rfl, hbounds⟩ := exists_bits hb hlow hhigh
    exact ⟨j, hj, rfl, hbounds⟩
  | further hk hb h => exact absurd hk (by omega)

theorem Completes.of_further (h : Completes (.more (k + 2) low high v) bs) (hlow : 0x80 ≤ low)
    (hhigh : high ≤ 0xBF) :
    ∃ j < 64, ∃ cs w, bs = UInt8.ofNat (j + 128) :: cs ∧
      (low.toNat ≤ j + 128 ∧ j + 128 ≤ high.toNat) ∧ Completes (.more (k + 1) 0x80 0xBF w) cs := by
  cases h with
  | last hk hb => exact absurd hk (by omega)
  | further hk hb h =>
    obtain ⟨j, hj, rfl, hbounds⟩ := exists_bits hb hlow hhigh
    exact ⟨j, hj, _, _, rfl, hbounds, h⟩

end Bits

/-- Whatever completes the character that an octet starts spells a character with it. -/
theorem Opens.exists_char {b : UInt8} {p : Pending} {bs : List UInt8} (hb : Opens b p)
    (h : Completes p bs) : ∃ c, String.utf8EncodeChar c = b :: bs := by
  have h80 : (0x80 : UInt8) ≤ 0x80 := by decide
  have hBF : (0xBF : UInt8) ≤ 0xBF := by decide
  cases hb with
  | two hk hlow =>
    obtain ⟨j₁, hj₁, rfl, -⟩ := h.of_last h80 hBF
    exact ⟨_, utf8EncodeChar_two hk hlow hj₁⟩
  | three hk =>
    obtain ⟨j₁, hj₁, cs, w, rfl, hbounds, h⟩ := h.of_further (by split <;> decide) (by split <;> decide)
    obtain ⟨j₂, hj₂, rfl, -⟩ := h.of_last h80 hBF
    refine ⟨_, utf8EncodeChar_three hk hj₁ hj₂ (fun hk => ?_) fun hk => ?_⟩
    · rw [if_pos hk] at hbounds
      have : (0xA0 : UInt8).toNat = 160 := rfl
      omega
    · rw [if_pos hk] at hbounds
      have : (0x9F : UInt8).toNat = 159 := rfl
      omega
  | four hk =>
    obtain ⟨j₁, hj₁, cs, w, rfl, hbounds, h⟩ := h.of_further (by split <;> decide) (by split <;> decide)
    obtain ⟨j₂, hj₂, cs, w, rfl, -, h⟩ := h.of_further h80 hBF
    obtain ⟨j₃, hj₃, rfl, -⟩ := h.of_last h80 hBF
    refine ⟨_, utf8EncodeChar_four hk hj₁ hj₂ hj₃ (fun hk => ?_) fun hk => ?_⟩
    · rw [if_pos hk] at hbounds
      have : (0x90 : UInt8).toNat = 144 := rfl
      omega
    · rw [if_pos hk] at hbounds
      have : (0x8F : UInt8).toNat = 143 := rfl
      omega

/-- An octet that starts a character is the first one of some character. -/
theorem Opens.begins {b : UInt8} {p : Pending} (h : Opens b p) : Begins [b] := by
  obtain ⟨k, low, high, v, rfl, hbounds⟩ := h.exists_more
  obtain ⟨bs, hbs⟩ := exists_completion k v (b := low) ⟨UInt8.le_refl low, hbounds⟩
  obtain ⟨c, hc⟩ := h.exists_char hbs
  exact ⟨c, low :: bs, hc.symm⟩

/-! ### The decoder in the middle of a character -/

/-- The decoder puts nothing while it reads the octets. -/
inductive Holds : Pending → List UInt8 → Pending → Prop
  | nil (p : Pending) : Holds p [] p
  | cons {p q r : Pending} {b : UInt8} {bs : List UInt8} (hb : advance p b = ([], q))
    (h : Holds q bs r) : Holds p (b :: bs) r

section Middle

variable {p q r : Pending} {b : UInt8} {bs cs : List UInt8}

theorem Holds.decodeFrom_append (h : Holds p bs q) (cs : List UInt8) :
    decodeFrom p (bs ++ cs) = decodeFrom q cs := by
  induction h with
  | nil p => rfl
  | cons hb h ih =>
    rw [List.cons_append, decodeFrom, hb]
    exact ih

/-- An octet that does not continue the character starts another. -/
theorem advance_of_out {k v : Nat} {low high : UInt8} (h : ¬ (low ≤ b ∧ b ≤ high)) :
    advance (.more k low high v) b = (replacement :: (start b).1, (start b).2) := if_neg h

/-- Nothing is put only for an octet that continues the character and does not end it. -/
theorem of_advance {k v : Nat} {low high : UInt8} (h : advance (.more k low high v) b = ([], q)) :
    (low ≤ b ∧ b ≤ high) ∧ 1 < k ∧ q = .more (k - 1) 0x80 0xBF (v * 64 + (b.toNat - 0x80)) := by
  by_cases hb : low ≤ b ∧ b ≤ high
  · have hwithin : advance (.more k low high v) b =
        if k ≤ 1 then ([Char.ofNat (v * 64 + (b.toNat - 0x80))], .none)
        else ([], .more (k - 1) 0x80 0xBF (v * 64 + (b.toNat - 0x80))) := if_pos hb
    rw [hwithin] at h
    split at h
    · cases h
    · cases h
      exact ⟨hb, by omega, rfl⟩
  · rw [advance_of_out hb] at h
    cases h

/-- An octet for which nothing is put is held. -/
theorem held_of_advance (h : advance p b = ([], q)) : q ≠ .none := by
  cases p with
  | none =>
    obtain ⟨k, low, high, v, rfl, -⟩ := (opens_of_start h).exists_more
    exact Pending.noConfusion
  | more k low high v =>
    rw [(of_advance h).2.2]
    exact Pending.noConfusion

/-- What is held is put in the end, be it as a replacement. -/
theorem decodeFrom_ne_nil (h : p ≠ .none ∨ bs ≠ []) : decodeFrom p bs ≠ [] := by
  induction bs generalizing p with
  | nil =>
    cases p with
    | none => exact absurd rfl (h.resolve_right fun hn => hn rfl)
    | more k low high v => exact List.cons_ne_nil _ _
  | cons b bs ih =>
    rw [decodeFrom]
    cases hb : advance p b with
    | mk put q =>
      cases put with
      | nil => exact ih (.inl (held_of_advance hb))
      | cons c put => exact List.cons_ne_nil _ _

/-- Nothing is put before the last octet if one character is put in all. -/
theorem exists_holds {c : Char} (hcs : cs ≠ []) (h : decodeFrom p (bs ++ cs) = [c]) :
    ∃ q, Holds p bs q := by
  induction bs generalizing p with
  | nil => exact ⟨p, .nil p⟩
  | cons b bs ih =>
    rw [List.cons_append, decodeFrom] at h
    cases hb : advance p b with
    | mk put q =>
      rw [hb] at h
      cases put with
      | nil =>
        obtain ⟨r, hr⟩ := ih h
        exact ⟨r, .cons hb hr⟩
      | cons d put =>
        have hrest : put ++ decodeFrom q (bs ++ cs) = [] := (List.cons.inj h).2
        exact absurd (List.append_eq_nil_iff.mp hrest).2
          (decodeFrom_ne_nil (.inr (List.append_ne_nil_of_right_ne_nil bs hcs)))

theorem Holds.held (h : Holds p bs q) (hbs : bs ≠ []) : q ≠ .none := by
  induction h with
  | nil p => exact absurd rfl hbs
  | cons hb h ih =>
    cases h with
    | nil q => exact held_of_advance hb
    | cons hb' h' => exact ih (List.cons_ne_nil _ _)

/-- What completes a character later completes it together with what has been read before. -/
theorem Holds.completes (h : Holds p bs q) (hp : p ≠ .none) (hcs : Completes q cs) :
    Completes p (bs ++ cs) := by
  induction h with
  | nil p => exact hcs
  | @cons p q r b bs hb h ih =>
    have ih := ih (held_of_advance hb) hcs
    cases p with
    | none => exact absurd rfl hp
    | more k low high v =>
      obtain ⟨hbounds, hk, rfl⟩ := of_advance hb
      exact .further hk hbounds ih

/-- Octets that the decoder holds, and those that complete them, spell a character. -/
theorem Holds.exists_char (h : Holds .none bs q) (hbs : bs ≠ []) (hcs : Completes q cs) :
    ∃ c, String.utf8EncodeChar c = bs ++ cs := by
  cases h with
  | nil p => exact absurd rfl hbs
  | cons hb h => exact (opens_of_start hb).exists_char (h.completes (held_of_advance hb) hcs)

end Middle

/-! ### Pieces -/

/-- The start of a character is held. -/
theorem Begins.exists_holds {p : List UInt8} (hb : Begins p) (hp : p ≠ [])
    (hc : ∀ c, p ≠ String.utf8EncodeChar c) :
    ∃ k low high v, Holds .none p (.more k low high v) := by
  obtain ⟨c, t, ht⟩ := hb
  have htail : t ≠ [] := by
    rintro rfl
    exact hc c (by rw [← ht, List.append_nil])
  have hdecode : decodeFrom .none (p ++ t) = [c] := by
    have h := decodeFrom_utf8EncodeChar c []
    rw [List.append_nil] at h
    rw [ht, h]
    rfl
  obtain ⟨q, hq⟩ := Utf8.exists_holds htail hdecode
  cases q with
  | none => exact absurd rfl (hq.held hp)
  | more k low high v => exact ⟨k, low, high, v, hq⟩

theorem start_of_not_begins {b : UInt8} (h : ¬ Begins [b]) : start b = ([replacement], .none) := by
  obtain ⟨c, hc, -⟩ | ⟨p, hp⟩ | hstray := first_cases b
  · exact absurd ⟨c, [], hc.symm⟩ h
  · exact absurd hp.begins h
  · exact hstray

/-- A piece is replaced, and the decoder goes on behind it. -/
theorem decodeFrom_piece {p bs : List UInt8} (h : Piece p bs) :
    decodeFrom .none (p ++ bs) = replacement :: decodeFrom .none bs := by
  cases h with
  | stray hb rest =>
    rw [List.singleton_append, decodeFrom, advance, start_of_not_begins hb]
    rfl
  | unfinished hp hb hc hrest =>
    obtain ⟨k, low, high, v, hholds⟩ := hb.exists_holds hp hc
    rw [hholds.decodeFrom_append]
    cases bs with
    | nil => rfl
    | cons b bs =>
      have hout : ¬ (low ≤ b ∧ b ≤ high) := by
        intro hbounds
        obtain ⟨cs, hcs⟩ := exists_completion k v hbounds
        obtain ⟨c, hc⟩ := hholds.exists_char hp hcs
        refine hrest b rfl ⟨c, cs, ?_⟩
        rw [hc, List.append_assoc, List.singleton_append]
      rw [decodeFrom, advance_of_out hout]
      rfl

/-- Octets that begin a character start with one or with a piece that is none. -/
theorem Begins.exists_front {p : List UInt8} (hb : Begins p) (hp : p ≠ []) (rest : List UInt8) :
    ∃ q bs, q ≠ [] ∧ p ++ rest = q ++ bs ∧ ((∃ c, q = String.utf8EncodeChar c) ∨ Piece q bs) := by
  -- the start is made longer until it is a character or cannot be
  induction rest generalizing p with
  | nil =>
    refine ⟨p, [], hp, rfl, ?_⟩
    by_cases hc : ∃ c, p = String.utf8EncodeChar c
    · exact .inl hc
    · refine .inr (.unfinished hp hb (fun c h => hc ⟨c, h⟩) fun b h => ?_)
      cases h
  | cons b rest ih =>
    by_cases hc : ∃ c, p = String.utf8EncodeChar c
    · exact ⟨p, _, hp, rfl, .inl hc⟩
    · by_cases hnext : Begins (p ++ [b])
      · have h := ih hnext (List.append_ne_nil_of_left_ne_nil hp _)
        rwa [List.append_assoc, List.singleton_append] at h
      · refine ⟨p, _, hp, rfl, .inr (.unfinished hp hb (fun c h => hc ⟨c, h⟩) fun d h => ?_)⟩
        obtain rfl : b = d := Option.some.inj h
        exact hnext

theorem exists_front {bs : List UInt8} (h : bs ≠ []) :
    ∃ q cs, q ≠ [] ∧ bs = q ++ cs ∧ ((∃ c, q = String.utf8EncodeChar c) ∨ Piece q cs) := by
  obtain ⟨b, bs, rfl⟩ := List.exists_cons_of_ne_nil h
  by_cases hb : Begins [b]
  · exact hb.exists_front (List.cons_ne_nil _ _) bs
  · exact ⟨[b], bs, List.cons_ne_nil _ _, rfl, .inr (.stray hb bs)⟩

/-! ### All octets -/

theorem exists_decodes (bs : List UInt8) : ∃ cs, Decodes bs cs := by
  induction hn : bs.length using Nat.strongRecOn generalizing bs with
  | ind n ih =>
    by_cases hbs : bs = []
    · exact ⟨[], hbs ▸ .nil⟩
    · obtain ⟨q, ds, hq, rfl, hfront⟩ := exists_front hbs
      have hlt : ds.length < n := by
        have := List.length_pos_iff.mpr hq
        rw [← hn, List.length_append]
        omega
      obtain ⟨cs, hcs⟩ := ih ds.length hlt ds rfl
      obtain ⟨c, rfl⟩ | hpiece := hfront
      · exact ⟨_, .char c hcs⟩
      · exact ⟨_, .piece hpiece hcs⟩

theorem Decodes.decodeFrom_eq {bs : List UInt8} {cs : List Char} (h : Decodes bs cs) :
    decodeFrom .none bs = cs := by
  induction h with
  | nil => rfl
  | char c h ih => rw [decodeFrom_utf8EncodeChar, ih]
  | piece hp h ih => rw [decodeFrom_piece hp, ih]

/-- The decoder keeps the characters and replaces the pieces. -/
theorem decodeFrom_eq_iff {bs : List UInt8} {cs : List Char} :
    decodeFrom .none bs = cs ↔ Decodes bs cs := by
  constructor
  · rintro rfl
    obtain ⟨cs, hcs⟩ := exists_decodes bs
    rwa [hcs.decodeFrom_eq]
  · exact Decodes.decodeFrom_eq

example : Decodes [0xF0, 0x9F, 0x41, 0xFF] [replacement, 'A', replacement] :=
  decodeFrom_eq_iff.mp (by decide)

theorem decode_eq_iff {bs : List UInt8} {s : String} : decode bs = s ↔ Decodes bs s.toList := by
  rw [← decodeFrom_eq_iff, decode]
  constructor
  · rintro rfl
    rw [String.toList_ofList]
  · intro h
    rw [h, String.ofList_toList]

theorem decodeFrom_flatMap_append (cs : List Char) (bs : List UInt8) :
    decodeFrom .none (cs.flatMap String.utf8EncodeChar ++ bs) = cs ++ decodeFrom .none bs := by
  induction cs with
  | nil => rfl
  | cons c cs ih =>
    rw [List.flatMap_cons, List.append_assoc, decodeFrom_utf8EncodeChar, ih, List.cons_append]

/-- What is behind a text does not change how the text is read, and is read by itself. -/
theorem decode_encode_append (s : String) (bs : List UInt8) :
    decode (encode s ++ bs) = s ++ decode bs := by
  rw [decode, encode, decodeFrom_flatMap_append, String.ofList_append, String.ofList_toList, decode]

end GatedLog.Text.Utf8
