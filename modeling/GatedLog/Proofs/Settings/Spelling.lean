import GatedLog.Proofs.Json.Lexing
import GatedLog.Settings.Reader

/-!
# Spellings of documents

The same tokens can be spelled in many ways: with blanks wherever tokens meet, and with each
character of a string as it is or escaped. `Tokenized` says of a text which tokens it is a sequence
of, and a text without faults is cut into just these (`tokenized_iff`). So texts of the same tokens
are read with the same outcome (`spelling_ignored`).
-/

namespace GatedLog

namespace Json

/-- A text that is a sequence of tokens, with blanks wherever tokens meet and at both ends. A numeral
extends as far as it can: what follows it does not go on with it. -/
inductive Tokenized : List Token → List Char → Prop
  | nil {bs : List Char} (hb : Blanks bs) : Tokenized [] bs
  | cons {t : Token} {ts : List Token} {bs cs ds : List Char} (hb : Blanks bs) (ht : t.Spelled cs)
    (hover : ∀ x, t = .number x → Stops ds) (h : Tokenized ts ds) :
    Tokenized (t :: ts) (bs ++ (cs ++ ds))

/-- A sequence of tokens is cut into these tokens. -/
theorem Tokenized.tokens_eq {ts : List Token} {cs : List Char} (h : Tokenized ts cs) :
    tokens cs = ts := by
  induction h with
  | @nil bs hb => rw [← List.append_nil bs, tokens_append_of_blanks hb, tokens]
  | cons hb ht hover h ih =>
    obtain ⟨c, us, hc, hblank, htoken⟩ := token_append ht hover
    rw [tokens_append_of_blanks hb, hc, tokens_of_token hblank htoken ht.ne_junk, ih]

theorem Tokenized.not_junk_mem {ts : List Token} {cs : List Char} (h : Tokenized ts cs) :
    .junk ∉ ts := by
  induction h with
  | nil => exact List.not_mem_nil
  | cons hb ht hover h ih =>
    intro hm
    rcases List.mem_cons.mp hm with hj | hm
    · exact ht.ne_junk hj.symm
    · exact ih hm

theorem Tokenized.cons_blank {c : Char} {cs : List Char} {ts : List Token}
    (hc : isBlank c = true) (h : Tokenized ts cs) : Tokenized ts (c :: cs) := by
  cases h with
  | nil hb => exact .nil (List.forall_mem_cons.mpr ⟨hc, hb⟩)
  | cons hb ht hover h => exact .cons (List.forall_mem_cons.mpr ⟨hc, hb⟩) ht hover h

/-! ### Where numerals end -/

section Numerals

variable {cs ds rest : List Char}

theorem noDigit_dropWhile (cs : List Char) : NoDigit (cs.dropWhile Char.isDigit) := by
  intro c us h
  have hhead := List.head?_dropWhile_not Char.isDigit cs
  rw [h] at hhead
  simpa using hhead

theorem noDigit_of_scanWhole (h : scanWhole cs = some (ds, rest)) : NoDigit rest := by
  unfold scanWhole at h
  split at h
  · split at h
    · cases h
    · next hd =>
      obtain ⟨-, rfl⟩ := Prod.mk.inj (Option.some.inj h)
      rintro d us heq
      obtain ⟨rfl, -⟩ := List.cons.inj heq
      simpa using hd
  · dsimp only at h
    split at h
    · cases h
    · obtain ⟨-, rfl⟩ := Prod.mk.inj (Option.some.inj h)
      exact noDigit_dropWhile cs

theorem noDigit_of_scanFraction (h : scanFraction cs = some (ds, rest)) (hc : NoDigit cs) :
    NoDigit rest := by
  unfold scanFraction at h
  split at h
  · dsimp only at h
    split at h
    · cases h
    · obtain ⟨-, rfl⟩ := Prod.mk.inj (Option.some.inj h)
      exact noDigit_dropWhile _
  · obtain ⟨-, rfl⟩ := Prod.mk.inj (Option.some.inj h)
    exact hc

theorem noDigit_of_scanExponent {e : Option (Bool × List Char)}
    (h : scanExponent cs = some (e, rest)) (hc : NoDigit cs) : NoDigit rest := by
  unfold scanExponent at h
  split at h
  · obtain ⟨-, rfl⟩ := Prod.mk.inj (Option.some.inj h)
    exact hc
  · split at h
    · dsimp only at h
      split at h
      · cases h
      · obtain ⟨-, rfl⟩ := Prod.mk.inj (Option.some.inj h)
        exact noDigit_dropWhile _
    · obtain ⟨-, rfl⟩ := Prod.mk.inj (Option.some.inj h)
      exact hc

theorem noDigit_of_numberToken {negative : Bool} {x : Numeral}
    (h : numberToken (scanNumeral negative cs) = (.number x, rest)) : NoDigit rest := by
  cases hx : scanNumeral negative cs with
  | none =>
    rw [hx] at h
    cases h
  | some p =>
    rw [hx] at h
    obtain ⟨-, rfl⟩ := Prod.mk.inj h
    simp only [scanNumeral, bind, Option.bind_eq_some_iff, Prod.exists] at hx
    obtain ⟨w, cs₁, h₁, f, cs₂, h₂, e, cs₃, h₃, hx⟩ := hx
    obtain rfl := Option.some.inj hx
    exact noDigit_of_scanExponent h₃ (noDigit_of_scanFraction h₂ (noDigit_of_scanWhole h₁))

/-- What goes on with a numeral and is no digit starts no token. -/
theorem stops_of_token {c : Char} {x : Numeral} (h : token c cs = (.number x, rest))
    (hrest : .junk ∉ tokens rest) : Stops rest := by
  have hdigit : NoDigit rest := by
    unfold token at h
    split at h
    case h_10 => split at h <;> cases h
    case h_11 => exact noDigit_of_numberToken h
    case h_12 =>
      split at h
      · exact noDigit_of_numberToken h
      · cases h
    all_goals cases h
  intro d us hd
  cases hg : goesOn d with
  | false => rfl
  | true =>
    have hn : d.isDigit = false := hdigit d us hd
    simp only [goesOn, hn, Bool.false_or, Bool.or_eq_true, beq_iff_eq] at hg
    subst hd
    rcases hg with (rfl | rfl) | rfl <;> exact absurd (by simp [tokens, token, isBlank]) hrest

end Numerals

/-- **The sequences of tokens are the texts that are cut into tokens without a fault.** -/
theorem tokenized_iff {ts : List Token} {cs : List Char} :
    Tokenized ts cs ↔ tokens cs = ts ∧ .junk ∉ ts := by
  constructor
  · intro h
    exact ⟨h.tokens_eq, h.not_junk_mem⟩
  · rintro ⟨rfl, h⟩
    fun_induction tokens cs with
    | case1 => exact .nil blanks_nil
    | case2 c cs hb ih => exact (ih h).cons_blank hb
    | case3 c cs hb hj => exact absurd (List.mem_cons_self ..) h
    | case4 c cs hb hj ih =>
      have htoken : token c cs = ((token c cs).1, (token c cs).2) := rfl
      obtain ⟨ds, hd, hcs⟩ := spelled_of_token htoken hj
      have hrest : .junk ∉ tokens (token c cs).2 := fun hm => h (List.mem_cons_of_mem _ hm)
      rw [hcs]
      refine Tokenized.cons blanks_nil hd (fun x hx => ?_) (ih hrest)
      exact stops_of_token (Prod.ext hx rfl) hrest

end Json

namespace Settings

/-- **Spelling does not matter**: two texts that are the same sequence of tokens are read with the same
outcome, whichever blanks stand between the tokens and however the characters of strings are
written. -/
theorem spelling_ignored {ts : List Json.Token} {text text' : String}
    (h : Json.Tokenized ts text.toList) (h' : Json.Tokenized ts text'.toList) :
    read text = read text' := by
  rw [read, read, h.tokens_eq, h'.tokens_eq]

/-- A document with a field given twice, and an ignored value. -/
def plainDocument : String := "\x7b\"level\":\"warn\",\"x\":1e5,\"level\":\"info\"\x7d"

/-- The same document with blanks and with escapes in a name and in both of the keys. -/
def escapedDocument : String :=
  " \x7b \"l\\u0065vel\" :\"w\\u0061rn\",\t\"x\":1e5\n, \"\\u006Cevel\":\"info\" \x7d "

/-- Escaped keys are fields, and count as given. -/
theorem escaped_keys_count :
    Json.Tokenized (Json.tokens plainDocument.toList) plainDocument.toList ∧
      Json.Tokenized (Json.tokens plainDocument.toList) escapedDocument.toList ∧
      read plainDocument = read escapedDocument ∧
      read escapedDocument = .error (.problem (.duplicateField "level")) := by
  have hplain : Json.Tokenized (Json.tokens plainDocument.toList) plainDocument.toList :=
    Json.tokenized_iff.mpr ⟨rfl, by decide +kernel⟩
  have hescaped : Json.Tokenized (Json.tokens plainDocument.toList) escapedDocument.toList :=
    Json.tokenized_iff.mpr ⟨by decide +kernel, by decide +kernel⟩
  exact ⟨hplain, hescaped, spelling_ignored hplain hescaped, by decide +kernel⟩

/-- Both halves of a surrogate pair are one character. -/
example : read "[\"\\ud83d\\ude00\"]" = read "[\"😀\"]" := by decide +kernel

end Settings

end GatedLog
