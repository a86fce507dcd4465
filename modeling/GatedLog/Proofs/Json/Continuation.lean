import GatedLog.Proofs.Json.Lexing

/-!
# Texts that go on

What is written behind a text does not change the tokens that the text has been cut into, as far as
the last one of them that could not have gone on itself (`tokens_append`). Only a numeral goes on,
and what was no token at all may become one.
-/

namespace GatedLog.Json

/-- Whether a token ends with its last character, whatever stands behind it. -/
def Token.ended : Token → Bool
  | .number _ => false
  | .junk => false
  | _ => true

section Continuation

variable {cs ds more rest : List Char}

/-! ### Numerals -/

theorem takeWhile_append_of_rest {p : Char → Bool} (h : cs.dropWhile p = rest) (hr : rest ≠ [])
    (more : List Char) :
    (cs ++ more).takeWhile p = cs.takeWhile p ∧ (cs ++ more).dropWhile p = rest ++ more := by
  subst h
  have hlen : (cs.takeWhile p).length ≠ cs.length := by
    have hsplit := congrArg List.length (List.takeWhile_append_dropWhile (p := p) (l := cs))
    have hpos := List.length_pos_iff.mpr hr
    rw [List.length_append] at hsplit
    omega
  rw [List.takeWhile_append, List.dropWhile_append, if_neg hlen, if_neg (by simpa using hr)]
  exact ⟨rfl, rfl⟩

theorem scanWhole_more (h : scanWhole cs = some (ds, rest)) (hr : rest ≠ []) (more : List Char) :
    scanWhole (cs ++ more) = some (ds, rest ++ more) := by
  unfold scanWhole at h
  split at h
  · next c cs =>
    split at h
    · cases h
    · next hc =>
      obtain ⟨rfl, rfl⟩ := Prod.mk.inj (Option.some.inj h)
      rw [List.cons_append, List.cons_append, scanWhole, if_neg hc]
  · next hz =>
    dsimp only at h
    split at h
    · cases h
    · next he =>
      obtain ⟨rfl, rfl⟩ := Prod.mk.inj (Option.some.inj h)
      obtain ⟨ht, hd⟩ := takeWhile_append_of_rest rfl hr more
      unfold scanWhole
      split
      · next heq =>
        -- a zero at the end of the text leaves nothing behind
        cases cs with
        | nil => exact absurd rfl he
        | cons d cs =>
          obtain ⟨rfl, -⟩ := List.cons.inj heq
          cases cs with
          | nil => exact absurd rfl hr
          | cons e cs => exact absurd rfl (hz e cs)
      · dsimp only
        rw [ht, hd, if_neg he]

theorem scanFraction_more (h : scanFraction cs = some (ds, rest)) (hr : rest ≠ [])
    (more : List Char) : scanFraction (cs ++ more) = some (ds, rest ++ more) := by
  unfold scanFraction at h
  split at h
  · next cs =>
    dsimp only at h
    split at h
    · cases h
    · next he =>
      obtain ⟨rfl, rfl⟩ := Prod.mk.inj (Option.some.inj h)
      obtain ⟨ht, hd⟩ := takeWhile_append_of_rest rfl hr more
      rw [List.cons_append, scanFraction, ht, hd, if_neg he]
  · next hp =>
    obtain ⟨rfl, rfl⟩ := Prod.mk.inj (Option.some.inj h)
    obtain ⟨c, us, rfl⟩ := List.exists_cons_of_ne_nil hr
    rw [List.cons_append]
    unfold scanFraction
    split
    · next heq =>
      obtain ⟨rfl, -⟩ := List.cons.inj heq
      exact absurd rfl (hp us)
    · rfl

theorem scanSign_more (h : (scanSign cs).2 ≠ []) (more : List Char) :
    scanSign (cs ++ more) = ((scanSign cs).1, (scanSign cs).2 ++ more) := by
  unfold scanSign at h ⊢
  split at h
  · rfl
  · rfl
  · next hm hp =>
    obtain ⟨c, us, rfl⟩ := List.exists_cons_of_ne_nil h
    rw [List.cons_append]
    split
    · next heq => exact absurd (congrArg (· :: us) (List.cons.inj heq).1) (hm us)
    · next heq => exact absurd (congrArg (· :: us) (List.cons.inj heq).1) (hp us)
    · rfl

theorem scanExponent_more {e : Option (Bool × List Char)} (h : scanExponent cs = some (e, rest))
    (hr : rest ≠ []) (more : List Char) :
    scanExponent (cs ++ more) = some (e, rest ++ more) := by
  unfold scanExponent at h
  split at h
  · obtain ⟨-, rfl⟩ := Prod.mk.inj (Option.some.inj h)
    exact absurd rfl hr
  · next c cs =>
    split at h
    · next hm =>
      dsimp only at h
      split at h
      · cases h
      · next he =>
        obtain ⟨rfl, rfl⟩ := Prod.mk.inj (Option.some.inj h)
        obtain ⟨ht, hd⟩ := takeWhile_append_of_rest rfl hr more
        have hs : (scanSign cs).2 ≠ [] := by
          intro hs
          rw [hs] at he
          exact he rfl
        rw [List.cons_append, scanExponent, if_pos hm, scanSign_more hs]
        dsimp only
        rw [ht, hd, if_neg he]
    · next hm =>
      obtain ⟨rfl, rfl⟩ := Prod.mk.inj (Option.some.inj h)
      rw [List.cons_append, scanExponent, if_neg hm]

/-- A numeral that something else follows does not go on. -/
theorem scanNumeral_more {negative : Bool} {x : Numeral}
    (h : scanNumeral negative cs = some (x, rest)) (hr : rest ≠ []) (more : List Char) :
    scanNumeral negative (cs ++ more) = some (x, rest ++ more) := by
  simp only [scanNumeral, bind, Option.bind_eq_some_iff, Prod.exists] at h
  obtain ⟨w, cs₁, h₁, f, cs₂, h₂, e, cs₃, h₃, h⟩ := h
  obtain ⟨rfl, rfl⟩ := Prod.mk.inj (Option.some.inj h)
  have hr₂ : cs₂ ≠ [] := by
    rintro rfl
    exact hr (List.eq_nil_of_length_eq_zero (Nat.le_zero.mp (length_scanExponent h₃)))
  have hr₁ : cs₁ ≠ [] := by
    rintro rfl
    exact hr₂ (List.eq_nil_of_length_eq_zero (Nat.le_zero.mp (length_scanFraction h₂)))
  simp only [scanNumeral, bind, scanWhole_more h₁ hr₁, Option.bind_some, scanFraction_more h₂ hr₂,
    scanExponent_more h₃ hr]

/-! ### Tokens -/

theorem numberToken_more {negative : Bool} {t : Token}
    (h : numberToken (scanNumeral negative cs) = (t, rest)) (ht : t ≠ .junk) (hr : rest ≠ [])
    (more : List Char) : numberToken (scanNumeral negative (cs ++ more)) = (t, rest ++ more) := by
  cases hx : scanNumeral negative cs with
  | none =>
    rw [hx] at h
    exact absurd (Prod.mk.inj h).1.symm ht
  | some p =>
    obtain ⟨x, us⟩ := p
    rw [hx] at h
    obtain ⟨rfl, rfl⟩ := Prod.mk.inj h
    rw [scanNumeral_more hx hr, numberToken]

/-- A token that has ended, or that something follows, does not go on. -/
theorem token_more {c : Char} {t : Token} (h : token c cs = (t, rest)) (ht : t ≠ .junk)
    (hr : t.ended = true ∨ rest ≠ []) (more : List Char) :
    token c (cs ++ more) = (t, rest ++ more) := by
  by_cases hx : ∃ x, t = .number x
  · obtain ⟨x, rfl⟩ := hx
    have hr : rest ≠ [] := hr.resolve_left Bool.false_ne_true
    by_cases hc : c = '-'
    · subst hc
      rw [token] at h ⊢
      exact numberToken_more h ht hr more
    · by_cases hd : c.isDigit = true
      · rw [token_digit hd] at h ⊢
        exact numberToken_more h ht hr more
      · -- nothing else begins a numeral
        unfold token at h
        split at h
        case h_10 => split at h <;> cases h
        case h_11 => exact absurd rfl hc
        case h_12 => rw [if_neg hd] at h; cases h
        all_goals cases h
  · obtain ⟨ds, hs, hcs⟩ := spelled_of_token h ht
    have hstops : ∀ x, t = .number x → Stops (rest ++ more) := fun x hn => absurd ⟨x, hn⟩ hx
    obtain ⟨d, us, hds, -, htoken⟩ := token_append hs hstops
    rw [← List.append_assoc, ← hcs, List.cons_append] at hds
    obtain ⟨rfl, rfl⟩ := List.cons.inj hds
    exact htoken

/-- **Tokens stay when a text goes on**, up to one that has ended. -/
theorem tokens_append {us vs : List Token} {u : Token} (h : tokens cs = us ++ u :: vs)
    (hu : u.ended = true) (more : List Char) : ∃ ws, tokens (cs ++ more) = us ++ u :: ws := by
  fun_induction tokens cs generalizing us with
  | case1 => exact absurd h (by simp)
  | case2 c cs hb ih =>
    rw [List.cons_append, tokens_of_blank hb]
    exact ih h
  | case3 c cs hb hj =>
    -- what is no token has not ended
    cases us with
    | nil =>
      obtain ⟨rfl, -⟩ := List.cons.inj h
      cases hu
    | cons t us => exact absurd (List.cons.inj h).2 (by simp)
  | case4 c cs hb hj ih =>
    have htoken : token c cs = ((token c cs).1, (token c cs).2) := rfl
    have hblank : isBlank c = false := by simpa using hb
    rw [List.cons_append]
    cases us with
    | nil =>
      obtain ⟨hu', -⟩ := List.cons.inj h
      have hmore := token_more htoken hj (.inl (hu' ▸ hu)) more
      rw [tokens_of_token hblank hmore hj, hu']
      exact ⟨_, rfl⟩
    | cons t us =>
      obtain ⟨ht, hrest⟩ := List.cons.inj h
      have hr : (token c cs).2 ≠ [] := by
        intro hn
        rw [hn, tokens] at hrest
        exact absurd hrest (by simp)
      obtain ⟨ws, hws⟩ := ih hrest
      have hmore := token_more htoken hj (.inr hr) more
      rw [tokens_of_token hblank hmore hj, hws, ht]
      exact ⟨ws, rfl⟩

end Continuation

end GatedLog.Json
