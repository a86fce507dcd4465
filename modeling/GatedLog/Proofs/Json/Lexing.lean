import Mathlib.Data.List.TakeWhile
import GatedLog.Proofs.Json.Grammar

/-!
# Cutting texts into tokens

A text is cut into the tokens that it spells (`spells_tokens`, `Spells.tokens_eq`). Numerals are the
only tokens that end where something else begins; that needs a look at what follows them (`Stops`).
-/

namespace GatedLog.Json

/-- How a token is spelled. -/
inductive Token.Spelled : Token → List Char → Prop
  | openBrace : Spelled .openBrace ['\x7b']
  | closeBrace : Spelled .closeBrace ['\x7d']
  | openBracket : Spelled .openBracket ['[']
  | closeBracket : Spelled .closeBracket [']']
  | colon : Spelled .colon [':']
  | comma : Spelled .comma [',']
  | null : Spelled .null ['n', 'u', 'l', 'l']
  | true : Spelled (.boolean true) ['t', 'r', 'u', 'e']
  | false : Spelled (.boolean false) ['f', 'a', 'l', 's', 'e']
  | number (x : Numeral) (cs : List Char) (h : x.Spelled cs) : Spelled (.number x) cs
  | text (content : Option String) (cs : List Char) (h : Quoted content cs) :
    Spelled (.text content) cs

/-- Texts that spell tokens, with blanks wherever tokens meet and at both ends. -/
inductive Spells : List Token → List Char → Prop
  | nil {bs : List Char} (hb : Blanks bs) : Spells [] bs
  | cons {t : Token} {ts : List Token} {bs cs ds : List Char} (hb : Blanks bs) (ht : t.Spelled cs)
    (h : Spells ts ds) : Spells (t :: ts) (bs ++ (cs ++ ds))

/-! ### Digits -/

/-- No digit comes first. -/
def NoDigit (cs : List Char) : Prop := ∀ c ds, cs = c :: ds → c.isDigit = false

/-- Whether a numeral could go on with the character. -/
def goesOn (c : Char) : Bool := c.isDigit || c == '.' || c == 'e' || c == 'E'

/-- Nothing comes first that a numeral could go on with. -/
def Stops (cs : List Char) : Prop := ∀ c ds, cs = c :: ds → goesOn c = false

namespace Stops

variable {cs : List Char}

theorem noDigit (h : Stops cs) : NoDigit cs := by
  intro c ds hcs
  have hc := h c ds hcs
  cases hd : c.isDigit with
  | false => rfl
  | true =>
    rw [goesOn, hd] at hc
    cases hc

theorem noPoint (h : Stops cs) (ds : List Char) : cs ≠ '.' :: ds := fun hcs =>
  absurd (h _ ds hcs) (by decide)

theorem noMark (h : Stops cs) (ds : List Char) : cs ≠ 'e' :: ds ∧ cs ≠ 'E' :: ds :=
  ⟨fun hcs => absurd (h _ ds hcs) (by decide), fun hcs => absurd (h _ ds hcs) (by decide)⟩

end Stops

section Digits

variable {ds rest : List Char}

theorem takeWhile_digits (h : ∀ c ∈ ds, c.isDigit = true) (hr : NoDigit rest) :
    (ds ++ rest).takeWhile Char.isDigit = ds ∧ (ds ++ rest).dropWhile Char.isDigit = rest := by
  have hnone : rest.takeWhile Char.isDigit = [] ∧ rest.dropWhile Char.isDigit = rest := by
    cases rest with
    | nil => exact ⟨rfl, rfl⟩
    | cons c cs =>
      have := hr c cs rfl
      simp [this]
  rw [List.takeWhile_append_of_pos h, List.dropWhile_append_of_pos h, hnone.1, hnone.2]
  exact ⟨List.append_nil ds, rfl⟩

theorem digits_takeWhile {cs : List Char} (h : (cs.takeWhile Char.isDigit).isEmpty = false) :
    Digits (cs.takeWhile Char.isDigit) where
  ne_nil hn := by
    rw [hn] at h
    cases h
  isDigit _ hc := List.mem_takeWhile_imp hc

end Digits

/-! ### Numerals -/

section Numerals

variable {cs ds rest : List Char}

theorem whole_of_scanWhole (h : scanWhole cs = some (ds, rest)) : Whole ds ∧ cs = ds ++ rest := by
  unfold scanWhole at h
  split at h
  · next c cs =>
    split at h
    · cases h
    · obtain ⟨rfl, rfl⟩ := Prod.mk.inj (Option.some.inj h)
      refine ⟨⟨⟨by simp, by simp⟩, ?_⟩, rfl⟩
      intro ds hd
      exact (List.cons.inj hd).2.symm
  · next hz =>
    dsimp only at h
    split at h
    · cases h
    · next he =>
      obtain ⟨rfl, rfl⟩ := Prod.mk.inj (Option.some.inj h)
      refine ⟨⟨digits_takeWhile (by simpa using he), ?_⟩, (List.takeWhile_append_dropWhile).symm⟩
      intro ds hd
      have hcs : cs = '0' :: (ds ++ cs.dropWhile Char.isDigit) := by
        rw [← List.cons_append, ← hd, List.takeWhile_append_dropWhile]
      cases ds with
      | nil => rfl
      | cons d ds => exact absurd hcs (hz d _)

theorem scanWhole_append (h : Whole ds) (hr : NoDigit rest) :
    scanWhole (ds ++ rest) = some (ds, rest) := by
  obtain ⟨ht, hd⟩ := takeWhile_digits h.isDigit hr
  unfold scanWhole
  split
  · next c cs heq =>
    obtain ⟨d, ds, rfl⟩ := List.exists_cons_of_ne_nil h.ne_nil
    obtain ⟨rfl, hrest⟩ := List.cons.inj heq
    obtain rfl := h.zero ds rfl
    obtain rfl : rest = c :: cs := hrest
    rw [if_neg (by rw [hr c cs rfl]; exact Bool.false_ne_true)]
  · dsimp only
    rw [ht, hd, if_neg (by simpa using h.ne_nil)]

theorem fraction_of_scanFraction (h : scanFraction cs = some (ds, rest)) :
    ∃ fs, Fraction ds fs ∧ cs = fs ++ rest := by
  unfold scanFraction at h
  split at h
  · dsimp only at h
    split at h
    · cases h
    · next he =>
      obtain ⟨rfl, rfl⟩ := Prod.mk.inj (Option.some.inj h)
      refine ⟨_, .point _ (digits_takeWhile (by simpa using he)), ?_⟩
      rw [List.cons_append, List.takeWhile_append_dropWhile]
  · obtain ⟨rfl, rfl⟩ := Prod.mk.inj (Option.some.inj h)
    exact ⟨[], .absent, rfl⟩

theorem scanFraction_append {fs : List Char} (h : Fraction ds fs) (hr : NoDigit rest)
    (hp : ∀ us, rest ≠ '.' :: us) : scanFraction (fs ++ rest) = some (ds, rest) := by
  cases h with
  | absent =>
    rw [List.nil_append]
    unfold scanFraction
    split
    · next us => exact absurd rfl (hp us)
    · rfl
  | point ds h =>
    obtain ⟨ht, hd⟩ := takeWhile_digits h.isDigit hr
    rw [List.cons_append, scanFraction, ht, hd, if_neg (by simpa using h.ne_nil)]

theorem sign_scanSign (cs : List Char) :
    ∃ sign, Sign (scanSign cs).1 sign ∧ cs = sign ++ (scanSign cs).2 := by
  unfold scanSign
  split
  · exact ⟨['-'], .minus, rfl⟩
  · exact ⟨['+'], .plus, rfl⟩
  · exact ⟨[], .absent, rfl⟩

theorem scanSign_append {down : Bool} {sign : List Char} (h : Sign down sign) (hd : Digits ds)
    (rest : List Char) : scanSign (sign ++ (ds ++ rest)) = (down, ds ++ rest) := by
  cases h with
  | absent =>
    -- no sign is a digit
    obtain ⟨c, cs, rfl⟩ := List.exists_cons_of_ne_nil hd.ne_nil
    have hc := hd.isDigit c (List.mem_cons_self ..)
    rw [List.nil_append, List.cons_append]
    unfold scanSign
    split
    · next heq =>
      rw [(List.cons.inj heq).1] at hc
      exact absurd hc (by decide)
    · next heq =>
      rw [(List.cons.inj heq).1] at hc
      exact absurd hc (by decide)
    · rfl
  | plus => rfl
  | minus => rfl

theorem exponent_of_scanExponent {e : Option (Bool × List Char)}
    (h : scanExponent cs = some (e, rest)) : ∃ es, Exponent e es ∧ cs = es ++ rest := by
  unfold scanExponent at h
  split at h
  · obtain ⟨rfl, rfl⟩ := Prod.mk.inj (Option.some.inj h)
    exact ⟨[], .absent, rfl⟩
  · next c cs =>
    split at h
    · next hm =>
      dsimp only at h
      split at h
      · cases h
      · next he =>
        obtain ⟨rfl, rfl⟩ := Prod.mk.inj (Option.some.inj h)
        obtain ⟨sign, hs, hcs⟩ := sign_scanSign cs
        refine ⟨_, .marked c _ sign _ (by simpa using hm) hs
          (digits_takeWhile (by simpa using he)), ?_⟩
        rw [List.cons_append, List.append_assoc, List.takeWhile_append_dropWhile, ← hcs]
    · obtain ⟨rfl, rfl⟩ := Prod.mk.inj (Option.some.inj h)
      exact ⟨[], .absent, rfl⟩

theorem scanExponent_append {e : Option (Bool × List Char)} {es : List Char} (h : Exponent e es)
    (hr : NoDigit rest) (hm : ∀ us, rest ≠ 'e' :: us ∧ rest ≠ 'E' :: us) :
    scanExponent (es ++ rest) = some (e, rest) := by
  cases h with
  | absent =>
    rw [List.nil_append]
    cases rest with
    | nil => rfl
    | cons c us =>
      obtain ⟨h₁, h₂⟩ := hm us
      have hc : ¬ (c == 'e' || c == 'E') = true := by
        simp only [Bool.or_eq_true, beq_iff_eq]
        rintro (rfl | rfl)
        · exact h₁ rfl
        · exact h₂ rfl
      rw [scanExponent, if_neg hc]
  | marked mark down sign ds hmark hs hd =>
    obtain ⟨ht, hw⟩ := takeWhile_digits hd.isDigit hr
    have hc : (mark == 'e' || mark == 'E') = true := by simpa using hmark
    rw [List.cons_append, List.append_assoc, scanExponent, if_pos hc, scanSign_append hs hd]
    dsimp only
    rw [ht, hw, if_neg (by simpa using hd.ne_nil)]

theorem Exponent.noDigit {e : Option (Bool × List Char)} {es : List Char} (h : Exponent e es)
    (hr : NoDigit rest) : NoDigit (es ++ rest) := by
  cases h with
  | absent => exact hr
  | marked mark down sign ds hm hs hd =>
    intro c us heq
    obtain ⟨rfl, -⟩ := List.cons.inj heq
    rcases hm with rfl | rfl <;> decide

theorem Exponent.noPoint {e : Option (Bool × List Char)} {es : List Char} (h : Exponent e es)
    (hr : ∀ us, rest ≠ '.' :: us) (us : List Char) : es ++ rest ≠ '.' :: us := by
  cases h with
  | absent => exact hr us
  | marked mark down sign ds hm hs hd =>
    intro heq
    obtain ⟨rfl, -⟩ := List.cons.inj heq
    rcases hm with hm | hm <;> exact absurd hm (by decide)

theorem Fraction.noDigit {fs : List Char} (h : Fraction ds fs) (hr : NoDigit rest) :
    NoDigit (fs ++ rest) := by
  cases h with
  | absent => exact hr
  | point ds hd =>
    intro c us heq
    obtain ⟨rfl, -⟩ := List.cons.inj heq
    decide

theorem unsigned_of_scanNumeral {negative : Bool} {x : Numeral}
    (h : scanNumeral negative cs = some (x, rest)) :
    x.negative = negative ∧ ∃ ds, x.Unsigned ds ∧ cs = ds ++ rest := by
  simp only [scanNumeral, bind, Option.bind_eq_some_iff, Prod.exists] at h
  obtain ⟨w, cs₁, h₁, f, cs₂, h₂, e, cs₃, h₃, h⟩ := h
  obtain ⟨rfl, rfl⟩ := Prod.mk.inj (Option.some.inj h)
  obtain ⟨hw, rfl⟩ := whole_of_scanWhole h₁
  obtain ⟨fs, hf, rfl⟩ := fraction_of_scanFraction h₂
  obtain ⟨es, he, rfl⟩ := exponent_of_scanExponent h₃
  exact ⟨rfl, _, ⟨hw, fs, es, hf, he, rfl⟩, by simp⟩

theorem scanNumeral_append {x : Numeral} (h : x.Unsigned ds) (hr : Stops rest) :
    scanNumeral x.negative (ds ++ rest) = some (x, rest) := by
  obtain ⟨hw, fs, es, hf, he, rfl⟩ := h
  have hne := he.noDigit hr.noDigit
  have hnp := he.noPoint hr.noPoint
  have hnf := hf.noDigit hne
  simp only [List.append_assoc, scanNumeral, bind, scanWhole_append hw hnf, Option.bind_some,
    scanFraction_append hf hne hnp, scanExponent_append he hr.noDigit hr.noMark]

end Numerals

/-! ### Strings -/

section Strings

variable {cs ds rest : List Char} {ps : List Piece}

theorem pieces_of_scanPieces (h : scanPieces cs = some (ps, rest)) :
    ∃ ds, Pieces ps ds ∧ cs = ds ++ '"' :: rest := by
  fun_induction scanPieces cs generalizing ps rest with
  | case1 => cases h
  | case2 cs =>
    obtain ⟨rfl, rfl⟩ := Prod.mk.inj (Option.some.inj h)
    exact ⟨[], .nil, rfl⟩
  | case3 a b c d cs u ps' rest' hs hu ih =>
    obtain ⟨rfl, rfl⟩ := Prod.mk.inj (Option.some.inj h)
    obtain ⟨ds, hp, rfl⟩ := ih hs
    exact ⟨_, .cons (.unit a b c d u hu) hp, rfl⟩
  | case4 => cases h
  | case5 e cs _ c ps' rest' hs hc ih =>
    obtain ⟨rfl, rfl⟩ := Prod.mk.inj (Option.some.inj h)
    obtain ⟨ds, hp, rfl⟩ := ih hs
    exact ⟨_, .cons (.escape e c hc) hp, rfl⟩
  | case6 => cases h
  | case7 => cases h
  | case8 c cs hq hu he hc ps' rest' hs ih =>
    obtain ⟨rfl, rfl⟩ := Prod.mk.inj (Option.some.inj h)
    have hb : c ≠ '\\' := by
      rintro rfl
      cases cs with
      | nil => cases hs
      | cons e cs => exact he e cs rfl rfl
    obtain ⟨ds, hp, rfl⟩ := ih hs
    exact ⟨_, .cons (.char c hq hb (Nat.le_of_not_lt hc)) hp, rfl⟩
  | case9 => cases h

theorem scanPieces_append (h : Pieces ps ds) (rest : List Char) :
    scanPieces (ds ++ '"' :: rest) = some (ps, rest) := by
  induction h with
  | nil => rfl
  | cons h hs ih =>
    rw [List.append_assoc]
    cases h with
    | char c hq hb hc =>
      rw [List.singleton_append]
      unfold scanPieces
      split
      · next heq => cases heq
      · next heq => exact absurd (List.cons.inj heq).1 hq
      · next heq => exact absurd (List.cons.inj heq).1 hb
      · next heq => exact absurd (List.cons.inj heq).1 hb
      · next heq =>
        obtain ⟨rfl, rfl⟩ := List.cons.inj heq
        rw [if_neg (Nat.not_lt_of_le hc), ih]
    | escape e c he =>
      rw [List.cons_append, List.singleton_append]
      unfold scanPieces
      split
      · next heq => cases heq
      · next heq => exact absurd (List.cons.inj heq).1 (by decide)
      · next heq =>
        obtain ⟨-, heq⟩ := List.cons.inj heq
        obtain ⟨rfl, -⟩ := List.cons.inj heq
        cases he
      · next heq =>
        obtain ⟨-, heq⟩ := List.cons.inj heq
        obtain ⟨rfl, rfl⟩ := List.cons.inj heq
        rw [he, ih]
      · next hn heq =>
        obtain ⟨rfl, rfl⟩ := List.cons.inj heq
        exact absurd rfl (hn e _ rfl)
    | unit a b c d u hu =>
      simp only [List.cons_append, List.nil_append]
      rw [scanPieces, hu, ih]

/-- The characters of a string are those that its pieces stand for. -/
theorem joinPieces_eq_some_iff : joinPieces ps = some cs ↔ Stands ps cs := by
  constructor
  · intro h
    fun_induction joinPieces ps generalizing cs with
    | case1 =>
      obtain rfl := Option.some.inj h
      exact .nil
    | case2 c ps ih =>
      obtain ⟨ds, hd, rfl⟩ := Option.map_eq_some_iff.mp h
      exact .char c (ih hd)
    | case3 u v ps hl ht ih =>
      obtain ⟨ds, hd, rfl⟩ := Option.map_eq_some_iff.mp h
      exact .pair u v hl ht (ih hd)
    | case4 => cases h
    | case5 => cases h
    | case6 u v ps hl ht ih =>
      obtain ⟨ds, hd, rfl⟩ := Option.map_eq_some_iff.mp h
      exact .unit u (by simpa using hl) (by simpa using ht) (ih hd)
    | case7 => cases h
    | case8 u ps hn hs ih =>
      obtain ⟨ds, hd, rfl⟩ := Option.map_eq_some_iff.mp h
      obtain ⟨hl, ht⟩ : isLead u = false ∧ isTrail u = false := by simpa using hs
      exact .unit u hl ht (ih hd)
  · intro h
    induction h with
    | nil => rfl
    | char c h ih => rw [joinPieces, ih, Option.map_some]
    | pair u v hl ht h ih => rw [joinPieces, if_pos hl, if_pos ht, ih, Option.map_some]
    | @unit u ps cs hl ht h ih =>
      unfold joinPieces
      split
      · next heq => cases heq
      · next heq => cases heq
      · next heq =>
        obtain ⟨hu, rfl⟩ := List.cons.inj heq
        obtain rfl := Piece.unit.inj hu
        rw [if_neg (by simp [hl]), if_neg (by simp [ht]), ih, Option.map_some]
      · next heq =>
        obtain ⟨hu, rfl⟩ := List.cons.inj heq
        obtain rfl := Piece.unit.inj hu
        rw [if_neg (by simp [hl, ht]), ih, Option.map_some]

theorem content_iff {content : Option String} :
    Content ps content ↔ content = (joinPieces ps).map String.ofList := by
  constructor
  · intro h
    cases h with
    | present h => rw [joinPieces_eq_some_iff.mpr h]; rfl
    | absent h =>
      cases hj : joinPieces ps with
      | none => rfl
      | some cs => exact absurd ⟨cs, joinPieces_eq_some_iff.mp hj⟩ h
  · rintro rfl
    cases hj : joinPieces ps with
    | none =>
      refine .absent ?_
      rintro ⟨cs, h⟩
      rw [joinPieces_eq_some_iff.mpr h] at hj
      cases hj
    | some cs => exact .present (joinPieces_eq_some_iff.mp hj)

end Strings

/-! ### Tokens -/

section Tokens

variable {c : Char} {cs ds rest : List Char} {t : Token} {ts : List Token}

theorem number_of_numberToken {negative : Bool}
    (h : numberToken (scanNumeral negative cs) = (t, rest)) (ht : t ≠ .junk) :
    ∃ (x : Numeral) (ds : List Char), t = .number x ∧ x.negative = negative ∧ x.Unsigned ds ∧
      cs = ds ++ rest := by
  cases hx : scanNumeral negative cs with
  | none =>
    rw [hx] at h
    exact absurd (Prod.mk.inj h).1.symm ht
  | some p =>
    obtain ⟨x, us⟩ := p
    rw [hx] at h
    obtain ⟨rfl, rfl⟩ := Prod.mk.inj h
    obtain ⟨hn, ds, hd, hcs⟩ := unsigned_of_scanNumeral hx
    exact ⟨x, ds, rfl, hn, hd, hcs⟩

theorem text_of_scanPieces (h : token '"' cs = (t, rest)) (ht : t ≠ .junk) :
    ∃ ds, t.Spelled ds ∧ '"' :: cs = ds ++ rest := by
  rw [token] at h
  cases hp : scanPieces cs with
  | none =>
    rw [hp] at h
    exact absurd (Prod.mk.inj h).1.symm ht
  | some p =>
    obtain ⟨ps, us⟩ := p
    rw [hp] at h
    obtain ⟨rfl, rfl⟩ := Prod.mk.inj h
    obtain ⟨ds, hd, rfl⟩ := pieces_of_scanPieces hp
    exact ⟨_, .text _ _ (.mk ps ds _ hd (content_iff.mpr rfl)), by simp⟩

theorem token_digit (hc : c.isDigit = true) (cs : List Char) :
    token c cs = numberToken (scanNumeral false (c :: cs)) := by
  unfold token
  split <;> first | exact absurd hc (by decide) | rw [if_pos hc]

theorem spelled_of_token (h : token c cs = (t, rest)) (ht : t ≠ .junk) :
    ∃ ds, t.Spelled ds ∧ c :: cs = ds ++ rest := by
  have of_eq : ∀ {u : Token} {ds us : List Char}, (u, us) = (t, rest) → u.Spelled ds →
      c :: cs = ds ++ us → ∃ ds, t.Spelled ds ∧ c :: cs = ds ++ rest := by
    rintro u ds us hp hu hcs
    obtain ⟨rfl, rfl⟩ := Prod.mk.inj hp
    exact ⟨ds, hu, hcs⟩
  by_cases hq : c = '"'
  · subst hq
    exact text_of_scanPieces h ht
  unfold token at h
  split at h
  · exact of_eq h .openBrace rfl
  · exact of_eq h .closeBrace rfl
  · exact of_eq h .openBracket rfl
  · exact of_eq h .closeBracket rfl
  · exact of_eq h .colon rfl
  · exact of_eq h .comma rfl
  · exact of_eq h .null rfl
  · exact of_eq h .true rfl
  · exact of_eq h .false rfl
  · exact absurd rfl hq
  · obtain ⟨x, ds, rfl, hn, hd, rfl⟩ := number_of_numberToken h ht
    exact ⟨_, .number x _ (.negative x ds hn hd), rfl⟩
  · split at h
    · obtain ⟨x, ds, rfl, hn, hd, hcs⟩ := number_of_numberToken h ht
      exact ⟨_, .number x _ (.positive x ds hn hd), hcs⟩
    · exact absurd (Prod.mk.inj h).1.symm ht

theorem Token.Spelled.ne_junk (h : t.Spelled ds) : t ≠ .junk := by
  rintro rfl
  cases h

theorem Numeral.Unsigned.exists_digit {x : Numeral} (h : x.Unsigned ds) :
    ∃ c cs, ds = c :: cs ∧ c.isDigit = true := by
  obtain ⟨hw, fs, es, -, -, rfl⟩ := h
  obtain ⟨c, cs, hc⟩ := List.exists_cons_of_ne_nil hw.ne_nil
  exact ⟨c, cs ++ (fs ++ es), by rw [hc, List.cons_append],
    hw.isDigit c (by rw [hc]; exact List.mem_cons_self ..)⟩

theorem isBlank_of_isDigit (h : c.isDigit = true) : isBlank c = false := by
  cases hb : isBlank c with
  | false => rfl
  | true =>
    simp only [isBlank, Bool.or_eq_true, beq_iff_eq] at hb
    rcases hb with ((rfl | rfl) | rfl) | rfl <;> exact absurd h (by decide)

/-- A token is read wherever it is spelled, unless it is a numeral that goes on. -/
theorem token_append (h : t.Spelled ds) (hr : ∀ x, t = .number x → Stops rest) :
    ∃ c cs, ds ++ rest = c :: cs ∧ isBlank c = false ∧ token c cs = (t, rest) := by
  cases h with
  | openBrace => exact ⟨_, _, rfl, by decide, rfl⟩
  | closeBrace => exact ⟨_, _, rfl, by decide, rfl⟩
  | openBracket => exact ⟨_, _, rfl, by decide, rfl⟩
  | closeBracket => exact ⟨_, _, rfl, by decide, rfl⟩
  | colon => exact ⟨_, _, rfl, by decide, rfl⟩
  | comma => exact ⟨_, _, rfl, by decide, rfl⟩
  | null => exact ⟨_, _, rfl, by decide, rfl⟩
  | true => exact ⟨_, _, rfl, by decide, rfl⟩
  | false => exact ⟨_, _, rfl, by decide, rfl⟩
  | number x cs h =>
    cases h with
    | positive _ hn h =>
      obtain ⟨c, us, rfl, hc⟩ := h.exists_digit
      refine ⟨c, us ++ rest, rfl, isBlank_of_isDigit hc, ?_⟩
      have := scanNumeral_append h (hr x rfl)
      rw [hn, List.cons_append] at this
      rw [token_digit hc, this, numberToken]
    | negative cs hn h =>
      refine ⟨'-', cs ++ rest, rfl, by decide, ?_⟩
      have := scanNumeral_append h (hr x rfl)
      rw [hn] at this
      rw [token, this, numberToken]
  | text content cs h =>
    obtain ⟨ps, cs, content, h, hc⟩ := h
    refine ⟨'"', cs ++ '"' :: rest, by simp, by decide, ?_⟩
    rw [token, scanPieces_append h, content_iff.mp hc]

end Tokens

/-! ### Texts -/

theorem tokens_of_blank {c : Char} (h : isBlank c = true) (cs : List Char) :
    tokens (c :: cs) = tokens cs := by
  rw [tokens, if_pos h]

theorem tokens_of_token {c : Char} {cs rest : List Char} {t : Token} (hb : isBlank c = false)
    (h : token c cs = (t, rest)) (ht : t ≠ .junk) : tokens (c :: cs) = t :: tokens rest := by
  rw [tokens, if_neg (by rw [hb]; exact Bool.false_ne_true), h]
  cases t <;> first | rfl | exact absurd rfl ht

theorem tokens_append_of_blanks {bs : List Char} (h : Blanks bs) (cs : List Char) :
    tokens (bs ++ cs) = tokens cs := by
  induction bs with
  | nil => rfl
  | cons b bs ih =>
    rw [List.cons_append, tokens_of_blank (h b (List.mem_cons_self ..))]
    exact ih fun c hc => h c (List.mem_cons_of_mem _ hc)

theorem Spells.cons_blank {c : Char} {cs : List Char} {ts : List Token} (hc : isBlank c = true)
    (h : Spells ts cs) : Spells ts (c :: cs) := by
  have blanks : ∀ {bs : List Char}, Blanks bs → Blanks (c :: bs) := by
    intro bs hb d hd
    rcases List.mem_cons.mp hd with rfl | hd
    · exact hc
    · exact hb d hd
  cases h with
  | nil hb => exact .nil (blanks hb)
  | cons hb ht h => exact .cons (blanks hb) ht h

/-- A text spells the tokens that it is cut into. -/
theorem spells_tokens {cs : List Char} (h : .junk ∉ tokens cs) : Spells (tokens cs) cs := by
  fun_induction tokens cs with
  | case1 => exact .nil blanks_nil
  | case2 c cs hb ih => exact (ih h).cons_blank hb
  | case3 c cs hb hj => exact absurd (List.mem_cons_self ..) h
  | case4 c cs hb hj ih =>
    have htoken : token c cs = ((token c cs).1, (token c cs).2) := rfl
    obtain ⟨ds, hd, hcs⟩ := spelled_of_token htoken hj
    have hrest := ih fun hm => h (List.mem_cons_of_mem _ hm)
    rw [hcs]
    exact Spells.cons blanks_nil hd hrest

/-- No numerals stand next to each other. -/
def Apart : List Token → Prop
  | [] => True
  | .number _ :: ts => (∀ x us, ts ≠ .number x :: us) ∧ Apart ts
  | _ :: ts => Apart ts

theorem Spells.stops {ts : List Token} {cs : List Char} (h : Spells ts cs)
    (ht : ∀ x us, ts ≠ .number x :: us) : Stops cs := by
  have blank : ∀ {c : Char}, isBlank c = true → goesOn c = false := by
    intro c hc
    simp only [isBlank, Bool.or_eq_true, beq_iff_eq] at hc
    rcases hc with ((rfl | rfl) | rfl) | rfl <;> decide
  have first : ∀ {bs ds : List Char}, Blanks bs → Stops ds → Stops (bs ++ ds) := by
    intro bs ds hb hd c us hc
    cases bs with
    | nil => exact hd c us hc
    | cons b bs =>
      obtain ⟨rfl, -⟩ := List.cons.inj hc
      exact blank (hb b (List.mem_cons_self ..))
  have char : ∀ {c : Char} {us : List Char}, goesOn c = false → Stops (c :: us) := by
    intro c us hc d vs hd
    obtain ⟨rfl, -⟩ := List.cons.inj hd
    exact hc
  cases h with
  | nil hb =>
    rw [← List.append_nil cs]
    exact first hb fun c us hc => absurd hc.symm (List.cons_ne_nil c us)
  | cons hb hspelled h =>
    refine first hb ?_
    cases hspelled with
    | number x cs hx => exact absurd rfl (ht x _)
    | text content cs hq =>
      obtain ⟨ps, cs, content, -, -⟩ := hq
      exact char (by decide)
    | _ => exact char (by decide)

/-- A text is cut into the tokens that it spells. -/
theorem Spells.tokens_eq {ts : List Token} {cs : List Char} (h : Spells ts cs) (ha : Apart ts) :
    tokens cs = ts := by
  induction h with
  | @nil bs hb => rw [← List.append_nil bs, tokens_append_of_blanks hb, tokens]
  | @cons t ts bs cs ds hb ht h ih =>
    have hrest : Apart ts := by
      cases t <;> first | exact ha | exact ha.2
    have hstops : ∀ x, t = .number x → Stops ds := by
      rintro x rfl
      exact h.stops ha.1
    obtain ⟨c, us, hc, hblank, htoken⟩ := token_append ht hstops
    rw [tokens_append_of_blanks hb, hc, tokens_of_token hblank htoken ht.ne_junk, ih hrest]

/-! ### Values -/

theorem not_junk_mem_joined {tss : List (List Token)} (h : ∀ ts ∈ tss, .junk ∉ ts) (first : Bool) :
    .junk ∉ joined first tss := by
  induction tss generalizing first with
  | nil => exact List.not_mem_nil
  | cons ts tss ih =>
    have hts := h ts (List.mem_cons_self ..)
    have hrest := ih (fun us hus => h us (List.mem_cons_of_mem _ hus)) false
    cases first <;> simp [joined, hts, hrest]

theorem not_junk_mem_tokens (v : Value) : .junk ∉ v.tokens := by
  induction v using Value.parts_induction with
  | array items ih =>
    have hitems : ∀ ts ∈ items.map Value.tokens, .junk ∉ ts := by
      intro ts hts
      obtain ⟨v, hv, rfl⟩ := List.mem_map.mp hts
      exact ih v hv
    simp [not_junk_mem_joined hitems]
  | object members ih =>
    have hmembers : ∀ ts ∈ members.map Value.memberTokens, .junk ∉ ts := by
      intro ts hts
      obtain ⟨m, hm, rfl⟩ := List.mem_map.mp hts
      simp [Value.memberTokens, ih m hm]
    simp [not_junk_mem_joined hmembers]
  | _ => simp [Value.tokens]

/-- What follows a value does not begin with a numeral. -/
structure Closing (ts : List Token) : Prop where
  apart : Apart ts
  noNumber : ∀ x us, ts ≠ .number x :: us

theorem closing_cons {t : Token} {us : List Token} (ht : ∀ x, t ≠ .number x) (hu : Closing us) :
    Closing (t :: us) where
  apart := by
    cases t with
    | number x => exact absurd rfl (ht x)
    | _ => exact hu.apart
  noNumber x vs h := ht x (List.cons.inj h).1

theorem closing_joined {tss : List (List Token)}
    (h : ∀ ts ∈ tss, ∀ us, Closing us → Apart (ts ++ us)) {us : List Token} (hu : Closing us) :
    Closing (joined false tss ++ us) := by
  induction tss with
  | nil => exact hu
  | cons ts tss ih =>
    have hrest := ih fun us hus => h us (List.mem_cons_of_mem _ hus)
    refine ⟨?_, fun x vs hx => ?_⟩
    · simp only [joined, Bool.false_eq_true, if_false, List.append_assoc]
      exact h ts (List.mem_cons_self ..) _ hrest
    · cases hx

theorem apart_joined {tss : List (List Token)}
    (h : ∀ ts ∈ tss, ∀ us, Closing us → Apart (ts ++ us)) {us : List Token} (hu : Closing us) :
    Apart (joined true tss ++ us) := by
  cases tss with
  | nil => exact hu.apart
  | cons ts tss =>
    simp only [joined, if_true, List.nil_append, List.append_assoc]
    exact h ts (List.mem_cons_self ..) _
      (closing_joined (fun us hus => h us (List.mem_cons_of_mem _ hus)) hu)

theorem apart_tokens (v : Value) (us : List Token) (hu : Closing us) : Apart (v.tokens ++ us) := by
  induction v using Value.parts_induction generalizing us with
  | number x =>
    rw [Value.tokens]
    exact ⟨hu.noNumber, hu.apart⟩
  | array items ih =>
    have hitems : ∀ ts ∈ items.map Value.tokens, ∀ us, Closing us → Apart (ts ++ us) := by
      intro ts hts
      obtain ⟨v, hv, rfl⟩ := List.mem_map.mp hts
      exact ih v hv
    have hclose : Closing (.closeBracket :: us) := closing_cons (by intro x hx; cases hx) hu
    simpa [Apart] using apart_joined hitems hclose
  | object members ih =>
    have hmembers : ∀ ts ∈ members.map Value.memberTokens, ∀ us, Closing us → Apart (ts ++ us) := by
      intro ts hts
      obtain ⟨m, hm, rfl⟩ := List.mem_map.mp hts
      exact ih m hm
    have hclose : Closing (.closeBrace :: us) := closing_cons (by intro x hx; cases hx) hu
    simpa [Apart] using apart_joined hmembers hclose
  | _ =>
    rw [Value.tokens]
    exact hu.apart

/-- A text is cut into the tokens of a value exactly if it spells them. -/
theorem tokens_eq_iff_spells {text : List Char} {v : Value} :
    tokens text = v.tokens ↔ Spells v.tokens text := by
  constructor
  · intro h
    have := spells_tokens (h ▸ not_junk_mem_tokens v)
    rwa [h] at this
  · intro h
    have hnil : Closing [] := ⟨trivial, fun x us => (List.cons_ne_nil _ us).symm⟩
    exact h.tokens_eq (by simpa using apart_tokens v [] hnil)

end GatedLog.Json
