import GatedLog.Json.Numeral

/-!
# Tokens of JSON

A text is cut into tokens from left to right. The first place that starts no token yields the token
`junk`, and nothing after it is read. A string is a token as soon as its escapes are well formed;
its content is absent when it holds half of a surrogate pair.
-/

namespace GatedLog.Json

/-- A token; blanks stand between tokens and yield none. -/
inductive Token where
  | openBrace
  | closeBrace
  | openBracket
  | closeBracket
  | colon
  | comma
  | null
  | boolean (b : Bool)
  | number (n : Numeral)
  | text (content : Option String)
  | junk
  deriving DecidableEq, Repr

/-- A character of a string: itself, or a 16-bit unit in hexadecimal. -/
inductive Piece where
  | char (c : Char)
  | unit (u : Nat)
  deriving DecidableEq, Repr

/-- The four blanks of JSON. -/
def isBlank (c : Char) : Bool := c == ' ' || c == '\t' || c == '\n' || c == '\r'

/-- The character that a one-letter escape stands for. -/
def escaped? : Char → Option Char
  | '"' => some '"'
  | '\\' => some '\\'
  | '/' => some '/'
  | 'b' => some '\x08'
  | 'f' => some '\x0c'
  | 'n' => some '\n'
  | 'r' => some '\r'
  | 't' => some '\t'
  | _ => none

/-- The unit that four hexadecimal digits stand for. -/
def unit? (a b c d : Char) : Option Nat := do
  let a ← Text.hexValue? a
  let b ← Text.hexValue? b
  let c ← Text.hexValue? c
  let d ← Text.hexValue? d
  some (((a * 16 + b) * 16 + c) * 16 + d)

/-- Reads the pieces of a string up to its closing quote; control characters must be escaped. -/
def scanPieces : List Char → Option (List Piece × List Char)
  | [] => none
  | '"' :: cs => some ([], cs)
  | '\\' :: 'u' :: a :: b :: c :: d :: cs =>
    match unit? a b c d, scanPieces cs with
    | some u, some (ps, rest) => some (.unit u :: ps, rest)
    | _, _ => none
  | '\\' :: e :: cs =>
    match escaped? e, scanPieces cs with
    | some c, some (ps, rest) => some (.char c :: ps, rest)
    | _, _ => none
  | c :: cs =>
    if c.toNat < 0x20 then none
    else
      match scanPieces cs with
      | some (ps, rest) => some (.char c :: ps, rest)
      | none => none

/-- The first half of a surrogate pair. -/
def isLead (u : Nat) : Bool := 0xD800 ≤ u && u < 0xDC00

/-- The second half of a surrogate pair. -/
def isTrail (u : Nat) : Bool := 0xDC00 ≤ u && u < 0xE000

/-- The characters of a string, if every half of a surrogate pair has its partner. -/
def joinPieces : List Piece → Option (List Char)
  | [] => some []
  | .char c :: ps => (joinPieces ps).map (c :: ·)
  | .unit u :: .unit v :: ps =>
    if isLead u then
      if isTrail v then
        (joinPieces ps).map (Char.ofNat (0x10000 + (u - 0xD800) * 0x400 + (v - 0xDC00)) :: ·)
      else none
    else if isTrail u then none
    else (joinPieces (.unit v :: ps)).map (Char.ofNat u :: ·)
  | .unit u :: ps => if isLead u || isTrail u then none else (joinPieces ps).map (Char.ofNat u :: ·)

/-- Reads the digits before the point; a zero stands alone. -/
def scanWhole : List Char → Option (List Char × List Char)
  | '0' :: c :: cs => if c.isDigit then none else some (['0'], c :: cs)
  | cs =>
    let digits := cs.takeWhile Char.isDigit
    if digits.isEmpty then none else some (digits, cs.dropWhile Char.isDigit)

/-- Reads a point and the digits after it, if there is a point. -/
def scanFraction : List Char → Option (List Char × List Char)
  | '.' :: cs =>
    let digits := cs.takeWhile Char.isDigit
    if digits.isEmpty then none else some (digits, cs.dropWhile Char.isDigit)
  | cs => some ([], cs)

/-- The sign of an exponent: whether it is negative. -/
def scanSign : List Char → Bool × List Char
  | '-' :: cs => (true, cs)
  | '+' :: cs => (false, cs)
  | cs => (false, cs)

/-- Reads an exponent, if there is one. -/
def scanExponent : List Char → Option (Option (Bool × List Char) × List Char)
  | [] => some (none, [])
  | c :: cs =>
    if c == 'e' || c == 'E' then
      let (down, cs) := scanSign cs
      let digits := cs.takeWhile Char.isDigit
      if digits.isEmpty then none else some (some (down, digits), cs.dropWhile Char.isDigit)
    else some (none, c :: cs)

/-- Reads a numeral after its sign. -/
def scanNumeral (negative : Bool) (cs : List Char) : Option (Numeral × List Char) := do
  let (whole, cs) ← scanWhole cs
  let (fraction, cs) ← scanFraction cs
  let (exponent, cs) ← scanExponent cs
  some (⟨negative, whole, fraction, exponent⟩, cs)

/-- A numeral as a token. -/
def numberToken : Option (Numeral × List Char) → Token × List Char
  | some (n, rest) => (.number n, rest)
  | none => (.junk, [])

/-- Reads the token that starts at a character which is no blank. -/
def token : Char → List Char → Token × List Char
  | '{', cs => (.openBrace, cs)
  | '}', cs => (.closeBrace, cs)
  | '[', cs => (.openBracket, cs)
  | ']', cs => (.closeBracket, cs)
  | ':', cs => (.colon, cs)
  | ',', cs => (.comma, cs)
  | 'n', 'u' :: 'l' :: 'l' :: cs => (.null, cs)
  | 't', 'r' :: 'u' :: 'e' :: cs => (.boolean true, cs)
  | 'f', 'a' :: 'l' :: 's' :: 'e' :: cs => (.boolean false, cs)
  | '"', cs =>
    match scanPieces cs with
    | some (ps, rest) => (.text ((joinPieces ps).map String.ofList), rest)
    | none => (.junk, [])
  | '-', cs => numberToken (scanNumeral true cs)
  | c, cs => if c.isDigit then numberToken (scanNumeral false (c :: cs)) else (.junk, [])

theorem length_scanPieces {cs rest : List Char} {ps : List Piece}
    (h : scanPieces cs = some (ps, rest)) : rest.length < cs.length := by
  fun_induction scanPieces cs generalizing ps rest with
  | case1 => simp at h
  | case2 cs =>
    simp only [Option.some.injEq, Prod.mk.injEq] at h
    simp [← h.2]
  | case3 a b c d cs u ps' rest' hs hu ih =>
    have := ih hs
    simp only [Option.some.injEq, Prod.mk.injEq] at h
    simp only [← h.2, List.length_cons]
    omega
  | case4 => simp at h
  | case5 e cs _ c ps' rest' hs hc ih =>
    have := ih hs
    simp only [Option.some.injEq, Prod.mk.injEq] at h
    simp only [← h.2, List.length_cons]
    omega
  | case6 => simp at h
  | case7 => simp at h
  | case8 c cs _ _ _ _ ps' rest' hs ih =>
    have := ih hs
    simp only [Option.some.injEq, Prod.mk.injEq] at h
    simp only [← h.2, List.length_cons]
    omega
  | case9 => simp at h

theorem length_dropWhile (p : Char → Bool) (cs : List Char) :
    (cs.dropWhile p).length ≤ cs.length := (List.dropWhile_sublist p).length_le

theorem length_dropWhile_lt {p : Char → Bool} {cs : List Char}
    (h : (cs.takeWhile p).isEmpty = false) : (cs.dropWhile p).length < cs.length := by
  cases cs with
  | nil => simp at h
  | cons c cs =>
    by_cases hc : p c
    · simpa [List.dropWhile_cons, hc] using Nat.lt_succ_of_le (length_dropWhile p cs)
    · simp [hc] at h

theorem length_scanWhole {cs ds rest : List Char} (h : scanWhole cs = some (ds, rest)) :
    rest.length < cs.length := by
  unfold scanWhole at h
  split at h
  · split at h
    · simp at h
    · simp only [Option.some.injEq, Prod.mk.injEq] at h
      simp [← h.2]
  · simp only at h
    split at h
    · simp at h
    · rename_i he
      simp only [Option.some.injEq, Prod.mk.injEq] at h
      rw [← h.2]
      exact length_dropWhile_lt (by simpa using he)

theorem length_scanFraction {cs ds rest : List Char} (h : scanFraction cs = some (ds, rest)) :
    rest.length ≤ cs.length := by
  unfold scanFraction at h
  split at h
  · simp only at h
    split at h
    · simp at h
    · simp only [Option.some.injEq, Prod.mk.injEq] at h
      rw [← h.2, List.length_cons]
      exact Nat.le_succ_of_le (length_dropWhile _ _)
  · simp only [Option.some.injEq, Prod.mk.injEq] at h
    exact Nat.le_of_eq (congrArg List.length h.2).symm

theorem length_scanSign (cs : List Char) : (scanSign cs).2.length ≤ cs.length := by
  unfold scanSign
  split <;> simp

theorem length_scanExponent {cs rest : List Char} {e : Option (Bool × List Char)}
    (h : scanExponent cs = some (e, rest)) : rest.length ≤ cs.length := by
  unfold scanExponent at h
  split at h
  · simp_all
  · split at h
    · simp only at h
      split at h
      · simp at h
      · simp only [Option.some.injEq, Prod.mk.injEq] at h
        rw [← h.2, List.length_cons]
        exact Nat.le_succ_of_le (Nat.le_trans (length_dropWhile _ _) (length_scanSign _))
    · simp only [Option.some.injEq, Prod.mk.injEq] at h
      exact Nat.le_of_eq (congrArg List.length h.2).symm

theorem length_scanNumeral {negative : Bool} {cs rest : List Char} {n : Numeral}
    (h : scanNumeral negative cs = some (n, rest)) : rest.length < cs.length := by
  simp only [scanNumeral, bind, Option.bind_eq_some_iff, Prod.exists] at h
  obtain ⟨w, cs₁, h₁, f, cs₂, h₂, e, cs₃, h₃, h⟩ := h
  simp only [Option.some.injEq, Prod.mk.injEq] at h
  have := length_scanWhole h₁
  have := length_scanFraction h₂
  have := length_scanExponent h₃
  rw [← h.2]
  omega

theorem length_numberToken {negative : Bool} {cs : List Char} {n : Nat} (h : cs.length ≤ n + 1) :
    (numberToken (scanNumeral negative cs)).2.length ≤ n := by
  cases hs : scanNumeral negative cs with
  | none => simp [numberToken]
  | some p =>
    obtain ⟨n, rest⟩ := p
    have := length_scanNumeral hs
    simp only [numberToken]
    omega

theorem length_token (c : Char) (cs : List Char) : (token c cs).2.length ≤ cs.length := by
  unfold token
  split <;> try (simp only [List.length_cons]; omega)
  · split
    · rename_i h
      exact Nat.le_of_lt (length_scanPieces h)
    · simp
  · exact length_numberToken (Nat.le_succ _)
  · split
    · exact length_numberToken (by simp)
    · simp

/-- The tokens of a text. -/
def tokens : List Char → List Token
  | [] => []
  | c :: cs =>
    if isBlank c then tokens cs
    else
      match (token c cs).1 with
      | .junk => [.junk]
      | t => t :: tokens (token c cs).2
termination_by cs => cs.length
decreasing_by
  · simp
  · have := length_token c cs
    simp only [List.length_cons]
    omega

end GatedLog.Json
