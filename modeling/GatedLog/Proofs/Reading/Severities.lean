import GatedLog.Proofs.Text.Cores
import GatedLog.Proofs.Text.Figures

/-!
# Texts for severities

What each text is read as where a severity is wanted (`Severity.Reads`): the core of a text is a code
if it is an integer literal of 32 bits, and else a name in any ASCII case. The kinds of text do not
overlap, and every text is of one of them (`Severity.reads_texts`).
-/

namespace GatedLog.Severity

open Text

/-- What is read from a text. -/
inductive Reads (text : String) : Except Rejection Severity → Prop
  | code {body : List Char} {s : Severity} (hbody : Core text.toList body)
    (h : Literal body s.code.toInt) : Reads text (.ok s)
  | outside {body : List Char} {n : Int32} (hbody : Core text.toList body)
    (h : Literal body n.toInt) (hn : n.toInt < 0 ∨ 4 < n.toInt) : Reads text (.error (.severityCode n))
  | name {body w : List Char} {s : Severity} (hbody : Core text.toList body)
    (h : ∀ n : Int32, ¬ Literal body n.toInt) (hw : w ∈ s.words) (hs : SameWord body w) :
    Reads text (.ok s)
  | unknown {body : List Char} (hbody : Core text.toList body)
    (h : ∀ n : Int32, ¬ Literal body n.toInt) (hw : ∀ s : Severity, ∀ w ∈ s.words, ¬ SameWord body w) :
    Reads text (.error (.unknownSeverity text))

variable {text : String} {body : List Char} {s : Severity}

/-! ### Codes -/

theorem ofCode?_eq_none_iff {n : Int32} : ofCode? n = none ↔ n.toInt < 0 ∨ 4 < n.toInt := by
  have hcodes : ofCode? n = none ↔ ∀ s : Severity, s.code.toInt ≠ n.toInt := by
    rw [Option.eq_none_iff_forall_ne_some]
    refine forall_congr' fun s => not_congr ?_
    rw [ofCode?_eq_some, Int32.toInt_inj]
  rw [hcodes]
  constructor
  · intro h
    have htrace : (0 : Int) ≠ n.toInt := h trace
    have hdebug : (1 : Int) ≠ n.toInt := h debug
    have hinfo : (2 : Int) ≠ n.toInt := h info
    have hwarning : (3 : Int) ≠ n.toInt := h warning
    have herror : (4 : Int) ≠ n.toInt := h error
    omega
  · intro h s
    have hrange : 0 ≤ s.code.toInt ∧ s.code.toInt ≤ 4 := by cases s <;> decide
    omega

theorem ofCode_eq_ok_iff {n : Int32} : ofCode n = .ok s ↔ s.code = n := by
  rw [← ofCode?_eq_some, ofCode]
  cases ofCode? n <;> simp

theorem ofCode_of_outside {n : Int32} (hn : n.toInt < 0 ∨ 4 < n.toInt) :
    ofCode n = .error (.severityCode n) := by
  rw [ofCode, ofCode?_eq_none_iff.mpr hn]

/-! ### Texts -/

theorem forall_not_literal_iff : (∀ n : Int32, ¬ Literal body n.toInt) ↔ readInt32 body = none := by
  rw [Option.eq_none_iff_forall_ne_some]
  exact forall_congr' fun n => not_congr readInt32_eq_some_iff.symm

theorem mem_words_iff {w : List Char} (hw : w ∈ s.words) :
    SameWord body w ↔ body.map Char.toLower = w :=
  sameWord_of_isLower (isLower_of_mem_words hw).2

theorem ofWord?_map_toLower :
    ofWord? (body.map Char.toLower) = some s ↔ ∃ w ∈ s.words, SameWord body w := by
  rw [ofWord?_eq_some]
  constructor
  · intro h
    exact ⟨_, h, (mem_words_iff h).mpr rfl⟩
  · rintro ⟨w, hw, hs⟩
    exact (mem_words_iff hw).mp hs ▸ hw

/-- The core of a text decides what is read from it. -/
theorem read_of_core (hbody : Core text.toList body) :
    read text = match readInt32 body with
      | some n => ofCode n
      | none => match ofWord? (body.map Char.toLower) with
        | some s => .ok s
        | none => .error (.unknownSeverity text) := by
  obtain rfl := core_iff.mp hbody
  rfl

theorem read_of_literal {n : Int32} (hbody : Core text.toList body) (h : Literal body n.toInt) :
    read text = ofCode n := by
  rw [read_of_core hbody, readInt32_eq_some_iff.mpr h]

theorem read_of_name {w : List Char} (hbody : Core text.toList body) (hint : readInt32 body = none)
    (hw : w ∈ s.words) (hs : SameWord body w) : read text = .ok s := by
  rw [read_of_core hbody, hint]
  simp only [ofWord?_map_toLower.mpr ⟨w, hw, hs⟩]

theorem read_of_unknown (hbody : Core text.toList body) (hint : readInt32 body = none)
    (hw : ∀ s : Severity, ∀ w ∈ s.words, ¬ SameWord body w) :
    read text = .error (.unknownSeverity text) := by
  have hword : ofWord? (body.map Char.toLower) = none := by
    rw [Option.eq_none_iff_forall_ne_some]
    intro s hs
    obtain ⟨w, hmem, hsame⟩ := ofWord?_map_toLower.mp hs
    exact hw s w hmem hsame
  rw [read_of_core hbody, hint]
  simp only [hword]

theorem Reads.read_eq {r : Except Rejection Severity} (h : Reads text r) : read text = r := by
  cases h with
  | code hbody h => rw [read_of_literal hbody h, ofCode_eq_ok_iff]
  | outside hbody h hn => rw [read_of_literal hbody h, ofCode_of_outside hn]
  | name hbody h hw hs => exact read_of_name hbody (forall_not_literal_iff.mp h) hw hs
  | unknown hbody h hw => exact read_of_unknown hbody (forall_not_literal_iff.mp h) hw

theorem reads_read (text : String) : Reads text (read text) := by
  have hbody := core_trim text.toList
  cases hint : readInt32 (trim text.toList) with
  | some n =>
    have hliteral := readInt32_eq_some_iff.mp hint
    rw [read_of_literal hbody hliteral]
    cases hcode : ofCode? n with
    | some s =>
      obtain rfl := ofCode?_eq_some.mp hcode
      rw [ofCode_eq_ok_iff.mpr rfl]
      exact .code hbody hliteral
    | none =>
      have hn := ofCode?_eq_none_iff.mp hcode
      rw [ofCode_of_outside hn]
      exact .outside hbody hliteral hn
  | none =>
    by_cases hword : ∃ s : Severity, ∃ w ∈ s.words, SameWord (trim text.toList) w
    · obtain ⟨s, w, hw, hs⟩ := hword
      rw [read_of_name hbody hint hw hs]
      exact .name hbody (forall_not_literal_iff.mpr hint) hw hs
    · have hno : ∀ s : Severity, ∀ w ∈ s.words, ¬ SameWord (trim text.toList) w :=
        fun s w hw hs => hword ⟨s, w, hw, hs⟩
      rw [read_of_unknown hbody hint hno]
      exact .unknown hbody (forall_not_literal_iff.mpr hint) hno

theorem read_eq_iff {r : Except Rejection Severity} : read text = r ↔ Reads text r :=
  ⟨fun h => h ▸ reads_read text, Reads.read_eq⟩

/-! ### Codes between blanks -/

variable {l r : List Char} {i : Int}

theorem core_within (hl : Blank l) (hr : Blank r) (h : Literal body i) :
    Core (within l body r).toList body := by
  rw [within, String.toList_ofList, core_iff]
  exact trim_surrounded hl (fun c hc => (of_isNumeral (h.mem c hc)).1) hr

/-- A literal is no name, in whichever case. -/
theorem not_sameWord_of_literal (h : Literal body i) {w : List Char} (hw : w ∈ s.words) :
    ¬ SameWord body w := by
  intro hs
  obtain ⟨c, cs, rfl⟩ := List.exists_cons_of_ne_nil h.ne_nil
  have hmem := List.mem_cons_self (a := c) (l := cs)
  obtain ⟨-, hdigit, hminus, hplus, -⟩ :=
    of_isLower_toLower (hs.isLower (isLower_of_mem_words hw).2 c hmem)
  rcases h.mem c hmem with hc | hc | hc
  · exact hminus hc
  · exact hplus hc
  · rw [hdigit] at hc
    cases hc

theorem read_within_eq_ok_iff (hl : Blank l) (hr : Blank r) (h : Literal body i) :
    read (within l body r) = .ok s ↔ s.code.toInt = i := by
  have hbody := core_within hl hr h
  constructor
  · intro hread
    cases read_eq_iff.mp hread with
    | code hbody' hs =>
      obtain rfl := (core_iff.mp hbody').symm.trans (core_iff.mp hbody)
      exact hs.unique h
    | name hbody' hno hw hs =>
      obtain rfl := (core_iff.mp hbody').symm.trans (core_iff.mp hbody)
      exact absurd hs (not_sameWord_of_literal h hw)
  · rintro rfl
    exact (Reads.code hbody h).read_eq

theorem read_within_of_long (hl : Blank l) (hr : Blank r) (h : Literal body i)
    (hi : i < -2 ^ 31 ∨ 2 ^ 31 ≤ i) :
    read (within l body r) = .error (.unknownSeverity (within l body r)) := by
  have hint : readInt32 body = none :=
    readInt32_eq_none_iff.mpr fun j hj => h.unique hj ▸ hi
  exact (Reads.unknown (core_within hl hr h) (forall_not_literal_iff.mpr hint)
    fun s w hw => not_sameWord_of_literal h hw).read_eq

/-- What is read has no character that is not ASCII. -/
theorem read_of_foreign (hbody : Core text.toList body) {c : Char} (hc : c ∈ body)
    (hforeign : 128 ≤ c.toNat) : read text = .error (.unknownSeverity text) := by
  have hliteral : ∀ n : Int32, ¬ Literal body n.toInt := fun n hn => by
    rcases hn.mem c hc with rfl | rfl | hdigit
    · exact absurd hforeign (by decide)
    · exact absurd hforeign (by decide)
    · exact absurd (toNat_lt_of_isDigit hdigit) (by omega)
  have hword : ∀ s : Severity, ∀ w ∈ s.words, ¬ SameWord body w := fun s w hw hs => by
    have hc' := hs.isLower (isLower_of_mem_words hw).2 c hc
    exact absurd (toNat_lt_of_isLower_toLower hc') (by omega)
  exact (Reads.unknown hbody hliteral hword).read_eq

/-! ### The language -/

/-- Which texts are severities, and which. -/
structure Language : Prop where
  /-- A text is read as the code that its core is, or else as the name that it is. -/
  reads (text : String) (r : Except Rejection Severity) : read text = r ↔ Reads text r
  /-- A literal between blanks, with a sign or none and with any number of zeros, is the code that its
  integer is. -/
  plain {l r cs : List Char} {n : Nat} (hl : Blank l) (hr : Blank r) (h : Numeral cs n) (k : Nat)
    (s : Severity) :
    read (within l (List.replicate k '0' ++ cs) r) = .ok s ↔ s.code.toInt = n
  plus {l r cs : List Char} {n : Nat} (hl : Blank l) (hr : Blank r) (h : Numeral cs n) (k : Nat)
    (s : Severity) :
    read (within l ('+' :: (List.replicate k '0' ++ cs)) r) = .ok s ↔ s.code.toInt = n
  minus {l r cs : List Char} {n : Nat} (hl : Blank l) (hr : Blank r) (h : Numeral cs n) (k : Nat)
    (s : Severity) :
    read (within l ('-' :: (List.replicate k '0' ++ cs)) r) = .ok s ↔ s.code.toInt = -n
  /-- A literal of more than 32 bits is an unknown name, not a code. -/
  long {l r body : List Char} {i : Int} (hl : Blank l) (hr : Blank r) (h : Literal body i)
    (hi : i < -2 ^ 31 ∨ 2 ^ 31 ≤ i) :
    read (within l body r) = .error (.unknownSeverity (within l body r))
  /-- No letter and no digit outside ASCII matches. -/
  foreign {text : String} {body : List Char} (hbody : Core text.toList body) {c : Char} (hc : c ∈ body)
    (hforeign : 128 ≤ c.toNat) : read text = .error (.unknownSeverity text)

theorem reads_texts : Language where
  reads _ _ := read_eq_iff
  plain hl hr h k _ := read_within_eq_ok_iff hl hr (.plain (h.zeros k))
  plus hl hr h k _ := read_within_eq_ok_iff hl hr (.plus (h.zeros k))
  minus hl hr h k _ := read_within_eq_ok_iff hl hr (.minus (h.zeros k))
  long hl hr h hi := read_within_of_long hl hr h hi
  foreign hbody _ hc hforeign := read_of_foreign hbody hc hforeign

/-- A minus sign in front of zeros does no harm. -/
example : read "\u00A0-000\n" = .ok trace := by decide

end GatedLog.Severity
