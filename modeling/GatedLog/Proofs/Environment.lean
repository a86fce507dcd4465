import Mathlib.Data.List.TakeWhile
import GatedLog.Environment

/-!
# Spellings

Which texts are accepted for a severity and for a component, and which lists of them for several
components. Blank ends and the case of letters do not matter, a severity may also be given by its
code, and hyphens and underscores in the name of a component do not count. Entries of a list that
are blank are passed over (`readComponents_eq_ok_iff`).
-/

namespace GatedLog

namespace Text

/-- Only blank characters. -/
def Blank (cs : List Char) : Prop := ∀ c ∈ cs, isBlank c = true

theorem dropWhile_of_blank {cs : List Char} (h : Blank cs) : cs.dropWhile isBlank = [] :=
  List.dropWhile_eq_nil_iff.mpr h

theorem dropWhile_of_no_blank {cs : List Char} (h : ∀ c ∈ cs, isBlank c = false) :
    cs.dropWhile isBlank = cs := by
  cases cs with
  | nil => rfl
  | cons c cs =>
    have hc := h c (List.mem_cons_self ..)
    rw [List.dropWhile_cons_of_neg (by simp [hc])]

theorem blank_reverse {cs : List Char} (h : Blank cs) : Blank cs.reverse := fun c hc =>
  h c (List.mem_reverse.mp hc)

/-- What is trimmed off a text are blank ends. -/
theorem exists_surrounded (cs : List Char) : ∃ l r, cs = l ++ trim cs ++ r ∧ Blank l ∧ Blank r := by
  have hend : ∀ ds : List Char, ∃ r, ds = trimEnd ds ++ r ∧ Blank r := by
    intro ds
    refine ⟨(ds.reverse.takeWhile isBlank).reverse, ?_, ?_⟩
    · rw [trimEnd, ← List.reverse_append, List.takeWhile_append_dropWhile, List.reverse_reverse]
    · exact blank_reverse fun c hc => List.mem_takeWhile_imp hc
  obtain ⟨r, hr, hblank⟩ := hend (cs.dropWhile isBlank)
  refine ⟨cs.takeWhile isBlank, r, ?_, fun c hc => List.mem_takeWhile_imp hc, hblank⟩
  rw [trim, List.append_assoc, ← hr, List.takeWhile_append_dropWhile]

theorem trim_eq_nil_iff {cs : List Char} : trim cs = [] ↔ Blank cs := by
  constructor
  · intro h
    obtain ⟨l, r, hcs, hl, hr⟩ := exists_surrounded cs
    rw [h, List.append_nil] at hcs
    intro c hc
    rw [hcs] at hc
    rcases List.mem_append.mp hc with hc | hc
    · exact hl c hc
    · exact hr c hc
  · intro h
    rw [trim, dropWhile_of_blank h]
    rfl

/-- Blank ends do not count, whatever is between them. -/
theorem trim_padded {l r : List Char} (hl : Blank l) (hr : Blank r) (cs : List Char) :
    trim (l ++ cs ++ r) = trim cs := by
  by_cases hcs : Blank cs
  · have hall : Blank (l ++ cs ++ r) :=
      List.forall_mem_append.mpr ⟨List.forall_mem_append.mpr ⟨hl, hcs⟩, hr⟩
    rw [trim_eq_nil_iff.mpr hall, trim_eq_nil_iff.mpr hcs]
  · have hne : cs.dropWhile isBlank ≠ [] := fun h => hcs (List.dropWhile_eq_nil_iff.mp h)
    rw [trim, trim, List.append_assoc, List.dropWhile_append_of_pos hl, List.dropWhile_append,
      if_neg (by simpa using hne), trimEnd, List.reverse_append,
      List.dropWhile_append_of_pos (blank_reverse hr), trimEnd]

/-- A text without blanks is what is left of it between blank ends. -/
theorem trim_surrounded {l body r : List Char} (hl : Blank l) (hb : ∀ c ∈ body, isBlank c = false)
    (hr : Blank r) : trim (l ++ body ++ r) = body := by
  have hback : ∀ c ∈ body.reverse, isBlank c = false := fun c hc => hb c (List.mem_reverse.mp hc)
  rw [trim_padded hl hr, trim, dropWhile_of_no_blank hb, trimEnd, dropWhile_of_no_blank hback,
    List.reverse_reverse]

theorem toNat_of_isLower {c : Char} (h : c.isLower = true) : 97 ≤ c.toNat ∧ c.toNat ≤ 122 := by
  have hbounds : (decide (97 ≤ c.val) && decide (c.val ≤ 122)) = true := h
  simp only [Bool.and_eq_true, decide_eq_true_eq] at hbounds
  exact ⟨UInt32.le_iff_toNat_le.mp hbounds.1, UInt32.le_iff_toNat_le.mp hbounds.2⟩

theorem toNat_of_isLower_toLower {c : Char} (h : c.toLower.isLower = true) :
    65 ≤ c.toNat ∧ c.toNat ≤ 90 ∨ 97 ≤ c.toNat ∧ c.toNat ≤ 122 := by
  unfold Char.toLower at h
  split at h
  · next hupper =>
    left
    have hlow := UInt32.le_iff_toNat_le.mp hupper.1
    have hhigh := UInt32.le_iff_toNat_le.mp hupper.2
    exact ⟨hlow, hhigh⟩
  · exact .inr (toNat_of_isLower h)

/-- A letter is neither blank nor a sign, a digit or a comma. -/
theorem of_isLower_toLower {c : Char} (h : c.toLower.isLower = true) :
    isBlank c = false ∧ c.isDigit = false ∧ c ≠ '-' ∧ c ≠ '+' ∧ c ≠ ',' := by
  have hn := toNat_of_isLower_toLower h
  have hblank : isBlank c = false := by
    simp only [isBlank, Bool.or_eq_false_iff, Bool.and_eq_false_iff, decide_eq_false_iff_not,
      beq_eq_false_iff_ne]
    omega
  have hdigit : c.isDigit = false := by
    rw [Bool.eq_false_iff]
    intro hd
    simp only [Char.isDigit, Bool.and_eq_true, decide_eq_true_eq] at hd
    have hhigh : c.toNat ≤ 57 := UInt32.le_iff_toNat_le.mp hd.2
    omega
  refine ⟨hblank, hdigit, ?_, ?_, ?_⟩ <;> rintro rfl <;> revert hn <;> decide

/-- A digit or a sign is neither blank nor a comma. -/
theorem of_isNumeral {c : Char} (h : c = '-' ∨ c = '+' ∨ c.isDigit = true) :
    isBlank c = false ∧ c ≠ ',' := by
  rcases h with rfl | rfl | hd
  · decide
  · decide
  · simp only [Char.isDigit, Bool.and_eq_true, decide_eq_true_eq] at hd
    have hlow : 48 ≤ c.toNat := UInt32.le_iff_toNat_le.mp hd.1
    have hhigh : c.toNat ≤ 57 := UInt32.le_iff_toNat_le.mp hd.2
    refine ⟨?_, ?_⟩
    · simp only [isBlank, Bool.or_eq_false_iff, Bool.and_eq_false_iff, decide_eq_false_iff_not,
        beq_eq_false_iff_ne]
      omega
    · rintro rfl
      revert hlow
      decide

theorem isDigit_of_readDigits {cs : List Char} (h : readDigits cs ≠ none) :
    ∀ c ∈ cs, c.isDigit = true := by
  unfold readDigits at h
  split at h
  · next hall =>
    rw [Bool.and_eq_true] at hall
    exact List.all_eq_true.mp hall.2
  · exact absurd rfl h

/-- An integer literal consists of digits and signs. -/
theorem isNumeral_of_readInt32 {cs : List Char} {n : Int32} (h : readInt32 cs = some n) :
    ∀ c ∈ cs, c = '-' ∨ c = '+' ∨ c.isDigit = true := by
  rw [readInt32, Option.bind_eq_some_iff] at h
  obtain ⟨i, hi, -⟩ := h
  intro c hc
  unfold readInteger at hi
  split at hi
  · next ds =>
    rcases List.mem_cons.mp hc with rfl | hc
    · exact .inl rfl
    · have hread : readDigits ds ≠ none := fun hd => by rw [hd] at hi; cases hi
      exact .inr (.inr (isDigit_of_readDigits hread c hc))
  · next ds =>
    rcases List.mem_cons.mp hc with rfl | hc
    · exact .inr (.inl rfl)
    · have hread : readDigits ds ≠ none := fun hd => by rw [hd] at hi; cases hi
      exact .inr (.inr (isDigit_of_readDigits hread c hc))
  · have hread : readDigits cs ≠ none := fun hd => by rw [hd] at hi; cases hi
    exact .inr (.inr (isDigit_of_readDigits hread c hc))

/-- A word of letters is no integer literal. -/
theorem readInt32_of_letters {cs : List Char} (hne : cs ≠ [])
    (h : ∀ c ∈ cs, c.toLower.isLower = true) : readInt32 cs = none := by
  cases hn : readInt32 cs with
  | none => rfl
  | some n =>
    obtain ⟨c, cs', rfl⟩ := List.exists_cons_of_ne_nil hne
    have hc := List.mem_cons_self (a := c) (l := cs')
    obtain ⟨-, hdigit, hminus, hplus, -⟩ := of_isLower_toLower (h c hc)
    rcases isNumeral_of_readInt32 hn c hc with rfl | rfl | hd
    · exact absurd rfl hminus
    · exact absurd rfl hplus
    · rw [hdigit] at hd
      cases hd

/-- A text between blank ends. -/
def Between (cs body : List Char) : Prop := ∃ l r, cs = l ++ body ++ r ∧ Blank l ∧ Blank r

theorem between_trim (cs : List Char) : Between cs (trim cs) := exists_surrounded cs

theorem Between.trim_eq {cs body : List Char} (h : Between cs body)
    (hb : ∀ c ∈ body, isBlank c = false) : trim cs = body := by
  obtain ⟨l, r, rfl, hl, hr⟩ := h
  exact trim_surrounded hl hb hr

theorem Between.of_trim {cs body : List Char} (h : Between (trim cs) body) : Between cs body := by
  obtain ⟨l, r, hcs, hl, hr⟩ := between_trim cs
  obtain ⟨l', r', htrim, hl', hr'⟩ := h
  refine ⟨l ++ l', r' ++ r, ?_, List.forall_mem_append.mpr ⟨hl, hl'⟩,
    List.forall_mem_append.mpr ⟨hr', hr⟩⟩
  rw [htrim] at hcs
  rw [hcs]
  simp only [List.append_assoc]

theorem Between.self (cs : List Char) : Between cs cs :=
  ⟨[], [], by simp, by simp [Blank], by simp [Blank]⟩

theorem Between.comma_not_mem {cs body : List Char} (h : Between cs body) (hb : ',' ∉ body) :
    ',' ∉ cs := by
  obtain ⟨l, r, rfl, hl, hr⟩ := h
  have hcomma : isBlank ',' ≠ true := by decide
  intro hc
  rcases List.mem_append.mp hc with hc | hc
  · rcases List.mem_append.mp hc with hc | hc
    · exact hcomma (hl _ hc)
    · exact hb hc
  · exact hcomma (hr _ hc)

end Text

/-! ### Names and codes -/

namespace Severity

/-- The lower-case words for a severity. -/
def words : Severity → List (List Char)
  | trace => [['t', 'r', 'a', 'c', 'e']]
  | debug => [['d', 'e', 'b', 'u', 'g']]
  | info => [['i', 'n', 'f', 'o']]
  | warning => [['w', 'a', 'r', 'n'], ['w', 'a', 'r', 'n', 'i', 'n', 'g']]
  | error => [['e', 'r', 'r', 'o', 'r']]

theorem ofWord?_eq_some {w : List Char} {s : Severity} : ofWord? w = some s ↔ w ∈ s.words := by
  constructor
  · intro h
    unfold ofWord? at h
    split at h
    · next hw => cases h; simp [words, hw]
    · split at h
      · next hw => cases h; simp [words, hw]
      · split at h
        · next hw => cases h; simp [words, hw]
        · split at h
          · next hw => cases h; simpa [words] using hw
          · split at h
            · next hw => cases h; simp [words, hw]
            · cases h
  · intro h
    cases s <;> simp only [words, List.mem_cons, List.not_mem_nil, or_false] at h
    case warning => rcases h with rfl | rfl <;> rfl
    all_goals subst h; rfl

theorem isLower_of_mem_words {s : Severity} {w : List Char} (h : w ∈ s.words) :
    w ≠ [] ∧ ∀ c ∈ w, c.isLower = true := by
  have hall : (s.words.all fun w => !w.isEmpty && w.all Char.isLower) = true := by
    cases s <;> rfl
  simpa using List.all_eq_true.mp hall w h

/-- A text for a severity: its code, or one of its words in any case, between blank ends. -/
def Spelling (s : Severity) (text : String) : Prop :=
  ∃ body, Text.Between text.toList body ∧
    (Text.readInt32 body = some s.code ∨ body.map Char.toLower ∈ s.words)

/-- The texts for a severity are those that are accepted. -/
theorem read_iff_spelling {text : String} {s : Severity} :
    read text = .ok s ↔ s.Spelling text := by
  constructor
  · intro h
    refine ⟨Text.trim text.toList, Text.between_trim _, ?_⟩
    simp only [read] at h
    split at h
    · next n hn =>
      left
      rw [hn]
      unfold ofCode at h
      cases hc : ofCode? n with
      | none => rw [hc] at h; cases h
      | some s' =>
        rw [hc] at h
        obtain rfl : s' = s := by simpa using h
        rw [ofCode?_eq_some.mp hc]
    · right
      split at h
      · next s' hw =>
        obtain rfl : s' = s := by simpa using h
        exact ofWord?_eq_some.mp hw
      · cases h
  · rintro ⟨body, hbetween, hcode | hword⟩
    · have hblank : ∀ c ∈ body, Text.isBlank c = false := fun c hc =>
        (Text.of_isNumeral (Text.isNumeral_of_readInt32 hcode c hc)).1
      simp only [read, hbetween.trim_eq hblank, hcode, ofCode, ofCode?_code]
    · obtain ⟨hne, hlower⟩ := isLower_of_mem_words hword
      have hletters : ∀ c ∈ body, c.toLower.isLower = true := fun c hc =>
        hlower _ (List.mem_map_of_mem hc)
      have hblank : ∀ c ∈ body, Text.isBlank c = false := fun c hc =>
        (Text.of_isLower_toLower (hletters c hc)).1
      have hint : Text.readInt32 body = none :=
        Text.readInt32_of_letters (by simpa using hne) hletters
      simp only [read, hbetween.trim_eq hblank, hint, ofWord?_eq_some.mpr hword]

end Severity

namespace Component

theorem isLower_of_mem_word {k : Component} : ∀ c ∈ k.word, c.isLower = true :=
  List.all_eq_true.mp (by cases k <;> rfl)

/-- A text for a component: its word in any case, with hyphens and underscores anywhere, between
blank ends. -/
def Spelling (k : Component) (text : String) : Prop :=
  ∃ body, Text.Between text.toList body ∧
    (body.filter fun c => !isFiller c).map Char.toLower = k.word

/-- Nothing in such a name is blank, and nothing a comma. -/
theorem of_mem_spelling {k : Component} {body : List Char}
    (h : (body.filter fun c => !isFiller c).map Char.toLower = k.word) :
    ∀ c ∈ body, Text.isBlank c = false ∧ c ≠ ',' := by
  intro c hc
  by_cases hfiller : isFiller c = true
  · rw [isFiller, Bool.or_eq_true, beq_iff_eq, beq_iff_eq] at hfiller
    rcases hfiller with rfl | rfl <;> decide
  · have hmem : c.toLower ∈ k.word := by
      rw [← h]
      exact List.mem_map_of_mem (List.mem_filter.mpr ⟨hc, by simpa using hfiller⟩)
    obtain ⟨hblank, -, -, -, hcomma⟩ := Text.of_isLower_toLower (isLower_of_mem_word _ hmem)
    exact ⟨hblank, hcomma⟩

/-- The texts for a component are those that are accepted. -/
theorem read_iff_spelling {text : String} {k : Component} :
    read text = .ok k ↔ k.Spelling text := by
  constructor
  · intro h
    refine ⟨Text.trim text.toList, Text.between_trim _, ?_⟩
    simp only [read] at h
    split at h
    · next k' hw =>
      obtain rfl : k' = k := by simpa using h
      exact (ofWord?_eq_some.mp hw).symm
    · cases h
  · rintro ⟨body, hbetween, hword⟩
    have hblank : ∀ c ∈ body, Text.isBlank c = false := fun c hc => (of_mem_spelling hword c hc).1
    simp only [read, hbetween.trim_eq hblank, ofWord?_eq_some.mpr hword.symm]

theorem Spelling.comma_not_mem {k : Component} {text : String} (h : k.Spelling text) :
    ',' ∉ text.toList := by
  obtain ⟨body, hbetween, hword⟩ := h
  exact hbetween.comma_not_mem fun hc => (of_mem_spelling hword ',' hc).2 rfl

/-- Blank ends do not matter. -/
theorem spelling_trim {k : Component} {cs : List Char} :
    k.Spelling (String.ofList (Text.trim cs)) ↔ k.Spelling (String.ofList cs) := by
  simp only [Spelling, String.toList_ofList]
  constructor
  · rintro ⟨body, hbetween, hword⟩
    exact ⟨body, hbetween.of_trim, hword⟩
  · rintro ⟨body, hbetween, hword⟩
    have hblank : ∀ c ∈ body, Text.isBlank c = false := fun c hc => (of_mem_spelling hword c hc).1
    rw [hbetween.trim_eq hblank]
    exact ⟨body, Text.Between.self body, hword⟩

end Component

/-! ### Lists of names -/

namespace Environment

/-- Entries for a list of components: a text for each of them, in order, and blank ones. -/
inductive Spells : List (List Char) → List Component → Prop
  | nil : Spells [] []
  | skip {p : List Char} {ps : List (List Char)} {ks : List Component} (hp : Text.Blank p)
    (h : Spells ps ks) : Spells (p :: ps) ks
  | name {p : List Char} {ps : List (List Char)} {k : Component} {ks : List Component}
    (hp : k.Spelling (String.ofList p)) (h : Spells ps ks) : Spells (p :: ps) (k :: ks)

/-- Entries are cut at each comma. -/
theorem pieces_eq_splitOn (cs : List Char) : pieces cs = cs.splitOn ',' := by
  rw [List.splitOn]
  induction cs with
  | nil => rfl
  | cons c cs ih =>
    rw [List.splitOnP_cons_eq_if_modifyHead, pieces, ih]
    by_cases hc : c = ','
    · simp [hc]
    · obtain ⟨p, ps, hps⟩ := List.exists_cons_of_ne_nil (List.splitOnP_ne_nil (· == ',') cs)
      simp only [if_neg hc, beq_iff_eq, hps, List.modifyHead_cons]

theorem Spells.comma_not_mem {ps : List (List Char)} {ks : List Component} (h : Spells ps ks) :
    ∀ p ∈ ps, ',' ∉ p := by
  induction h with
  | nil => simp
  | skip hp h ih =>
    refine List.forall_mem_cons.mpr ⟨fun hc => ?_, ih⟩
    exact absurd (hp ',' hc) (by decide)
  | name hp h ih =>
    refine List.forall_mem_cons.mpr ⟨?_, ih⟩
    simpa using hp.comma_not_mem

/-- What is read from entries. -/
def readEntries (ps : List (List Char)) : Except Rejection (List Component) :=
  (((ps.map Text.trim).filter fun p => !p.isEmpty).map String.ofList).mapM Component.read

theorem readEntries_skip {p : List Char} (hp : Text.Blank p) (ps : List (List Char)) :
    readEntries (p :: ps) = readEntries ps := by
  simp [readEntries, Text.trim_eq_nil_iff.mpr hp]

theorem readEntries_cons {p : List Char} (hp : ¬ Text.Blank p) (ps : List (List Char)) :
    readEntries (p :: ps) = (Component.read (String.ofList (Text.trim p))).bind fun k =>
      (readEntries ps).map (k :: ·) := by
  have htrim : Text.trim p ≠ [] := fun h => hp (Text.trim_eq_nil_iff.mp h)
  rw [readEntries, List.map_cons, List.filter_cons_of_pos (by simpa using htrim), List.map_cons,
    List.mapM_cons]
  rfl

theorem not_blank_of_spelling {k : Component} {p : List Char}
    (h : k.Spelling (String.ofList p)) : ¬ Text.Blank p := by
  intro hp
  obtain ⟨body, hbetween, hword⟩ := h
  rw [String.toList_ofList] at hbetween
  have hblank : ∀ c ∈ body, Text.isBlank c = false := fun c hc =>
    (Component.of_mem_spelling hword c hc).1
  have hbody : body = [] := (hbetween.trim_eq hblank).symm.trans (Text.trim_eq_nil_iff.mpr hp)
  rw [hbody] at hword
  cases k <;> cases hword

/-- Entries for a list of components are those from which it is read. -/
theorem readEntries_eq_ok_iff {ps : List (List Char)} {ks : List Component} :
    readEntries ps = .ok ks ↔ Spells ps ks := by
  constructor
  · intro h
    induction ps generalizing ks with
    | nil =>
      obtain rfl : [] = ks := by simpa [readEntries, pure, Except.pure] using h
      exact .nil
    | cons p ps ih =>
      by_cases hp : Text.Blank p
      · rw [readEntries_skip hp] at h
        exact .skip hp (ih h)
      · rw [readEntries_cons hp] at h
        cases hk : Component.read (String.ofList (Text.trim p)) with
        | error why => rw [hk] at h; cases h
        | ok k =>
          rw [hk] at h
          cases hks : readEntries ps with
          | error why => rw [hks] at h; cases h
          | ok ks' =>
            rw [hks] at h
            obtain rfl : k :: ks' = ks := by simpa [Except.bind, Except.map] using h
            exact .name (Component.spelling_trim.mp (Component.read_iff_spelling.mp hk)) (ih hks)
  · intro h
    induction h with
    | nil => rfl
    | skip hp h ih => rw [readEntries_skip hp, ih]
    | name hp h ih =>
      have hread := Component.read_iff_spelling.mpr (Component.spelling_trim.mpr hp)
      rw [readEntries_cons (not_blank_of_spelling hp), hread, ih]
      rfl

theorem readComponents_eq (text : String) :
    readComponents text = readEntries (text.toList.splitOn ',') := by
  rw [readComponents, entries, pieces_eq_splitOn, readEntries]

/-- The texts for a list of components: entries for them, joined by commas. -/
theorem readComponents_eq_ok_iff {text : String} {ks : List Component} :
    readComponents text = .ok ks ↔
      ∃ ps, text.toList = [','].intercalate ps ∧ Spells ps ks := by
  rw [readComponents_eq]
  constructor
  · intro h
    exact ⟨_, (List.intercalate_splitOn ..).symm, readEntries_eq_ok_iff.mp h⟩
  · rintro ⟨ps, htext, hspells⟩
    rw [htext]
    cases ps with
    | nil =>
      cases hspells
      rfl
    | cons p ps =>
      rw [List.splitOn_intercalate ',' hspells.comma_not_mem (List.cons_ne_nil p ps)]
      exact readEntries_eq_ok_iff.mpr hspells

end Environment

end GatedLog
