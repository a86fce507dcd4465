import Mathlib.Logic.Relation
import GatedLog.Proofs.Text.Cores

/-!
# Texts for components

What each text is read as where a component is wanted (`Component.Reads`): its core is a name in any
ASCII case, with hyphens and underscores anywhere. Of a text only `nameOf` counts, and that is the same
for texts that differ in hyphens, in case or in the space around them (`Component.reads_names`).
-/

namespace GatedLog.Component

open Text

/-- What is left of a text without its hyphens and underscores. -/
def bare (cs : List Char) : List Char := cs.filter fun c => c != '_' && c != '-'

/-- What is read from a text. -/
inductive Reads (text : String) : Except Rejection Component → Prop
  | name {body : List Char} {k : Component} (hbody : Core text.toList body)
    (h : SameWord (bare body) k.word) : Reads text (.ok k)
  | unknown {body : List Char} (hbody : Core text.toList body)
    (h : ∀ k : Component, ¬ SameWord (bare body) k.word) : Reads text (.error (.unknownComponent text))

/-- A change of a text that makes no difference to the component it names: one more hyphen or
underscore inside or at an end of what stands between its blank ends, letters in another case, and
more space around it. -/
inductive Change : List Char → List Char → Prop
  | filler {l u v r : List Char} {f : Char} (hl : Blank l) (hr : Blank r) (h : Tight (u ++ v))
    (hf : f = '_' ∨ f = '-') : Change (l ++ (u ++ v) ++ r) (l ++ (u ++ f :: v) ++ r)
  | case {cs ds : List Char} (h : SameWord cs ds) : Change cs ds
  | space {l cs r : List Char} (hl : Blank l) (hr : Blank r) : Change cs (l ++ cs ++ r)

/-- Texts of which one comes from the other by such changes, made or taken back. -/
def Respelled : List Char → List Char → Prop := Relation.EqvGen Change

variable {text : String} {body cs ds : List Char} {k : Component}

/-! ### What is read -/

/-- The small letters of a text, without hyphens, underscores and blank ends. -/
def nameOf (cs : List Char) : List Char := (bare (trim cs)).map Char.toLower

theorem filter_isFiller (cs : List Char) : (cs.filter fun c => !isFiller c) = bare cs := by
  refine List.filter_congr fun c _ => ?_
  rw [isFiller, Bool.not_or]
  rfl

/-- Of a text only the name counts. -/
theorem read_eq (text : String) :
    read text = match ofWord? (nameOf text.toList) with
      | some k => .ok k
      | none => .error (.unknownComponent text) := by
  rw [read, filter_isFiller]
  rfl

theorem sameWord_iff_nameOf (hbody : Core text.toList body) :
    SameWord (bare body) k.word ↔ k.word = nameOf text.toList := by
  rw [sameWord_of_isLower isLower_of_mem_word, nameOf, core_iff.mp hbody, eq_comm]

theorem Reads.read_eq {r : Except Rejection Component} (h : Reads text r) : read text = r := by
  rw [Component.read_eq]
  cases h with
  | name hbody h => rw [ofWord?_eq_some.mpr ((sameWord_iff_nameOf hbody).mp h)]
  | unknown hbody h =>
    have hword : ofWord? (nameOf text.toList) = none := by
      rw [Option.eq_none_iff_forall_ne_some]
      intro k hk
      exact h k ((sameWord_iff_nameOf hbody).mpr (ofWord?_eq_some.mp hk))
    rw [hword]

theorem reads_read (text : String) : Reads text (read text) := by
  have hbody := core_trim text.toList
  by_cases h : ∃ k : Component, SameWord (bare (trim text.toList)) k.word
  · obtain ⟨k, hk⟩ := h
    have hreads : Reads text (.ok k) := .name hbody hk
    rw [hreads.read_eq]
    exact hreads
  · have hreads : Reads text (.error (.unknownComponent text)) := .unknown hbody (not_exists.mp h)
    rw [hreads.read_eq]
    exact hreads

theorem read_eq_iff {r : Except Rejection Component} : read text = r ↔ Reads text r :=
  ⟨fun h => h ▸ reads_read text, Reads.read_eq⟩

theorem read_ok_iff : read text = .ok k ↔ k.word = nameOf text.toList := by
  rw [read_eq, ← ofWord?_eq_some]
  cases ofWord? (nameOf text.toList) <;> simp

/-! ### Changes -/

theorem isBlank_of_filler {f : Char} (hf : f = '_' ∨ f = '-') : isBlank f = false := by
  rcases hf with rfl | rfl <;> decide

theorem bare_filler {f : Char} (hf : f = '_' ∨ f = '-') (u v : List Char) :
    bare (u ++ f :: v) = bare (u ++ v) := by
  have hf' : ¬ (f != '_' && f != '-') = true := by rcases hf with rfl | rfl <;> decide
  rw [bare, bare, List.filter_append, List.filter_append, List.filter_cons, if_neg hf']

/-- A hyphen or an underscore leaves no blank at an end. -/
theorem tight_filler {u v : List Char} {f : Char} (h : Tight (u ++ v)) (hf : f = '_' ∨ f = '-') :
    Tight (u ++ f :: v) := by
  constructor
  · cases u with
    | nil => simpa using isBlank_of_filler hf
    | cons c u => simpa using h.1 c rfl
  · rcases List.eq_nil_or_concat v with rfl | ⟨v, c, rfl⟩
    · simpa using isBlank_of_filler hf
    · have hc : isBlank c = false := h.2 c (by simp)
      have hlast : (u ++ f :: (v ++ [c])).getLast? = some c := by
        rw [← List.cons_append, ← List.append_assoc, List.getLast?_concat]
      simpa [hlast] using hc

theorem map_toLower_bare (cs : List Char) :
    (bare cs).map Char.toLower = bare (cs.map Char.toLower) := by
  have hfiller (c f : Char) (hf : f = '_' ∨ f = '-') : (c.toLower != f) = (c != f) := by
    rw [Bool.eq_iff_iff, bne_iff_ne, bne_iff_ne, Ne, Ne, ← Char.toNat_inj, ← Char.toNat_inj,
      toNat_toLower]
    rcases hf with rfl | rfl <;> simp only [Char.reduceToNat] <;> split <;> omega
  rw [bare, bare, List.filter_map]
  refine congrArg _ (List.filter_congr fun c _ => ?_)
  rw [Function.comp_apply, hfiller c '_' (.inl rfl), hfiller c '-' (.inr rfl)]

/-- A change keeps the name. -/
theorem Change.nameOf_eq (h : Change cs ds) : nameOf cs = nameOf ds := by
  cases h with
  | filler hl hr h hf =>
    rw [nameOf, nameOf, trim_padded hl hr, trim_padded hl hr, trim_of_tight h,
      trim_of_tight (tight_filler h hf), bare_filler hf]
  | case h =>
    rw [nameOf, nameOf, map_toLower_bare, map_toLower_bare, map_toLower_trim, map_toLower_trim,
      sameWord_iff.mp h]
  | space hl hr => rw [nameOf, nameOf, trim_padded hl hr]

/-- However many changes are made or taken back. -/
theorem Respelled.nameOf_eq (h : Respelled cs ds) : nameOf cs = nameOf ds := by
  induction h with
  | rel cs ds h => exact h.nameOf_eq
  | refl cs => rfl
  | symm cs ds h ih => exact ih.symm
  | trans cs ds es h h' ih ih' => exact ih.trans ih'

theorem read_respelled (h : Respelled cs ds) :
    read (String.ofList cs) = .ok k ↔ read (String.ofList ds) = .ok k := by
  rw [read_ok_iff, read_ok_iff, String.toList_ofList, String.toList_ofList, h.nameOf_eq]

/-! ### What is no name -/

/-- A name has hyphens, underscores and ASCII letters, and nothing else. -/
theorem read_of_stray (hbody : Core text.toList body) {c : Char} (hc : c ∈ body)
    (hstray : c.toLower.isLower = false) (hf : c ≠ '_' ∧ c ≠ '-') :
    read text = .error (.unknownComponent text) := by
  refine (Reads.unknown hbody fun k hk => ?_).read_eq
  have hmem : c ∈ bare body := List.mem_filter.mpr ⟨hc, by simpa using hf⟩
  rw [hk.isLower isLower_of_mem_word c hmem] at hstray
  cases hstray

theorem read_of_blank (hbody : Core text.toList body) {c : Char} (hc : c ∈ body)
    (hblank : isBlank c = true) : read text = .error (.unknownComponent text) := by
  refine read_of_stray hbody hc ?_ ⟨?_, ?_⟩
  · rw [← Bool.not_eq_true]
    intro hlower
    rw [(of_isLower_toLower hlower).1] at hblank
    cases hblank
  · rintro rfl
    exact absurd hblank (by decide)
  · rintro rfl
    exact absurd hblank (by decide)

theorem read_of_foreign (hbody : Core text.toList body) {c : Char} (hc : c ∈ body)
    (hforeign : 128 ≤ c.toNat) : read text = .error (.unknownComponent text) := by
  refine read_of_stray hbody hc ?_ ⟨?_, ?_⟩
  · rw [← Bool.not_eq_true]
    intro hlower
    exact absurd (toNat_lt_of_isLower_toLower hlower) (by omega)
  · rintro rfl
    exact absurd hforeign (by decide)
  · rintro rfl
    exact absurd hforeign (by decide)

/-! ### The language -/

/-- Which texts are components, and which. -/
structure Language : Prop where
  /-- A text is read as the name that its core is without hyphens and underscores. -/
  reads (text : String) (r : Except Rejection Component) : read text = r ↔ Reads text r
  /-- Hyphens and underscores between the ends, the case of letters and space around a text make no
  difference. -/
  respelled {cs ds : List Char} (h : Respelled cs ds) (k : Component) :
    read (String.ofList cs) = .ok k ↔ read (String.ofList ds) = .ok k
  /-- A blank inside of the core is not passed over, even where hyphens and underscores alone stand
  between it and an end. -/
  inner {text : String} {body : List Char} (hbody : Core text.toList body) {c : Char} (hc : c ∈ body)
    (hblank : isBlank c = true) : read text = .error (.unknownComponent text)
  /-- No letter and no hyphen outside ASCII matches. -/
  foreign {text : String} {body : List Char} (hbody : Core text.toList body) {c : Char} (hc : c ∈ body)
    (hforeign : 128 ≤ c.toNat) : read text = .error (.unknownComponent text)

theorem reads_names : Language where
  reads _ _ := read_eq_iff
  respelled h _ := read_respelled h
  inner hbody _ hc hblank := read_of_blank hbody hc hblank
  foreign hbody _ hc hforeign := read_of_foreign hbody hc hforeign

/-- Blanks that stand behind a hyphen are not trimmed. -/
example : read "\t-_Block-_Reader-\n" = .ok blockReader ∧
    read "- rpc" = .error (.unknownComponent "- rpc") := by decide

end GatedLog.Component
