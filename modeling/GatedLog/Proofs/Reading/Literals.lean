import GatedLog.Proofs.Environment.Values
import GatedLog.Proofs.Reading.Components
import GatedLog.Proofs.Reading.Severities

/-!
# Integer literals for components

Where a severity is wanted, an integer literal is a code. Where a component is wanted it is not, even
though components have codes too: a literal is no name, so that it is rejected however it is padded,
alone as well as in a list (`Component.literals_refused`). The integer itself would be understood.
-/

namespace GatedLog.Component

open Text

variable {text : String} {body : List Char} {i : Int} {k : Component}

/-! ### Literals are no names -/

theorem exists_digit_of_numeral {n : Nat} (h : Numeral body n) : ∃ c ∈ body, c.isDigit = true := by
  obtain ⟨c, cs, rfl⟩ := List.exists_cons_of_ne_nil h.ne_nil
  exact ⟨c, List.mem_cons_self .., h.isDigit c (List.mem_cons_self ..)⟩

theorem exists_digit_of_literal (h : Literal body i) : ∃ c ∈ body, c.isDigit = true := by
  cases h with
  | plain h => exact exists_digit_of_numeral h
  | plus h =>
    obtain ⟨c, hc, hd⟩ := exists_digit_of_numeral h
    exact ⟨c, List.mem_cons_of_mem _ hc, hd⟩
  | minus h =>
    obtain ⟨c, hc, hd⟩ := exists_digit_of_numeral h
    exact ⟨c, List.mem_cons_of_mem _ hc, hd⟩

/-- A digit is no letter in either case. -/
theorem not_isLower_of_isDigit {c : Char} (h : c.isDigit = true) : c.toLower.isLower = false := by
  rw [← Bool.not_eq_true]
  intro hlower
  rw [(of_isLower_toLower hlower).2.1] at h
  cases h

/-- The sign may be passed over as a hyphen, but the digits behind it are not. -/
theorem read_of_literal (hbody : Core text.toList body) (h : Literal body i) :
    read text = .error (.unknownComponent text) := by
  obtain ⟨c, hc, hd⟩ := exists_digit_of_literal h
  refine read_of_stray hbody hc (not_isLower_of_isDigit hd) ⟨?_, ?_⟩
  · rintro rfl
    exact absurd hd (by decide)
  · rintro rfl
    exact absurd hd (by decide)

theorem read_entry_of_literal {x : String} (h : Literal x.toList i) :
    read x = .error (.unknownComponent x) := by
  have htight : Tight x.toList := by
    have hblank : ∀ c ∈ x.toList, isBlank c = false := fun c hc => (of_isNumeral (h.mem c hc)).1
    exact ⟨fun c hc => hblank c (List.mem_of_mem_head? hc),
      fun c hc => hblank c (List.mem_of_mem_getLast? hc)⟩
  exact read_of_literal ⟨.self _, htight⟩ h

/-! ### Literals in lists -/

/-- A literal between commas, with blanks around it or not, is an entry of the list. -/
theorem mem_entries_of_literal {p : List Char} (hp : p ∈ text.toList.splitOn ',') (hbody : Core p body)
    (h : Literal body i) : String.ofList body ∈ Environment.entries text := by
  rw [Environment.mem_entries, String.toList_ofList]
  exact ⟨h.ne_nil, p, hp, core_iff.mp hbody⟩

theorem not_allName_of_literal {x : String} (hx : x ∈ Environment.entries text)
    (h : Literal x.toList i) : ¬ Environment.AllName text := by
  intro hall
  obtain ⟨k, hk⟩ := hall x hx
  rw [read_entry_of_literal h] at hk
  cases hk

/-! ### The rule -/

/-- A component whose code the text spells is read from it. -/
def CodesRead (text : String) : Prop :=
  ∀ (k : Component) (body : List Char), Core text.toList body → Literal body k.code.toInt →
    read text = .ok k

/-- What becomes of a text where a component is wanted, if it is an integer literal or contains one, and
of the same literals and integers elsewhere. -/
structure LiteralsRefused (text : String) : Prop where
  /-- A literal is rejected, whether its integer is the code of a component or not, -/
  alone {body : List Char} {i : Int} (hbody : Core text.toList body) (h : Literal body i) :
    read text = .error (.unknownComponent text)
  /-- so that codes are read only from texts that spell none. -/
  codes : CodesRead text ↔
    ∀ (k : Component) (body : List Char), Core text.toList body → ¬ Literal body k.code.toInt
  /-- A list with a literal among its entries is rejected, whatever else the variables hold. -/
  listed {p body : List Char} {i : Int} (hp : p ∈ text.toList.splitOn ',') (hbody : Core p body)
    (h : Literal body i) (g g' : Gate) (level : Option String) :
    Environment.apply g level (some text) ≠ .ok g'
  /-- The literal is blamed if nothing in front of it is to blame. -/
  blamed {x : String} {left right : List String} {i : Int} {level : Option String}
    (hlevel : ∀ t ∈ level, ∃ s, Severity.read t = .ok s)
    (htext : Environment.entries text = left ++ x :: right)
    (hleft : ∀ y ∈ left, ∃ k, read y = .ok k) (h : Literal x.toList i) (g : Gate) :
    Environment.apply g level (some text) = .error ⟨.components, .rejected (.unknownComponent x)⟩
  /-- The integer by itself is understood, as exactly one component's code. -/
  code (n : Int32) (k : Component) : ofCode n = .ok k ↔ k.code = n
  /-- A literal for the code of a severity is this severity. -/
  severity {body : List Char} {s : Severity} (hbody : Core text.toList body)
    (h : Literal body s.code.toInt) : Severity.read text = .ok s

theorem ofCode_eq_ok_iff {n : Int32} : ofCode n = .ok k ↔ k.code = n := by
  rw [← ofCode?_eq_some, ofCode]
  cases ofCode? n <;> simp

theorem codesRead_iff : CodesRead text ↔
    ∀ (k : Component) (body : List Char), Core text.toList body → ¬ Literal body k.code.toInt := by
  constructor
  · intro h k body hbody hk
    have hread := h k body hbody hk
    rw [read_of_literal hbody hk] at hread
    cases hread
  · intro h k body hbody hk
    exact absurd hk (h k body hbody)

/-- **An integer literal is no component**, although components have codes. -/
theorem literals_refused (text : String) : LiteralsRefused text where
  alone hbody h := read_of_literal hbody h
  codes := codesRead_iff
  listed hp hbody h g g' level happly := by
    have hx := mem_entries_of_literal hp hbody h
    exact not_allName_of_literal hx (by rwa [String.toList_ofList])
      (Environment.apply_eq_ok_iff.mp happly).2.1
  blamed hlevel htext hleft h _ :=
    Environment.apply_eq_error_iff.mpr (.entry hlevel htext hleft (read_entry_of_literal h))
  code _ _ := ofCode_eq_ok_iff
  severity hbody h := (Severity.Reads.code hbody h).read_eq

/-- The code of a component is not read as this component. -/
theorem codes_unread : ¬ ∀ text, CodesRead text := by
  intro h
  have hliteral : Literal ['2'] rpc.code.toInt := .plain (.one rfl)
  exact codesRead_iff.mp (h "2") rpc ['2'] (core_iff.mpr (by decide)) hliteral

end GatedLog.Component
