import GatedLog.Json.Token

/-!
# Values of JSON

A value as a tree. The tokens that a value is written with (`Value.tokens`) are those of its parts,
between brackets and with commas between them.
-/

namespace GatedLog.Json

/-- A value; the names of an object are kept in their order, however often they occur. -/
inductive Value where
  | null
  | boolean (b : Bool)
  | number (n : Numeral)
  /-- A string, with its content if it has one. -/
  | text (content : Option String)
  | array (items : List Value)
  | object (members : List (Option String × Value))

/-- Tokens of several parts, with a comma in front of each but the first of all. -/
def joined (first : Bool) : List (List Token) → List Token
  | [] => []
  | ts :: tss => (if first then [] else [.comma]) ++ ts ++ joined false tss

namespace Value

theorem sizeOf_item_lt {items : List Value} {v : Value} (h : v ∈ items) :
    sizeOf v < sizeOf (array items) := by
  have := List.sizeOf_lt_of_mem h
  simp only [array.sizeOf_spec]
  omega

theorem sizeOf_member_lt {members : List (Option String × Value)} {m : Option String × Value}
    (h : m ∈ members) : sizeOf m.2 < sizeOf (object members) := by
  have := List.sizeOf_lt_of_mem h
  obtain ⟨name, v⟩ := m
  simp only [Prod.mk.sizeOf_spec] at this
  simp only [object.sizeOf_spec]
  omega

/-- The tokens of a value. -/
def tokens : Value → List Token
  | null => [.null]
  | boolean b => [.boolean b]
  | number n => [.number n]
  | text content => [.text content]
  | array items => .openBracket :: joined true (items.map fun v => v.tokens) ++ [.closeBracket]
  | object members =>
    .openBrace :: joined true (members.map fun m => .text m.1 :: .colon :: m.2.tokens) ++
      [.closeBrace]
decreasing_by
  · exact sizeOf_item_lt ‹_›
  · exact sizeOf_member_lt ‹_›

/-- The tokens of a member of an object. -/
def memberTokens (m : Option String × Value) : List Token := .text m.1 :: .colon :: m.2.tokens

@[simp] theorem tokens_array (items : List Value) :
    (array items).tokens = .openBracket :: joined true (items.map tokens) ++ [.closeBracket] := by
  rw [tokens]

@[simp] theorem tokens_object (members : List (Option String × Value)) :
    (object members).tokens =
      .openBrace :: joined true (members.map memberTokens) ++ [.closeBrace] := by
  rw [tokens]
  rfl

/-- Induction over the parts of a value. -/
@[elab_as_elim]
theorem parts_induction {P : Value → Prop} (null : P null) (boolean : ∀ b, P (boolean b))
    (number : ∀ n, P (number n)) (text : ∀ content, P (text content))
    (array : ∀ items, (∀ v ∈ items, P v) → P (array items))
    (object : ∀ members, (∀ m ∈ members, P m.2) → P (object members)) : ∀ v, P v
  | .null => null
  | .boolean b => boolean b
  | .number n => number n
  | .text content => text content
  | .array items =>
    array items fun v _ => parts_induction null boolean number text array object v
  | .object members =>
    object members fun m _ => parts_induction null boolean number text array object m.2
decreasing_by
  · exact sizeOf_item_lt ‹_›
  · exact sizeOf_member_lt ‹_›

end Value

end GatedLog.Json
