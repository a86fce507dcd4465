import GatedLog.Proofs.Json.Value

/-!
# The grammar of JSON

Which texts spell a value, character by character. Nothing here says how a text is read, and
`Document` does not mention tokens.
-/

namespace GatedLog.Json

/-- Blanks, or nothing. -/
def Blanks (cs : List Char) : Prop := ∀ c ∈ cs, isBlank c = true

theorem blanks_nil : Blanks [] := fun _ hc => absurd hc List.not_mem_nil

/-! ### Numbers -/

/-- One digit or more. -/
structure Digits (cs : List Char) : Prop where
  ne_nil : cs ≠ []
  isDigit : ∀ c ∈ cs, c.isDigit = true

/-- The digits before the point: a zero, or digits that do not begin with one. -/
structure Whole (cs : List Char) : Prop extends Digits cs where
  zero : ∀ ds, cs = '0' :: ds → ds = []

/-- The digits of a fraction, and how it is spelled. -/
inductive Fraction : List Char → List Char → Prop
  | absent : Fraction [] []
  | point (ds : List Char) (h : Digits ds) : Fraction ds ('.' :: ds)

/-- Whether an exponent is negative, and how its sign is spelled. -/
inductive Sign : Bool → List Char → Prop
  | absent : Sign false []
  | plus : Sign false ['+']
  | minus : Sign true ['-']

/-- An exponent, and how it is spelled. -/
inductive Exponent : Option (Bool × List Char) → List Char → Prop
  | absent : Exponent none []
  | marked (mark : Char) (down : Bool) (sign ds : List Char) (hm : mark = 'e' ∨ mark = 'E')
    (hs : Sign down sign) (h : Digits ds) : Exponent (some (down, ds)) (mark :: (sign ++ ds))

/-- How a numeral is spelled after its sign. -/
structure Numeral.Unsigned (x : Numeral) (cs : List Char) : Prop where
  whole : Whole x.whole
  parts : ∃ fs es, Fraction x.fraction fs ∧ Exponent x.exponent es ∧ cs = x.whole ++ (fs ++ es)

/-- How a numeral is spelled. -/
inductive Numeral.Spelled : Numeral → List Char → Prop
  | positive (x : Numeral) (cs : List Char) (hn : x.negative = false) (h : x.Unsigned cs) :
    Spelled x cs
  | negative (x : Numeral) (cs : List Char) (hn : x.negative = true) (h : x.Unsigned cs) :
    Spelled x ('-' :: cs)

/-! ### Strings -/

/-- How a piece of a string is spelled. -/
inductive Piece.Spelled : Piece → List Char → Prop
  | char (c : Char) (hq : c ≠ '"') (hb : c ≠ '\\') (hc : 0x20 ≤ c.toNat) : Spelled (.char c) [c]
  | escape (e c : Char) (h : escaped? e = some c) : Spelled (.char c) ['\\', e]
  | unit (a b c d : Char) (u : Nat) (h : unit? a b c d = some u) :
    Spelled (.unit u) ['\\', 'u', a, b, c, d]

/-- How pieces are spelled. -/
inductive Pieces : List Piece → List Char → Prop
  | nil : Pieces [] []
  | cons {p : Piece} {ps : List Piece} {cs ds : List Char} (h : p.Spelled cs) (hs : Pieces ps ds) :
    Pieces (p :: ps) (cs ++ ds)

/-- The characters that pieces stand for: a unit is a character unless it is half of a surrogate
pair, and a whole pair is one. -/
inductive Stands : List Piece → List Char → Prop
  | nil : Stands [] []
  | char (c : Char) {ps : List Piece} {cs : List Char} (h : Stands ps cs) :
    Stands (.char c :: ps) (c :: cs)
  | unit (u : Nat) {ps : List Piece} {cs : List Char} (hl : isLead u = false)
    (ht : isTrail u = false) (h : Stands ps cs) : Stands (.unit u :: ps) (Char.ofNat u :: cs)
  | pair (u v : Nat) {ps : List Piece} {cs : List Char} (hl : isLead u = true)
    (ht : isTrail v = true) (h : Stands ps cs) :
    Stands (.unit u :: .unit v :: ps)
      (Char.ofNat (0x10000 + (u - 0xD800) * 0x400 + (v - 0xDC00)) :: cs)

/-- The content of a string: none if its pieces stand for no characters. -/
inductive Content : List Piece → Option String → Prop
  | present {ps : List Piece} {cs : List Char} (h : Stands ps cs) :
    Content ps (some (String.ofList cs))
  | absent {ps : List Piece} (h : ¬ ∃ cs, Stands ps cs) : Content ps none

/-- How a string is spelled. -/
inductive Quoted : Option String → List Char → Prop
  | mk (ps : List Piece) (cs : List Char) (content : Option String) (h : Pieces ps cs)
    (hc : Content ps content) : Quoted content ('"' :: (cs ++ ['"']))

/-! ### Values -/

/-- Parts with commas between them, and with blanks around each; no parts are blanks alone. -/
inductive Listed {α : Type} (Part : α → List Char → Prop) : List α → List Char → Prop
  | none {bs : List Char} (hb : Blanks bs) : Listed Part [] bs
  | one {a : α} {bs cs ds : List Char} (hb : Blanks bs) (h : Part a cs) (hd : Blanks ds) :
    Listed Part [a] (bs ++ (cs ++ ds))
  | more {a b : α} {as : List α} {bs cs ds es : List Char} (hb : Blanks bs) (h : Part a cs)
    (hd : Blanks ds) (hs : Listed Part (b :: as) es) :
    Listed Part (a :: b :: as) (bs ++ (cs ++ (ds ++ ',' :: es)))

/-- A member of an object: its name, a colon and its value. -/
inductive Member (Part : Value → List Char → Prop) : Option String × Value → List Char → Prop
  | mk {name : Option String} {v : Value} {ns bs ds cs : List Char} (hn : Quoted name ns)
    (hb : Blanks bs) (hd : Blanks ds) (h : Part v cs) :
    Member Part (name, v) (ns ++ (bs ++ ':' :: (ds ++ cs)))

/-- How a value is spelled. -/
inductive Value.Spelled : Value → List Char → Prop
  | null : Spelled .null ['n', 'u', 'l', 'l']
  | true : Spelled (.boolean true) ['t', 'r', 'u', 'e']
  | false : Spelled (.boolean false) ['f', 'a', 'l', 's', 'e']
  | number (x : Numeral) (cs : List Char) (h : x.Spelled cs) : Spelled (.number x) cs
  | text (content : Option String) (cs : List Char) (h : Quoted content cs) :
    Spelled (.text content) cs
  | array (items : List Value) (cs : List Char) (h : Listed Spelled items cs) :
    Spelled (.array items) ('[' :: (cs ++ [']']))
  | object (members : List (Option String × Value)) (cs : List Char)
    (h : Listed (Member Spelled) members cs) :
    Spelled (.object members) ('\x7b' :: (cs ++ ['\x7d']))

/-- A text that is one value, with nothing but blanks around it. -/
def Document (v : Value) (text : List Char) : Prop :=
  ∃ bs cs ds, Blanks bs ∧ v.Spelled cs ∧ Blanks ds ∧ text = bs ++ (cs ++ ds)

end GatedLog.Json
