import GatedLog.Json.Token

/-!
# Skipping values

A value whose content does not matter is passed over token by token: the brackets that are open
and what may come next decide whether the value is still well formed and where it ends. The depth
of brackets is not bounded.
-/

namespace GatedLog.Json

/-- What surrounds the place that is read. -/
inductive Enclosure where
  | sequence
  | object
  deriving DecidableEq, Repr

/-- What may come next. -/
inductive Awaited where
  | value
  | valueOrClose
  | key
  | keyOrClose
  | colon
  | separator
  deriving DecidableEq, Repr

/-- A place inside a value: what is open, innermost first, and what may come next. -/
structure Place where
  enclosures : List Enclosure
  awaited : Awaited
  deriving DecidableEq, Repr

namespace Place

/-- In front of a value. -/
def start : Place := ⟨[], .value⟩

/-- Behind the value. -/
def finished (p : Place) : Bool := p.enclosures.isEmpty && p.awaited == .separator

/-- The place behind a token, if the token may stand here. -/
def advance (p : Place) (t : Token) : Option Place :=
  match p.awaited, t, p.enclosures with
  | .value, .openBracket, es => some ⟨.sequence :: es, .valueOrClose⟩
  | .value, .openBrace, es => some ⟨.object :: es, .keyOrClose⟩
  | .value, .null, es => some ⟨es, .separator⟩
  | .value, .boolean _, es => some ⟨es, .separator⟩
  | .value, .number _, es => some ⟨es, .separator⟩
  | .value, .text _, es => some ⟨es, .separator⟩
  | .valueOrClose, .closeBracket, _ :: es => some ⟨es, .separator⟩
  | .valueOrClose, .openBracket, es => some ⟨.sequence :: es, .valueOrClose⟩
  | .valueOrClose, .openBrace, es => some ⟨.object :: es, .keyOrClose⟩
  | .valueOrClose, .null, es => some ⟨es, .separator⟩
  | .valueOrClose, .boolean _, es => some ⟨es, .separator⟩
  | .valueOrClose, .number _, es => some ⟨es, .separator⟩
  | .valueOrClose, .text _, es => some ⟨es, .separator⟩
  | .key, .text _, es => some ⟨es, .colon⟩
  | .keyOrClose, .closeBrace, _ :: es => some ⟨es, .separator⟩
  | .keyOrClose, .text _, es => some ⟨es, .colon⟩
  | .colon, .colon, es => some ⟨es, .value⟩
  | .separator, .comma, .sequence :: es => some ⟨.sequence :: es, .value⟩
  | .separator, .closeBracket, .sequence :: es => some ⟨es, .separator⟩
  | .separator, .comma, .object :: es => some ⟨.object :: es, .key⟩
  | .separator, .closeBrace, .object :: es => some ⟨es, .separator⟩
  | _, _, _ => none

/-- The tokens behind the value that a place is in. -/
def skip : Place → List Token → Option (List Token)
  | p, [] => if p.finished then some [] else none
  | p, t :: ts =>
    if p.finished then some (t :: ts)
    else
      match p.advance t with
      | some q => skip q ts
      | none => none

theorem length_skip_le {p : Place} {ts rest : List Token} (h : p.skip ts = some rest) :
    rest.length ≤ ts.length := by
  induction ts generalizing p with
  | nil => simp_all [skip]
  | cons t ts ih =>
    unfold skip at h
    split at h
    · simp_all
    · split at h
      · exact Nat.le_succ_of_le (ih h)
      · simp at h

end Place

/-- The tokens behind the first value. -/
def skipValue (ts : List Token) : Option (List Token) := Place.start.skip ts

theorem length_skipValue {ts rest : List Token} (h : skipValue ts = some rest) :
    rest.length < ts.length := by
  cases ts with
  | nil => simp [skipValue, Place.skip, Place.finished, Place.start] at h
  | cons t ts =>
    simp only [skipValue, Place.skip, show Place.start.finished = false from rfl,
      Bool.false_eq_true, if_false] at h
    split at h
    · exact Nat.lt_succ_of_le (Place.length_skip_le h)
    · simp at h

end GatedLog.Json
