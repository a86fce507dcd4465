import GatedLog.Settings.Problem
import GatedLog.Json.Skip

/-!
# Records

A record is written as an object of named fields, in any order, or as the array of its first
fields. Fields not given keep their default. The tokens are read from left to right and the first
fault wins; a field given twice is a problem as soon as its second name is read, and the value of
a name that is no field is passed over.
-/

namespace GatedLog.Settings

/-- A value and the tokens behind it. -/
abbrev Reading (α : Type) := Except Fault (α × List Json.Token)

/-- A field of a record that is read into a draft of type `α`. -/
structure Field (α : Type) where
  name : String
  given : α → Bool
  read : α → List Json.Token → Reading α
  shrinks : ∀ {a b ts rest}, read a ts = .ok (b, rest) → rest.length < ts.length

/-- The tokens behind a colon. -/
def afterColon : List Json.Token → Except Fault (List Json.Token)
  | .colon :: ts => .ok ts
  | _ => .error .malformed

/-- Reads the rest of a member whose name has been read. -/
def readMember {α : Type} (fields : List (Field α)) (a : α) (name : String) (ts : List Json.Token) :
    Reading α :=
  match fields.find? fun f => f.name == name with
  | some f =>
    if f.given a then .error (.problem (.duplicateField f.name))
    else
      match afterColon ts with
      | .ok ts => f.read a ts
      | .error e => .error e
  | none =>
    match afterColon ts with
    | .error e => .error e
    | .ok ts =>
      match Json.skipValue ts with
      | some rest => .ok (a, rest)
      | none => .error .malformed

/-- What follows inside an object: its end, or the name of a member. -/
def nextMember (first : Bool) : List Json.Token → Except Fault (Option String × List Json.Token)
  | .closeBrace :: ts => .ok (none, ts)
  | .comma :: .text (some name) :: ts => if first then .error .malformed else .ok (some name, ts)
  | .text (some name) :: ts => if first then .ok (some name, ts) else .error .malformed
  | _ => .error .malformed

theorem length_afterColon {ts rest : List Json.Token} (h : afterColon ts = .ok rest) :
    rest.length < ts.length := by
  unfold afterColon at h
  split at h
  · obtain rfl := Except.ok.inj h
    simp
  · simp at h

theorem length_readMember {α : Type} {fields : List (Field α)} {a b : α} {name : String}
    {ts rest : List Json.Token} (h : readMember fields a name ts = .ok (b, rest)) :
    rest.length < ts.length := by
  unfold readMember at h
  split at h
  · rename_i f _
    split at h
    · simp at h
    · split at h
      · rename_i hc
        exact Nat.lt_trans (f.shrinks h) (length_afterColon hc)
      · simp at h
  · split at h
    · simp at h
    · rename_i hc
      split at h
      · rename_i hs
        simp only [Except.ok.injEq, Prod.mk.injEq] at h
        rw [← h.2]
        exact Nat.lt_trans (Json.length_skipValue hs) (length_afterColon hc)
      · simp at h

theorem length_nextMember {first : Bool} {name : Option String} {ts rest : List Json.Token}
    (h : nextMember first ts = .ok (name, rest)) : rest.length < ts.length := by
  unfold nextMember at h
  split at h
  · simp only [Except.ok.injEq, Prod.mk.injEq] at h
    simp [← h.2]
  · split at h
    · simp at h
    · simp only [Except.ok.injEq, Prod.mk.injEq] at h
      simp only [← h.2, List.length_cons]
      omega
  · split at h
    · simp only [Except.ok.injEq, Prod.mk.injEq] at h
      simp [← h.2]
    · simp at h
  · simp at h

/-- Reads the members of an object into a draft, behind the opening brace. -/
def readMembers {α : Type} (fields : List (Field α)) (first : Bool) (a : α) (ts : List Json.Token) :
    Reading α :=
  match hn : nextMember first ts with
  | .error e => .error e
  | .ok (none, rest) => .ok (a, rest)
  | .ok (some name, rest) =>
    match hm : readMember fields a name rest with
    | .error e => .error e
    | .ok (b, rest) =>
      have := length_nextMember hn
      have := length_readMember hm
      readMembers fields false b rest
termination_by ts.length

/-- What follows inside an array: its end, or an item. -/
def nextItem (first : Bool) : List Json.Token → Except Fault (Option (List Json.Token))
  | .closeBracket :: _ => .ok none
  | .comma :: ts => if first then .error .malformed else .ok (some ts)
  | ts => if first then .ok (some ts) else .error .malformed

/-- The end of an array. -/
def closeArray {α : Type} (a : α) : List Json.Token → Reading α
  | .closeBracket :: ts => .ok (a, ts)
  | _ => .error .malformed

/-- Reads the items of an array as the fields in their order, behind the opening bracket. -/
def readItems {α : Type} : List (Field α) → Bool → α → List Json.Token → Reading α
  | [], _, a, ts => closeArray a ts
  | f :: fs, first, a, ts =>
    match nextItem first ts with
    | .error e => .error e
    | .ok none => closeArray a ts
    | .ok (some ts) =>
      match f.read a ts with
      | .error e => .error e
      | .ok (b, rest) => readItems fs false b rest

/-- Reads a record into an empty draft. -/
def readRecord {α : Type} (wanted : Wanted) (fields : List (Field α)) (empty : α) :
    List Json.Token → Reading α
  | .openBracket :: ts => readItems fields true empty ts
  | .openBrace :: ts => readMembers fields true empty ts
  | ts => .error (wrongType wanted ts)

theorem length_readMembers {α : Type} {fields : List (Field α)} {first : Bool} {a b : α}
    {ts rest : List Json.Token} (h : readMembers fields first a ts = .ok (b, rest)) :
    rest.length < ts.length := by
  fun_induction readMembers fields first a ts with
  | case1 => simp at h
  | case2 first a ts rest' hn =>
    simp only [Except.ok.injEq, Prod.mk.injEq] at h
    rw [← h.2]
    exact length_nextMember hn
  | case3 => simp at h
  | case4 first a ts name rest₁ hn c rest₂ hm _ _ ih =>
    exact Nat.lt_trans (ih h) (Nat.lt_trans (length_readMember hm) (length_nextMember hn))

theorem length_nextItem {first : Bool} {ts rest : List Json.Token}
    (h : nextItem first ts = .ok (some rest)) : rest.length ≤ ts.length := by
  unfold nextItem at h
  split at h
  · simp at h
  · split at h
    · simp at h
    · simp only [Except.ok.injEq, Option.some.injEq] at h
      simp [← h]
  · split at h
    · simp only [Except.ok.injEq, Option.some.injEq] at h
      simp [← h]
    · simp at h

theorem length_closeArray {α : Type} {a b : α} {ts rest : List Json.Token}
    (h : closeArray a ts = .ok (b, rest)) : rest.length < ts.length := by
  unfold closeArray at h
  split at h
  · simp only [Except.ok.injEq, Prod.mk.injEq] at h
    simp [← h.2]
  · simp at h

theorem length_readItems {α : Type} {fields : List (Field α)} {first : Bool} {a b : α}
    {ts rest : List Json.Token} (h : readItems fields first a ts = .ok (b, rest)) :
    rest.length < ts.length := by
  induction fields generalizing first a ts with
  | nil => exact length_closeArray h
  | cons f fs ih =>
    unfold readItems at h
    split at h
    · simp at h
    · exact length_closeArray h
    · rename_i hn
      split at h
      · simp at h
      · rename_i hr
        exact Nat.lt_of_lt_of_le (Nat.lt_trans (ih h) (f.shrinks hr)) (length_nextItem hn)

theorem length_readRecord {α : Type} {wanted : Wanted} {fields : List (Field α)} {empty b : α}
    {ts rest : List Json.Token} (h : readRecord wanted fields empty ts = .ok (b, rest)) :
    rest.length < ts.length := by
  unfold readRecord at h
  split at h
  · exact Nat.lt_succ_of_lt (length_readItems h)
  · exact Nat.lt_succ_of_lt (length_readMembers h)
  · simp at h

end GatedLog.Settings
