/-!
# Tables

Finite maps as lists of pairs, at most one for each key and in the order of first insertion. Each
operation is pinned down by what looking up finds after it.
-/

namespace GatedLog

/-- A finite map from keys to values. -/
structure Table (κ α : Type) where
  entries : List (κ × α) := []
  deriving Repr

namespace Table

variable {κ α : Type} [DecidableEq κ]

/-- The value of a key. -/
def get? (t : Table κ α) (k : κ) : Option α := t.entries.lookup k

/-- Gives a key a value in a list of pairs. -/
def putList (k : κ) (a : α) : List (κ × α) → List (κ × α)
  | [] => [(k, a)]
  | (j, b) :: es => if k = j then (j, a) :: es else (j, b) :: putList k a es

/-- Gives a key a value, in place of the one it had. -/
def put (t : Table κ α) (k : κ) (a : α) : Table κ α := ⟨putList k a t.entries⟩

/-- Takes a key away. -/
def erase (t : Table κ α) (k : κ) : Table κ α := ⟨t.entries.filter fun e => e.1 ≠ k⟩

theorem lookup_putList (k j : κ) (a : α) (es : List (κ × α)) :
    (putList k a es).lookup j = if j = k then some a else es.lookup j := by
  induction es with
  | nil =>
    by_cases h : j = k
    · simp [putList, h]
    · have hb : (j == k) = false := by simpa using h
      simp [putList, List.lookup_cons, hb, h]
  | cons e es ih =>
    obtain ⟨i, b⟩ := e
    by_cases hi : k = i
    · subst hi
      by_cases h : j = k
      · simp [putList, h]
      · have hb : (j == k) = false := by simpa using h
        simp [putList, List.lookup_cons, hb, h]
    · by_cases h : j = i
      · subst h
        simp [putList, hi, Ne.symm hi]
      · have hb : (j == i) = false := by simpa using h
        simp [putList, List.lookup_cons, hi, hb, ih]

@[simp] theorem get?_put_self (t : Table κ α) (k : κ) (a : α) : (t.put k a).get? k = some a := by
  simp [put, get?, lookup_putList]

theorem get?_put_ne (t : Table κ α) {k j : κ} (a : α) (h : j ≠ k) : (t.put k a).get? j = t.get? j := by
  simp [put, get?, lookup_putList, h]

end Table

end GatedLog
