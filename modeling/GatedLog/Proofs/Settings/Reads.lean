import GatedLog.Proofs.Json.Skip
import GatedLog.Proofs.Settings.Schema

/-!
# Readers of values

A reader takes tokens off the front of a list. It reads what a function of values says (`Reads`) if
it accepts exactly the tokens of the values that the function accepts, with the same result, and
leaves what follows them.
-/

namespace GatedLog

open Json (Value Token joined)

namespace Settings

/-- The reader reads what the function says of a value, and nothing else. -/
def Reads {α : Type} (read : List Token → Reading α) (decode : Value → Option α) : Prop :=
  ∀ ts a rest, read ts = .ok (a, rest) ↔ ∃ v : Value, ts = v.tokens ++ rest ∧ decode v = some a

theorem ok_inj {α : Type} {a b : α} {ts us : List Token}
    (h : (.ok (a, ts) : Reading α) = .ok (b, us)) : a = b ∧ ts = us :=
  Prod.mk.inj (Except.ok.inj h)

/-! ### Names and truth values -/

section Names

variable {α : Type} {names : List (String × α)} {name : String} {a b : α} {ts rest : List Token}

theorem lookUp_eq_ok_iff : lookUp names name = .ok a ↔ names.lookup name = some a := by
  unfold lookUp
  induction names with
  | nil =>
    constructor
    · intro h; cases h
    · intro h; cases h
  | cons p names ih =>
    obtain ⟨n, b⟩ := p
    by_cases h : name = n
    · subst h
      simp
    · have hn : (n == name) = false := by simpa using Ne.symm h
      have hn' : (name == n) = false := by simpa using h
      rw [List.find?_cons, hn, List.lookup_cons, hn', ← ih]
      cases names.find? fun p => p.1 == name with
      | none => simp
      | some q => rfl

theorem closeName_eq_ok_iff : closeName a ts = .ok (b, rest) ↔
    a = b ∧ ts = .colon :: .null :: .closeBrace :: rest := by
  constructor
  · intro h
    unfold closeName at h
    split at h
    · obtain ⟨rfl, rfl⟩ := ok_inj h
      exact ⟨rfl, rfl⟩
    all_goals cases h
  · rintro ⟨rfl, rfl⟩
    rfl

theorem tokens_keyed (name : String) : (Value.object [(some name, .null)]).tokens =
    [.openBrace, .text (some name), .colon, .null, .closeBrace] := by
  simp [Value.memberTokens, joined, Value.tokens]

theorem reads_name (names : List (String × α)) : Reads (readName names) (nameOf? names) := by
  intro ts a rest
  constructor
  · intro h
    unfold readName at h
    split at h
    · next name ts =>
      split at h
      · next hl =>
        obtain ⟨rfl, rfl⟩ := ok_inj h
        exact ⟨.text (some name), by rw [Value.tokens]; rfl, lookUp_eq_ok_iff.mp hl⟩
      · cases h
    · next name ts =>
      split at h
      · next hl =>
        obtain ⟨rfl, rfl⟩ := closeName_eq_ok_iff.mp h
        exact ⟨.object [(some name, .null)], by rw [tokens_keyed]; rfl, lookUp_eq_ok_iff.mp hl⟩
      · cases h
    · cases h
  · rintro ⟨v, rfl, hd⟩
    unfold nameOf? at hd
    split at hd
    · rw [Value.tokens, List.singleton_append, readName, lookUp_eq_ok_iff.mpr hd]
    · rw [tokens_keyed]
      simp only [List.cons_append, List.nil_append]
      rw [readName, lookUp_eq_ok_iff.mpr hd]
      exact closeName_eq_ok_iff.mpr ⟨rfl, rfl⟩
    · cases hd

theorem reads_boolean : Reads readBoolean booleanOf? := by
  intro ts b rest
  constructor
  · intro h
    unfold readBoolean at h
    split at h
    · next b ts =>
      obtain ⟨rfl, rfl⟩ := ok_inj h
      exact ⟨.boolean b, by rw [Value.tokens]; rfl, rfl⟩
    · cases h
  · rintro ⟨v, rfl, hd⟩
    unfold booleanOf? at hd
    split at hd
    · obtain rfl := Option.some.inj hd
      rw [Value.tokens]
      rfl
    · cases hd

end Names

/-! ### Items of arrays -/

section Items

variable {α : Type} {first : Bool} {ts us rest : List Token} {a b : α}

/-- What stands in front of an item. -/
theorem eq_of_nextItem (h : nextItem first ts = .ok (some us)) :
    ts = (if first then [] else [.comma]) ++ us := by
  unfold nextItem at h
  cases first with
  | true =>
    split at h
    · cases h
    · cases h
    · exact Option.some.inj (Except.ok.inj h)
  | false =>
    split at h
    · cases h
    · rw [Option.some.inj (Except.ok.inj h)]
      rfl
    · cases h

theorem nextItem_value (first : Bool) (v : Value) (us : List Token) :
    nextItem first ((if first then [] else [.comma]) ++ (v.tokens ++ us)) =
      .ok (some (v.tokens ++ us)) := by
  cases first with
  | true =>
    cases v with
    | array items => rw [Value.tokens_array]; rfl
    | object members => rw [Value.tokens_object]; rfl
    | _ => rw [Value.tokens]; rfl
  | false => rfl

theorem closeArray_eq_ok_iff :
    closeArray a ts = .ok (b, rest) ↔ a = b ∧ ts = .closeBracket :: rest := by
  constructor
  · intro h
    unfold closeArray at h
    split at h
    · obtain ⟨rfl, rfl⟩ := ok_inj h
      exact ⟨rfl, rfl⟩
    · cases h
  · rintro ⟨rfl, rfl⟩
    rfl

/-- The items of an array begin where the first of them does, behind a comma if need be. -/
theorem joined_cons_append (first : Bool) (us : List Token) (uss : List (List Token))
    (rest : List Token) : joined first (us :: uss) ++ rest =
      (if first then [] else [.comma]) ++ (us ++ (joined false uss ++ rest)) := by
  rw [joined, List.append_assoc, List.append_assoc]

/-- How names are read, an item at a time. -/
theorem readNames_eq (names : List (String × α)) (first : Bool) (ts : List Token) :
    readNames names first ts = (nextItem first ts).bind fun
      | none => closeArray [] ts
      | some items => (readName names items).bind fun p =>
        (readNames names false p.2).map fun q => (p.1 :: q.1, q.2) := by
  conv => lhs; unfold readNames
  split
  · next hn => rw [hn]; rfl
  · next hn => rw [hn]; rfl
  · next hn =>
    split
    · next hr => simp only [hn, Except.bind, hr]
    · next hr =>
      split
      · next hs => simp only [hn, Except.bind, hr, hs, Except.map]
      · next hs => simp only [hn, Except.bind, hr, hs, Except.map]

theorem readNames_cons {names : List (String × α)} {as : List α} {items : List Token}
    (hn : nextItem first ts = .ok (some items)) (hr : readName names items = .ok (a, us))
    (hs : readNames names false us = .ok (as, rest)) :
    readNames names first ts = .ok (a :: as, rest) := by
  simp only [readNames_eq names first ts, hn, Except.bind, hr, hs, Except.map]

theorem readNames_eq_ok_iff {names : List (String × α)} {as : List α} :
    readNames names first ts = .ok (as, rest) ↔
      ∃ vs : List Value, ts = joined first (vs.map Value.tokens) ++ .closeBracket :: rest ∧
        vs.mapM (nameOf? names) = some as := by
  constructor
  · intro h
    fun_induction readNames names first ts generalizing as rest with
    | case1 => cases h
    | case2 first ts hn =>
      obtain ⟨rfl, rfl⟩ := closeArray_eq_ok_iff.mp h
      exact ⟨[], rfl, rfl⟩
    | case3 => cases h
    | case4 => cases h
    | case5 first ts items hn a rest₁ hr _ _ as rest₂ hs ih =>
      obtain ⟨rfl, rfl⟩ := ok_inj h
      obtain ⟨v, rfl, hv⟩ := (reads_name names _ _ _).mp hr
      obtain ⟨vs, rfl, hvs⟩ := ih hs
      refine ⟨v :: vs, ?_, ?_⟩
      · rw [List.map_cons, joined_cons_append]
        exact eq_of_nextItem hn
      · rw [List.mapM_cons, hv, hvs]
        rfl
  · rintro ⟨vs, rfl, hd⟩
    induction vs generalizing first as with
    | nil =>
      obtain rfl := Option.some.inj hd
      unfold readNames
      split
      · next hn => cases hn
      · exact closeArray_eq_ok_iff.mpr ⟨rfl, rfl⟩
      · next hn => cases hn
    | cons v vs ih =>
      rw [List.mapM_cons] at hd
      obtain ⟨a, hv, hd⟩ := Option.bind_eq_some_iff.mp hd
      obtain ⟨as', hvs, hd⟩ := Option.bind_eq_some_iff.mp hd
      obtain rfl := Option.some.inj hd
      rw [List.map_cons, joined_cons_append]
      have hrest : readNames names false
          (joined false (vs.map Value.tokens) ++ .closeBracket :: rest) = .ok (as', rest) := ih hvs
      exact readNames_cons (nextItem_value first v _) ((reads_name names _ _ _).mpr ⟨v, rfl, hv⟩)
        hrest

theorem reads_components : Reads readComponents componentsOf? := by
  intro ts a rest
  constructor
  · intro h
    unfold readComponents at h
    split at h
    · obtain ⟨rfl, rfl⟩ := ok_inj h
      exact ⟨.null, by rw [Value.tokens]; rfl, rfl⟩
    · split at h
      · next hr =>
        obtain ⟨rfl, rfl⟩ := ok_inj h
        obtain ⟨vs, rfl, hvs⟩ := readNames_eq_ok_iff.mp hr
        exact ⟨.array vs, by simp, by rw [componentsOf?, hvs, Option.map_some]⟩
      · cases h
    · cases h
  · rintro ⟨v, rfl, hd⟩
    unfold componentsOf? at hd
    split at hd
    · obtain rfl := Option.some.inj hd
      rw [Value.tokens]
      rfl
    · next items =>
      obtain ⟨as, has, rfl⟩ := Option.map_eq_some_iff.mp hd
      rw [Value.tokens_array, List.append_assoc, List.cons_append, readComponents]
      have hr : readNames componentNames true
          (joined true (items.map Value.tokens) ++ ([.closeBracket] ++ rest)) = .ok (as, rest) :=
        readNames_eq_ok_iff.mpr ⟨items, rfl, has⟩
      rw [hr]
    · cases hd

end Items

end Settings

end GatedLog
