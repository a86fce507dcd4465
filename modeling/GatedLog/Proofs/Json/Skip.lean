import GatedLog.Json.Skip
import GatedLog.Proofs.Json.Value

/-!
# What is skipped

Skipping passes over the tokens of exactly one value, whatever the value (`skipValue_eq_some_iff`).
A place in the middle of a value expects the rest of the parts of all values that are open, the
innermost first; so both directions are proved with any number of enclosures around, and once for
the items of an array and the members of an object (`Brackets`).
-/

namespace GatedLog.Json

namespace Place

variable {p q : Place} {t : Token} {ts rest : List Token} {es : List Enclosure}

theorem skip_cons (h : p.finished = false) (ha : p.advance t = some q) (ts : List Token) :
    p.skip (t :: ts) = q.skip ts := by
  rw [skip, if_neg (by rw [h]; exact Bool.false_ne_true), ha]

theorem exists_of_skip (h : p.finished = false) (hs : p.skip ts = some rest) :
    ∃ t us q, ts = t :: us ∧ p.advance t = some q ∧ q.skip us = some rest := by
  cases ts with
  | nil =>
    rw [skip, if_neg (by rw [h]; exact Bool.false_ne_true)] at hs
    cases hs
  | cons t us =>
    rw [skip, if_neg (by rw [h]; exact Bool.false_ne_true)] at hs
    cases ha : p.advance t with
    | none => rw [ha] at hs; cases hs
    | some q => exact ⟨t, us, q, rfl, ha, by rw [ha] at hs; exact hs⟩

theorem finished_of_ne {a : Awaited} (h : a ≠ .separator) : finished ⟨es, a⟩ = false := by
  cases a <;> first | exact absurd rfl h | exact Bool.and_false _

theorem skip_finished (ts : List Token) : skip ⟨[], .separator⟩ ts = some ts := by
  cases ts <;> rfl

end Place

open Place

/-! ### Parts between brackets -/

/-- What stands between brackets: parts with commas between them. -/
structure Brackets (α : Type) where
  enclosure : Enclosure
  close : Token
  /-- What a part begins with. -/
  awaited : Awaited
  /-- What stands behind the opening bracket: a part, or the end. -/
  opened : Awaited
  tokens : α → List Token
  awaited_ne : awaited ≠ .separator
  opened_ne : opened ≠ .separator
  comma : ∀ es, advance ⟨enclosure :: es, .separator⟩ .comma = some ⟨enclosure :: es, awaited⟩
  closing : ∀ es, advance ⟨enclosure :: es, .separator⟩ close = some ⟨es, .separator⟩
  /-- Nothing else stands behind a part. -/
  separator : ∀ es t q, advance ⟨enclosure :: es, .separator⟩ t = some q → t = .comma ∨ t = close
  empty : ∀ es, advance ⟨enclosure :: es, opened⟩ close = some ⟨es, .separator⟩
  part : ∀ es t, t ≠ close →
    advance ⟨enclosure :: es, opened⟩ t = advance ⟨enclosure :: es, awaited⟩ t
  /-- No part begins with the end. -/
  begins : ∀ x, ∃ t ts, tokens x = t :: ts ∧ t ≠ close

/-- The items of an array. -/
def Brackets.items : Brackets Value where
  enclosure := .sequence
  close := .closeBracket
  awaited := .value
  opened := .valueOrClose
  tokens := Value.tokens
  awaited_ne := by decide
  opened_ne := by decide
  comma _ := rfl
  closing _ := rfl
  separator es t q h := by
    cases t with
    | comma => exact .inl rfl
    | closeBracket => exact .inr rfl
    | _ => cases h
  empty _ := rfl
  part es t ht := by
    cases t with
    | closeBracket => exact absurd rfl ht
    | _ => rfl
  begins v := by
    cases v with
    | array items => exact ⟨.openBracket, _, Value.tokens_array items, by decide⟩
    | object members => exact ⟨.openBrace, _, Value.tokens_object members, by decide⟩
    | _ =>
      rw [Value.tokens]
      exact ⟨_, [], rfl, by simp⟩

/-- The members of an object. -/
def Brackets.members : Brackets (Option String × Value) where
  enclosure := .object
  close := .closeBrace
  awaited := .key
  opened := .keyOrClose
  tokens := Value.memberTokens
  awaited_ne := by decide
  opened_ne := by decide
  comma _ := rfl
  closing _ := rfl
  separator es t q h := by
    cases t with
    | comma => exact .inl rfl
    | closeBrace => exact .inr rfl
    | _ => cases h
  empty _ := rfl
  part es t ht := by
    cases t with
    | closeBrace => exact absurd rfl ht
    | _ => rfl
  begins m := ⟨.text m.1, _, rfl, by simp⟩

namespace Brackets

variable {α : Type} {b : Brackets α} {ts rest : List Token} {es : List Enclosure} {n : Nat}

/-- The part is skipped. -/
def Skips (b : Brackets α) (x : α) : Prop :=
  ∀ es ts, skip ⟨es, b.awaited⟩ (b.tokens x ++ ts) = skip ⟨es, .separator⟩ ts

theorem skip_rest {xs : List α} (h : ∀ x ∈ xs, b.Skips x) (es : List Enclosure) (ts : List Token) :
    skip ⟨b.enclosure :: es, .separator⟩ (joined false (xs.map b.tokens) ++ b.close :: ts) =
      skip ⟨es, .separator⟩ ts := by
  induction xs with
  | nil => exact skip_cons rfl (b.closing es) ts
  | cons x xs ih =>
    rw [List.map_cons, joined]
    simp only [Bool.false_eq_true, if_false, List.append_assoc]
    refine (skip_cons rfl (b.comma es) _).trans ?_
    exact (h x (List.mem_cons_self ..) _ _).trans (ih fun y hy => h y (List.mem_cons_of_mem _ hy))

/-- All parts are skipped, and the closing bracket. -/
theorem skip_all {xs : List α} (h : ∀ x ∈ xs, b.Skips x) (es : List Enclosure) (ts : List Token) :
    skip ⟨b.enclosure :: es, b.opened⟩ (joined true (xs.map b.tokens) ++ b.close :: ts) =
      skip ⟨es, .separator⟩ ts := by
  cases xs with
  | nil => exact skip_cons (finished_of_ne b.opened_ne) (b.empty es) ts
  | cons x xs =>
    rw [List.map_cons, joined]
    simp only [if_true, List.nil_append, List.append_assoc]
    have hx := h x (List.mem_cons_self ..) (b.enclosure :: es)
      (joined false (xs.map b.tokens) ++ b.close :: ts)
    have hxs := skip_rest (fun y hy => h y (List.mem_cons_of_mem _ hy)) es ts
    obtain ⟨t, us, hu, ht⟩ := b.begins x
    rw [hu] at hx ⊢
    refine Eq.trans ?_ (hx.trans hxs)
    rw [List.cons_append, skip, skip, b.part es t ht,
      finished_of_ne b.opened_ne, finished_of_ne b.awaited_ne]

/-- Whatever is skipped of at most `n` tokens, where a part is awaited, is a part. -/
def Finds (b : Brackets α) (n : Nat) : Prop :=
  ∀ ts es rest, ts.length ≤ n → skip ⟨es, b.awaited⟩ ts = some rest →
    ∃ x us, ts = b.tokens x ++ us ∧ skip ⟨es, .separator⟩ us = some rest

theorem Finds.more (h : b.Finds n) (hn : ts.length ≤ n)
    (hs : skip ⟨b.enclosure :: es, .separator⟩ ts = some rest) :
    ∃ (xs : List α) (us : List Token), ts = joined false (xs.map b.tokens) ++ b.close :: us ∧
      skip ⟨es, .separator⟩ us = some rest := by
  -- each part comes behind a comma, so there are fewer tokens left
  induction hl : ts.length using Nat.strongRecOn generalizing ts with
  | ind l ih =>
    obtain ⟨t, us, q, rfl, ha, hq⟩ := exists_of_skip rfl hs
    rcases b.separator es t q ha with rfl | rfl
    · obtain rfl := Option.some.inj ((b.comma es).symm.trans ha)
      rw [List.length_cons] at hn hl
      obtain ⟨x, vs, rfl, hv⟩ := h us _ rest (by omega) hq
      rw [List.length_append] at hn hl
      obtain ⟨xs, ws, rfl, hw⟩ := ih vs.length (by omega) (by omega) hv rfl
      exact ⟨x :: xs, ws, by simp [joined], hw⟩
    · obtain rfl := Option.some.inj ((b.closing es).symm.trans ha)
      exact ⟨[], us, rfl, hq⟩

/-- What is skipped behind an opening bracket are parts, up to the closing bracket. -/
theorem Finds.all (h : b.Finds n) (hn : ts.length ≤ n)
    (hs : skip ⟨b.enclosure :: es, b.opened⟩ ts = some rest) :
    ∃ (xs : List α) (us : List Token), ts = joined true (xs.map b.tokens) ++ b.close :: us ∧
      skip ⟨es, .separator⟩ us = some rest := by
  obtain ⟨t, us, q, rfl, ha, hq⟩ := exists_of_skip (finished_of_ne b.opened_ne) hs
  by_cases ht : t = b.close
  · subst ht
    obtain rfl := Option.some.inj ((b.empty es).symm.trans ha)
    exact ⟨[], us, rfl, hq⟩
  · rw [b.part es t ht] at ha
    have hs' : skip ⟨b.enclosure :: es, b.awaited⟩ (t :: us) = some rest :=
      (skip_cons (finished_of_ne b.awaited_ne) ha us).trans hq
    obtain ⟨x, vs, hx, hv⟩ := h (t :: us) _ rest hn hs'
    rw [hx, List.length_append] at hn
    obtain ⟨xs, ws, rfl, hw⟩ := h.more (by omega) hv
    exact ⟨x :: xs, ws, by simp [hx, joined], hw⟩

end Brackets

/-! ### Values are skipped -/

theorem skips_member {m : Option String × Value} (h : Brackets.items.Skips m.2) :
    Brackets.members.Skips m := by
  intro es ts
  have hk : skip ⟨es, .key⟩ (Value.memberTokens m ++ ts) =
      skip ⟨es, .colon⟩ (.colon :: (m.2.tokens ++ ts)) :=
    skip_cons (finished_of_ne (by decide)) rfl _
  have hc : skip ⟨es, .colon⟩ (.colon :: (m.2.tokens ++ ts)) =
      skip ⟨es, .value⟩ (m.2.tokens ++ ts) :=
    skip_cons (finished_of_ne (by decide)) rfl _
  exact hk.trans (hc.trans (h es ts))

theorem skips_value (v : Value) : Brackets.items.Skips v := by
  induction v using Value.parts_induction with
  | array items ih =>
    intro es ts
    show skip ⟨es, .value⟩ ((Value.array items).tokens ++ ts) = _
    rw [Value.tokens_array, List.append_assoc, List.cons_append]
    refine (skip_cons (finished_of_ne (by decide)) rfl _).trans ?_
    exact Brackets.skip_all ih es ts
  | object members ih =>
    intro es ts
    show skip ⟨es, .value⟩ ((Value.object members).tokens ++ ts) = _
    rw [Value.tokens_object, List.append_assoc, List.cons_append]
    refine (skip_cons (finished_of_ne (by decide)) rfl _).trans ?_
    exact Brackets.skip_all (fun m hm => skips_member (ih m hm)) es ts
  | _ =>
    intro es ts
    show skip ⟨es, .value⟩ (Value.tokens _ ++ ts) = _
    rw [Value.tokens, List.singleton_append]
    exact skip_cons (finished_of_ne (by decide)) rfl ts

/-! ### Only values are skipped -/

theorem finds_members {n : Nat} (h : Brackets.items.Finds n) : Brackets.members.Finds n := by
  intro ts es rest hn hs
  obtain ⟨t, ts, q, rfl, ha, hc⟩ := exists_of_skip (finished_of_ne (by decide)) hs
  cases t with
  | text name =>
    obtain rfl := Option.some.inj ha
    obtain ⟨t, ts, q, rfl, ha, hv⟩ := exists_of_skip (finished_of_ne (by decide)) hc
    cases t with
    | colon =>
      obtain rfl := Option.some.inj ha
      rw [List.length_cons, List.length_cons] at hn
      obtain ⟨v, us, rfl, hr⟩ := h ts es rest (by omega) hv
      exact ⟨(name, v), us, rfl, hr⟩
    | _ => cases ha
  | _ => cases ha

theorem finds_value (n : Nat) : Brackets.items.Finds n := by
  induction n with
  | zero =>
    intro ts es rest hn hs
    obtain ⟨t, us, q, rfl, -⟩ := exists_of_skip (finished_of_ne (by decide)) hs
    exact absurd hn (Nat.not_succ_le_zero _)
  | succ n ih =>
    intro ts es rest hn hs
    obtain ⟨t, ts, q, rfl, ha, hq⟩ := exists_of_skip (finished_of_ne (by decide)) hs
    have hlen : ts.length ≤ n := Nat.le_of_succ_le_succ hn
    have scalar : ∀ v : Value, v.tokens = [t] → skip ⟨es, .separator⟩ ts = some rest →
        ∃ (v : Value) (us : List Token), t :: ts = v.tokens ++ us ∧
          skip ⟨es, .separator⟩ us = some rest := fun v hv hs => ⟨v, ts, by rw [hv]; rfl, hs⟩
    cases t with
    | null =>
      obtain rfl := Option.some.inj ha
      exact scalar .null (by rw [Value.tokens]) hq
    | boolean x =>
      obtain rfl := Option.some.inj ha
      exact scalar (.boolean x) (by rw [Value.tokens]) hq
    | number x =>
      obtain rfl := Option.some.inj ha
      exact scalar (.number x) (by rw [Value.tokens]) hq
    | text content =>
      obtain rfl := Option.some.inj ha
      exact scalar (.text content) (by rw [Value.tokens]) hq
    | openBracket =>
      obtain rfl := Option.some.inj ha
      obtain ⟨vs, us, rfl, hr⟩ := ih.all hlen hq
      exact ⟨.array vs, us, by simp [Brackets.items], hr⟩
    | openBrace =>
      obtain rfl := Option.some.inj ha
      obtain ⟨ms, us, rfl, hr⟩ := (finds_members ih).all hlen hq
      exact ⟨.object ms, us, by simp [Brackets.items, Brackets.members], hr⟩
    | _ => cases ha

/-- **Skipping passes over one value**, whatever it is. -/
theorem skipValue_eq_some_iff {ts rest : List Token} :
    skipValue ts = some rest ↔ ∃ v : Value, ts = v.tokens ++ rest := by
  constructor
  · intro h
    obtain ⟨v, us, rfl, hs⟩ := finds_value ts.length ts [] rest (Nat.le_refl _) h
    rw [skip_finished] at hs
    obtain rfl := Option.some.inj hs
    exact ⟨v, rfl⟩
  · rintro ⟨v, rfl⟩
    exact (skips_value v [] rest).trans (skip_finished rest)

end GatedLog.Json
