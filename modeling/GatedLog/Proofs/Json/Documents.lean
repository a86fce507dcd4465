import GatedLog.Proofs.Json.Lexing

/-!
# Documents as tokens

A document is a text that spells the tokens of its value, and so one that is cut into these tokens
(`tokens_eq_iff`). Both descriptions of a value go through its parts: `Agree` relates them for a part
together with whatever tokens come after it.
-/

namespace GatedLog.Json

/-! ### One token -/

theorem spells_cons_iff {t : Token} {ts : List Token} {text : List Char} :
    Spells (t :: ts) text ↔ ∃ bs cs ds, Blanks bs ∧ t.Spelled cs ∧ Spells ts ds ∧
      text = bs ++ (cs ++ ds) := by
  constructor
  · intro h
    cases h with
    | cons hb ht h => exact ⟨_, _, _, hb, ht, h, rfl⟩
  · rintro ⟨bs, cs, ds, hb, ht, h, rfl⟩
    exact .cons hb ht h

/-- The character that a token is, if it is a single one. -/
def Token.mark? : Token → Option Char
  | .openBrace => some '\x7b'
  | .closeBrace => some '\x7d'
  | .openBracket => some '['
  | .closeBracket => some ']'
  | .colon => some ':'
  | .comma => some ','
  | _ => none

theorem spelled_iff_of_mark {t : Token} {c : Char} (h : t.mark? = some c) (cs : List Char) :
    t.Spelled cs ↔ cs = [c] := by
  constructor
  · intro hs
    cases hs <;> cases h <;> rfl
  · rintro rfl
    cases t with
    | openBrace => obtain rfl := Option.some.inj h; exact .openBrace
    | closeBrace => obtain rfl := Option.some.inj h; exact .closeBrace
    | openBracket => obtain rfl := Option.some.inj h; exact .openBracket
    | closeBracket => obtain rfl := Option.some.inj h; exact .closeBracket
    | colon => obtain rfl := Option.some.inj h; exact .colon
    | comma => obtain rfl := Option.some.inj h; exact .comma
    | _ => cases h

theorem spells_mark_iff {t : Token} {c : Char} (ht : t.mark? = some c) {ts : List Token}
    {text : List Char} :
    Spells (t :: ts) text ↔ ∃ bs ds, Blanks bs ∧ Spells ts ds ∧ text = bs ++ c :: ds := by
  rw [spells_cons_iff]
  constructor
  · rintro ⟨bs, cs, ds, hb, hs, h, rfl⟩
    obtain rfl := (spelled_iff_of_mark ht cs).mp hs
    exact ⟨bs, ds, hb, h, rfl⟩
  · rintro ⟨bs, ds, hb, h, rfl⟩
    exact ⟨bs, [c], ds, hb, (spelled_iff_of_mark ht [c]).mpr rfl, h, rfl⟩

theorem spells_comma_iff {ts : List Token} {text : List Char} :
    Spells (.comma :: ts) text ↔ ∃ bs ds, Blanks bs ∧ Spells ts ds ∧ text = bs ++ ',' :: ds :=
  spells_mark_iff rfl

theorem spells_colon_iff {ts : List Token} {text : List Char} :
    Spells (.colon :: ts) text ↔ ∃ bs ds, Blanks bs ∧ Spells ts ds ∧ text = bs ++ ':' :: ds :=
  spells_mark_iff rfl

/-! ### Parts -/

/-- The tokens of a part are spelled where the part is, whatever comes after it. -/
def Agree {α : Type} (tokens : α → List Token) (Part : α → List Char → Prop) (a : α) : Prop :=
  ∀ us text, Spells (tokens a ++ us) text ↔
    ∃ bs cs ds, Blanks bs ∧ Part a cs ∧ Spells us ds ∧ text = bs ++ (cs ++ ds)

section Parts

variable {α : Type} {tokens : α → List Token} {Part : α → List Char → Prop}

/-- Parts with commas between them, up to a closing bracket. -/
theorem spells_joined_iff {as : List α} (h : ∀ a ∈ as, Agree tokens Part a) {close : Token}
    {c : Char} (hc : close.mark? = some c) {us : List Token} {text : List Char} :
    Spells (joined true (as.map tokens) ++ close :: us) text ↔
      ∃ cs ds, Listed Part as cs ∧ Spells us ds ∧ text = cs ++ c :: ds := by
  induction as generalizing text with
  | nil =>
    refine (spells_mark_iff hc).trans ?_
    constructor
    · rintro ⟨bs, ds, hb, hu, rfl⟩
      exact ⟨bs, ds, .none hb, hu, rfl⟩
    · rintro ⟨cs, ds, hl, hu, rfl⟩
      cases hl with
      | none hb => exact ⟨cs, ds, hb, hu, rfl⟩
  | cons a as ih =>
    have ha := h a (List.mem_cons_self ..)
    have ih := fun text => @ih (fun b hb => h b (List.mem_cons_of_mem _ hb)) text
    cases as with
    | nil =>
      rw [show joined true ([a].map tokens) ++ close :: us = tokens a ++ close :: us by
        simp [joined]]
      refine (ha _ _).trans ?_
      constructor
      · rintro ⟨bs, cs, rest, hb, hcs, hrest, rfl⟩
        obtain ⟨ds, es, hd, hu, rfl⟩ := (spells_mark_iff hc).mp hrest
        exact ⟨_, es, .one hb hcs hd, hu, by simp⟩
      · rintro ⟨_, es, hl, hu, rfl⟩
        cases hl with
        | @one _ bs cs ds hb hcs hd =>
          exact ⟨bs, cs, ds ++ c :: es, hb, hcs,
            (spells_mark_iff hc).mpr ⟨ds, es, hd, hu, rfl⟩, by simp⟩
    | cons b as =>
      rw [show joined true ((a :: b :: as).map tokens) ++ close :: us =
        tokens a ++ .comma :: (joined true ((b :: as).map tokens) ++ close :: us) by simp [joined]]
      refine (ha _ _).trans ?_
      constructor
      · rintro ⟨bs, cs, rest, hb, hcs, hrest, rfl⟩
        obtain ⟨ds, es, hd, hes, rfl⟩ := spells_comma_iff.mp hrest
        obtain ⟨fs, gs, hl, hu, rfl⟩ := (ih es).mp hes
        exact ⟨_, gs, .more hb hcs hd hl, hu, by simp⟩
      · rintro ⟨_, gs, hl, hu, rfl⟩
        cases hl with
        | @more _ _ _ bs cs ds es hb hcs hd hl =>
          refine ⟨bs, cs, ds ++ ',' :: (es ++ c :: gs), hb, hcs,
            spells_comma_iff.mpr ⟨ds, _, hd, ?_, rfl⟩, by simp⟩
          exact (ih _).mpr ⟨es, gs, hl, hu, rfl⟩

/-- Parts with commas between them, in brackets. -/
theorem agree_brackets {β : Type} {v : β} {vTokens : β → List Token} {VPart : β → List Char → Prop}
    {as : List α} (h : ∀ a ∈ as, Agree tokens Part a) {opening close : Token} {o c : Char}
    (ho : opening.mark? = some o) (hc : close.mark? = some c)
    (ht : vTokens v = opening :: joined true (as.map tokens) ++ [close])
    (hv : ∀ cs, VPart v cs ↔ ∃ ds, Listed Part as ds ∧ cs = o :: (ds ++ [c])) :
    Agree vTokens VPart v := by
  intro us text
  rw [ht, List.cons_append, List.cons_append, List.append_assoc, List.singleton_append]
  refine (spells_mark_iff ho).trans ?_
  constructor
  · rintro ⟨bs, rest, hb, hrest, rfl⟩
    obtain ⟨cs, ds, hl, hu, rfl⟩ := (spells_joined_iff h hc).mp hrest
    exact ⟨bs, _, ds, hb, (hv _).mpr ⟨cs, hl, rfl⟩, hu, by simp⟩
  · rintro ⟨bs, cs, ds, hb, hcs, hu, rfl⟩
    obtain ⟨es, hl, rfl⟩ := (hv _).mp hcs
    exact ⟨bs, _, hb, (spells_joined_iff h hc).mpr ⟨es, ds, hl, hu, rfl⟩, by simp⟩

theorem agree_member {m : Option String × Value} (h : Agree Value.tokens Value.Spelled m.2) :
    Agree Value.memberTokens (Member Value.Spelled) m := by
  intro us text
  obtain ⟨name, v⟩ := m
  show Spells (.text name :: .colon :: (v.tokens ++ us)) text ↔ _
  constructor
  · intro hs
    obtain ⟨bs, ns, rest, hb, hn, hrest, rfl⟩ := spells_cons_iff.mp hs
    obtain ⟨ds, after, hd, hafter, rfl⟩ := spells_colon_iff.mp hrest
    obtain ⟨es, cs, fs, he, hv, hu, rfl⟩ := (h us after).mp hafter
    cases hn with
    | text _ _ hn => exact ⟨bs, _, fs, hb, .mk hn hd he hv, hu, by simp⟩
  · rintro ⟨bs, _, fs, hb, hm, hu, rfl⟩
    cases hm with
    | @mk _ _ ns ds es cs hn hd he hv =>
      have hvalue := (h us (es ++ (cs ++ fs))).mpr ⟨es, cs, fs, he, hv, hu, rfl⟩
      have hcolon := spells_colon_iff.mpr ⟨ds, _, hd, hvalue, rfl⟩
      exact spells_cons_iff.mpr ⟨bs, ns, _, hb, .text name ns hn, hcolon, by simp⟩

end Parts

/-! ### Values -/

theorem agree_of_token {v : Value} {t : Token} (ht : v.tokens = [t])
    (h : ∀ cs, t.Spelled cs ↔ v.Spelled cs) : Agree Value.tokens Value.Spelled v := by
  intro us text
  rw [ht, List.singleton_append, spells_cons_iff]
  simp only [h]

theorem agree_value (v : Value) : Agree Value.tokens Value.Spelled v := by
  induction v using Value.parts_induction with
  | null =>
    refine agree_of_token (by rw [Value.tokens]) fun cs => ⟨fun h => ?_, fun h => ?_⟩
    · cases h
      exact .null
    · cases h
      exact .null
  | boolean b =>
    refine agree_of_token (by rw [Value.tokens]) fun cs => ⟨fun h => ?_, fun h => ?_⟩
    · cases h with
      | true => exact .true
      | false => exact .false
    · cases h with
      | true => exact .true
      | false => exact .false
  | number x =>
    refine agree_of_token (by rw [Value.tokens]) fun cs => ⟨fun h => ?_, fun h => ?_⟩
    · cases h with
      | number _ _ h => exact .number x cs h
    · cases h with
      | number _ _ h => exact .number x cs h
  | text content =>
    refine agree_of_token (by rw [Value.tokens]) fun cs => ⟨fun h => ?_, fun h => ?_⟩
    · cases h with
      | text _ _ h => exact .text content cs h
    · cases h with
      | text _ _ h => exact .text content cs h
  | array items ih =>
    refine agree_brackets ih rfl rfl (Value.tokens_array items) ?_
    intro cs
    constructor
    · intro h
      cases h with
      | array _ ds h => exact ⟨ds, h, rfl⟩
    · rintro ⟨ds, h, rfl⟩
      exact .array items ds h
  | object members ih =>
    have hmembers : ∀ m ∈ members, Agree Value.memberTokens (Member Value.Spelled) m :=
      fun m hm => agree_member (ih m hm)
    refine agree_brackets hmembers rfl rfl (Value.tokens_object members) ?_
    intro cs
    constructor
    · intro h
      cases h with
      | object _ ds h => exact ⟨ds, h, rfl⟩
    · rintro ⟨ds, h, rfl⟩
      exact .object members ds h

/-- A document spells the tokens of its value. -/
theorem document_iff_spells {v : Value} {text : List Char} :
    Document v text ↔ Spells v.tokens text := by
  have h := agree_value v [] text
  rw [List.append_nil] at h
  rw [h]
  constructor
  · rintro ⟨bs, cs, ds, hb, hv, hd, rfl⟩
    exact ⟨bs, cs, ds, hb, hv, .nil hd, rfl⟩
  · rintro ⟨bs, cs, ds, hb, hv, hd, rfl⟩
    cases hd with
    | nil hd => exact ⟨bs, cs, ds, hb, hv, hd, rfl⟩

/-- **A text is cut into the tokens of a value** exactly if it is a document with that value. -/
theorem tokens_eq_iff {text : List Char} {v : Value} : tokens text = v.tokens ↔ Document v text :=
  tokens_eq_iff_spells.trans document_iff_spells.symm

end GatedLog.Json
