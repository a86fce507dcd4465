import GatedLog.Proofs.Settings.Documents

/-!
# Members of no field

What is read of a value does not depend on what stands behind it (`Local`), so a document may be
compared with another one a member at a time. Members whose names are no fields are passed over,
wherever they stand and whatever they hold, in documents that are accepted and in documents that are
not (`unknown_members_ignored`).
-/

namespace GatedLog.Settings

open Json (Value Token joined)

section Alike

variable {α β : Type} {read : List Token → Reading α} {v w : Value}

/-- The reader says the same of two values, whatever stands behind either. -/
def Alike (read : List Token → Reading α) (v w : Value) : Prop :=
  ∃ r : Except Fault α, (∀ rest, read (v.tokens ++ rest) = r.map (·, rest)) ∧
    ∀ rest, read (w.tokens ++ rest) = r.map (·, rest)

/-- What the reader says of a value does not depend on what stands behind it. -/
def Local (read : List Token → Reading α) : Prop := ∀ v, Alike read v v

theorem Alike.of_eq {r : Except Fault α} (h : ∀ rest, read (v.tokens ++ rest) = r.map (·, rest)) :
    Alike read v v := ⟨r, h, h⟩

theorem Alike.map {outer : List Token → Reading β} {f : α → β} (h : Alike read v w)
    (ho : ∀ ts, outer ts = (read ts).map fun p => (f p.1, p.2)) : Alike outer v w := by
  obtain ⟨r, hv, hw⟩ := h
  have hmap : ∀ rest : List Token, ((r.map (·, rest)).map fun p => (f p.1, p.2)) =
      (r.map f).map (·, rest) := by
    intro rest
    cases r <;> rfl
  refine ⟨r.map f, fun rest => ?_, fun rest => ?_⟩
  · rw [ho, hv, hmap]
  · rw [ho, hw, hmap]

/-- What is wrong with the type of a value shows in the value. -/
theorem wrongType_append (wanted : Wanted) (v : Value) (rest : List Token) :
    wrongType wanted (v.tokens ++ rest) = wrongType wanted v.tokens := by
  cases v with
  | array items => rw [Value.tokens_array]; rfl
  | object members => rw [Value.tokens_object]; rfl
  | text content => rw [Value.tokens]; cases content <;> rfl
  | _ => rw [Value.tokens]; rfl

theorem Alike.of_wrongType {wanted : Wanted}
    (h : ∀ rest, read (v.tokens ++ rest) = .error (wrongType wanted (v.tokens ++ rest))) :
    Alike read v v := by
  refine .of_eq (r := .error (wrongType wanted v.tokens)) fun rest => ?_
  rw [h, wrongType_append]
  rfl

/-! ### Names and truth values -/

theorem local_boolean : Local readBoolean := by
  intro v
  cases v with
  | boolean b => exact .of_eq (r := .ok b) fun rest => by rw [Value.tokens]; rfl
  | array items => exact .of_wrongType fun rest => by rw [Value.tokens_array]; rfl
  | object members => exact .of_wrongType fun rest => by rw [Value.tokens_object]; rfl
  | _ => exact .of_wrongType fun rest => by rw [Value.tokens]; rfl

theorem closeName_of_ne (a : α) (hv : v ≠ .null) (rest : List Token) :
    closeName a (.colon :: (v.tokens ++ rest)) = .error (wrongType .unit v.tokens) := by
  rw [← wrongType_append .unit v rest]
  cases v with
  | null => exact absurd rfl hv
  | array items => rw [Value.tokens_array]; rfl
  | object members => rw [Value.tokens_object]; rfl
  | _ => rw [Value.tokens]; rfl

/-- The tokens of an object, up to the value of its first member. -/
theorem tokens_object_append (name : Option String) (v : Value) (ms : List (Option String × Value))
    (rest : List Token) : (Value.object ((name, v) :: ms)).tokens ++ rest =
      .openBrace :: .text name :: .colon ::
        (v.tokens ++ (joined false (ms.map Value.memberTokens) ++ .closeBrace :: rest)) := by
  simp [joined, Value.memberTokens]

theorem local_name (names : List (String × α)) : Local (readName names) := by
  intro v
  cases v with
  | text content =>
    cases content with
    | none => exact .of_eq (r := .error .malformed) fun rest => by rw [Value.tokens]; rfl
    | some name =>
      refine .of_eq (r := lookUp names name) fun rest => ?_
      rw [Value.tokens, List.singleton_append, readName]
      cases lookUp names name <;> rfl
  | object ms =>
    cases ms with
    | nil => exact .of_eq (r := .error .malformed) fun rest => by rw [Value.tokens_object]; rfl
    | cons m ms =>
      obtain ⟨name, v⟩ := m
      cases name with
      | none =>
        exact .of_eq (r := .error .malformed) fun rest => by rw [tokens_object_append]; rfl
      | some name =>
        cases hl : lookUp names name with
        | error e =>
          exact .of_eq (r := .error e) fun rest => by rw [tokens_object_append, readName, hl]; rfl
        | ok a =>
          by_cases hv : v = .null
          · subst hv
            cases ms with
            | nil =>
              refine .of_eq (r := .ok a) fun rest => ?_
              rw [tokens_object_append, readName, hl, Value.tokens]
              rfl
            | cons m ms =>
              refine .of_eq (r := .error .malformed) fun rest => ?_
              rw [tokens_object_append, readName, hl, Value.tokens]
              rfl
          · refine .of_eq (r := .error (wrongType .unit v.tokens)) fun rest => ?_
            rw [tokens_object_append, readName, hl]
            exact closeName_of_ne a hv _
  | array items => exact .of_eq (r := .error .malformed) fun rest => by rw [Value.tokens_array]; rfl
  | _ => exact .of_eq (r := .error .malformed) fun rest => by rw [Value.tokens]; rfl

/-! ### Items -/

/-- What is read of the items of an array does not depend on what stands behind it. -/
theorem readNames_local (names : List (String × α)) (first : Bool) (vs : List Value) :
    ∃ r : Except Fault (List α), ∀ rest,
      readNames names first (joined first (vs.map Value.tokens) ++ .closeBracket :: rest) =
        r.map (·, rest) := by
  induction vs generalizing first with
  | nil =>
    refine ⟨.ok [], fun rest => ?_⟩
    rw [readNames_eq]
    rfl
  | cons v vs ih =>
    obtain ⟨r, hr, -⟩ := local_name names v
    obtain ⟨rs, hrs⟩ := ih false
    refine ⟨r.bind fun a => rs.map (a :: ·), fun rest => ?_⟩
    rw [List.map_cons, joined_cons_append, readNames_eq, nextItem_value]
    simp only [Except.bind, hr]
    cases r with
    | error e => rfl
    | ok a =>
      simp only [Except.map, hrs]
      cases rs <;> rfl

theorem local_components : Local readComponents := by
  intro v
  cases v with
  | array items =>
    obtain ⟨r, hr⟩ := readNames_local componentNames true items
    refine .of_eq (r := r.map some) fun rest => ?_
    rw [Value.tokens_array, List.append_assoc, List.cons_append, List.singleton_append,
      readComponents, hr]
    cases r <;> rfl
  | null => exact .of_eq (r := .ok none) fun rest => by rw [Value.tokens]; rfl
  | object members => exact .of_wrongType fun rest => by rw [Value.tokens_object]; rfl
  | _ => exact .of_wrongType fun rest => by rw [Value.tokens]; rfl

theorem readItems_local {fields : List (Field α)} (hf : ∀ f ∈ fields, ∀ a, Local (f.read a))
    (first : Bool) (a : α) (vs : List Value) :
    ∃ r : Except Fault α, ∀ rest,
      readItems fields first a (joined first (vs.map Value.tokens) ++ .closeBracket :: rest) =
        r.map (·, rest) := by
  induction fields generalizing first a vs with
  | nil =>
    cases vs with
    | nil => exact ⟨.ok a, fun rest => rfl⟩
    | cons v vs =>
      -- there are more items than fields
      refine ⟨.error .malformed, fun rest => ?_⟩
      rw [List.map_cons, joined_cons_append, readItems]
      cases first with
      | false => rfl
      | true =>
        cases v with
        | array items => rw [Value.tokens_array]; rfl
        | object members => rw [Value.tokens_object]; rfl
        | _ => rw [Value.tokens]; rfl
  | cons f fs ih =>
    cases vs with
    | nil => exact ⟨.ok a, fun rest => rfl⟩
    | cons v vs =>
      obtain ⟨r, hr, -⟩ := hf f (List.mem_cons_self ..) a v
      have hrest : ∃ r' : Except Fault α, ∀ rest, ((r.map (·, joined false (vs.map Value.tokens) ++
          .closeBracket :: rest)).bind fun p => readItems fs false p.1 p.2) =
            r'.map (·, rest) := by
        cases r with
        | error e => exact ⟨.error e, fun rest => rfl⟩
        | ok b => exact ih (fun g hg => hf g (List.mem_cons_of_mem _ hg)) false b vs
      obtain ⟨r', hr'⟩ := hrest
      refine ⟨r', fun rest => ?_⟩
      rw [List.map_cons, joined_cons_append, readItems, nextItem_value, ← hr']
      simp only [hr]
      cases r <;> rfl

/-! ### Members -/

/-- Members with others put among them whose names are none of the fields; a member that is kept
may be changed in some way. -/
inductive Padded (fields : List String)
    (Kept : Option String × Value → Option String × Value → Prop) :
    List (Option String × Value) → List (Option String × Value) → Prop
  | nil : Padded fields Kept [] []
  | keep {m m' : Option String × Value} {ms ms' : List (Option String × Value)} (h : Kept m m')
    (hs : Padded fields Kept ms ms') : Padded fields Kept (m :: ms) (m' :: ms')
  | insert {name : String} {ms ms' : List (Option String × Value)} (hn : name ∉ fields) (v : Value)
    (hs : Padded fields Kept ms ms') : Padded fields Kept ms ((some name, v) :: ms')

theorem padded_self {fields : List String}
    {Kept : Option String × Value → Option String × Value → Prop} (hk : ∀ m, Kept m m) (ms : List (Option String × Value)) : Padded fields Kept ms ms := by
  induction ms with
  | nil => exact .nil
  | cons m ms ih => exact .keep (hk m) ih

/-- How the next member is read, whatever it is called. -/
theorem readMembers_member (fields : List (Field α)) (first : Bool) (a : α) (name : String)
    (v : Value) (ms : List (Option String × Value)) (rest : List Token) :
    readMembers fields first a
        (joined first (((some name, v) :: ms).map Value.memberTokens) ++ .closeBrace :: rest) =
      (readMember fields a name (.colon :: (v.tokens ++
        (joined false (ms.map Value.memberTokens) ++ .closeBrace :: rest)))).bind fun p =>
          readMembers fields false p.1 p.2 := by
  rw [List.map_cons, joined_cons_append, readMembers_eq, Value.memberTokens, List.cons_append,
    List.cons_append, nextMember_name]
  rfl

theorem readMembers_unnamed (fields : List (Field α)) (first : Bool) (a : α) (v : Value)
    (ms : List (Option String × Value)) (rest : List Token) :
    readMembers fields first a
        (joined first (((none, v) :: ms).map Value.memberTokens) ++ .closeBrace :: rest) =
      .error .malformed := by
  rw [List.map_cons, joined_cons_append, readMembers_eq]
  cases first <;> rfl

/-- A member of no field is passed over. -/
theorem readMember_unknown {fields : List (Field α)} {name : String}
    (hn : name ∉ fields.map (·.name)) (a : α) (v : Value) (rest : List Token) :
    readMember fields a name (.colon :: (v.tokens ++ rest)) = .ok (a, rest) := by
  have hfind : (fields.find? fun f => f.name == name) = none := by
    rw [List.find?_eq_none]
    intro f hf hname
    exact hn (List.mem_map.mpr ⟨f, hf, by simpa using hname⟩)
  have hskip : Json.skipValue (v.tokens ++ rest) = some rest :=
    Json.skipValue_eq_some_iff.mpr ⟨v, rfl⟩
  simp only [readMember, hfind, afterColon, hskip]

section Members

variable {fields : List (Field α)} {Kept : Option String × Value → Option String × Value → Prop}

/-- A member of which every field says the same is read as the same. -/
theorem readMember_alike {name : String}
    (h : ∀ f ∈ fields, f.name = name → ∀ a, Alike (f.read a) v w) (a : α) :
    ∃ r : Except Fault α,
      (∀ rest, readMember fields a name (.colon :: (v.tokens ++ rest)) = r.map (·, rest)) ∧
      ∀ rest, readMember fields a name (.colon :: (w.tokens ++ rest)) = r.map (·, rest) := by
  cases hfind : fields.find? fun f => f.name == name with
  | none =>
    have hn : name ∉ fields.map (·.name) := by
      intro hn
      obtain ⟨f, hf, hname⟩ := List.mem_map.mp hn
      exact List.find?_eq_none.mp hfind f hf (by simpa using hname)
    exact ⟨.ok a, readMember_unknown hn a v, readMember_unknown hn a w⟩
  | some f =>
    have hname : f.name = name := by simpa using List.find?_some hfind
    by_cases hg : f.given a = true
    · refine ⟨.error (.problem (.duplicateField f.name)), fun rest => ?_, fun rest => ?_⟩
      all_goals simp only [readMember, hfind, hg, if_true, Except.map]
    · obtain ⟨r, hv, hw⟩ := h f (List.mem_of_find?_eq_some hfind) hname a
      refine ⟨r, fun rest => ?_, fun rest => ?_⟩
      · simp only [readMember, hfind, hg, Bool.false_eq_true, if_false, afterColon, hv]
      · simp only [readMember, hfind, hg, Bool.false_eq_true, if_false, afterColon, hw]

/-- **Members of no field do not matter**, wherever they stand among the others. -/
theorem readMembers_padded {ms ms' : List (Option String × Value)}
    (hk : ∀ {m m'}, Kept m m' → m.1 = m'.1 ∧
      ∀ f ∈ fields, m.1 = some f.name → ∀ a, Alike (f.read a) m.2 m'.2)
    (h : Padded (fields.map (·.name)) Kept ms ms') (a : α) :
    ∃ r : Except Fault α,
      (∀ first rest, readMembers fields first a
        (joined first (ms.map Value.memberTokens) ++ .closeBrace :: rest) = r.map (·, rest)) ∧
      ∀ first rest, readMembers fields first a
        (joined first (ms'.map Value.memberTokens) ++ .closeBrace :: rest) = r.map (·, rest) := by
  induction h generalizing a with
  | nil =>
    refine ⟨.ok a, fun first rest => ?_, fun first rest => ?_⟩
    all_goals rw [readMembers_eq]; rfl
  | @keep m m' ms ms' hm hs ih =>
    obtain ⟨name, v⟩ := m
    obtain ⟨name', w⟩ := m'
    obtain ⟨hname, hf⟩ := hk hm
    obtain rfl : name = name' := hname
    cases name with
    | none =>
      exact ⟨.error .malformed, fun first rest => readMembers_unnamed ..,
        fun first rest => readMembers_unnamed ..⟩
    | some name =>
      obtain ⟨r, hv, hw⟩ :=
        readMember_alike (fun f hmem hname => hf f hmem (congrArg some hname.symm)) a
      cases r with
      | error e =>
        refine ⟨.error e, fun first rest => ?_, fun first rest => ?_⟩
        · rw [readMembers_member, hv]; rfl
        · rw [readMembers_member, hw]; rfl
      | ok b =>
        obtain ⟨r, hms, hms'⟩ := ih b
        refine ⟨r, fun first rest => ?_, fun first rest => ?_⟩
        · rw [readMembers_member, hv]
          exact hms false rest
        · rw [readMembers_member, hw]
          exact hms' false rest
  | @insert name ms ms' hn v hs ih =>
    obtain ⟨r, hms, hms'⟩ := ih a
    refine ⟨r, hms, fun first rest => ?_⟩
    rw [readMembers_member, readMember_unknown hn]
    exact hms' false rest

/-! ### Records -/

theorem alike_record (fields : List (Field α)) (wanted : Wanted) (empty : α)
    {ms ms' : List (Option String × Value)}
    (hk : ∀ {m m'}, Kept m m' → m.1 = m'.1 ∧
      ∀ f ∈ fields, m.1 = some f.name → ∀ a, Alike (f.read a) m.2 m'.2)
    (h : Padded (fields.map (·.name)) Kept ms ms') :
    Alike (readRecord wanted fields empty) (.object ms) (.object ms') := by
  obtain ⟨r, hms, hms'⟩ := readMembers_padded hk h empty
  refine ⟨r, fun rest => ?_, fun rest => ?_⟩
  · rw [Value.tokens_object, List.append_assoc, List.cons_append, readRecord]
    exact hms true rest
  · rw [Value.tokens_object, List.append_assoc, List.cons_append, readRecord]
    exact hms' true rest

theorem local_record (wanted : Wanted) (empty : α) (hf : ∀ f ∈ fields, ∀ a, Local (f.read a)) :
    Local (readRecord wanted fields empty) := by
  intro v
  cases v with
  | object ms =>
    have hself : Padded (fields.map (·.name)) Eq ms ms := padded_self (fun _ => rfl) ms
    refine alike_record fields wanted empty ?_ hself
    rintro m _ rfl
    exact ⟨rfl, fun f hmem _ a => hf f hmem a m.2⟩
  | array vs =>
    obtain ⟨r, hr⟩ := readItems_local hf true empty vs
    refine .of_eq (r := r) fun rest => ?_
    rw [Value.tokens_array, List.append_assoc, List.cons_append, List.singleton_append,
      readRecord, hr]
  | _ => exact .of_wrongType fun rest => by rw [Value.tokens]; rfl

end Members

/-- A field that holds a value of its own type says what its reader says. -/
theorem alike_slot {name : String} {get : α → Option β} {set : α → β → α}
    {read : List Token → Reading β}
    {shrinks : ∀ {b ts rest}, read ts = .ok (b, rest) → rest.length < ts.length}
    (h : Alike read v w) (a : α) : Alike ((Field.slot name get set read shrinks).read a) v w := by
  refine h.map (f := set a) fun ts => ?_
  simp only [Field.slot]
  cases read ts <;> rfl

end Alike

/-! ### Documents -/

/-- The names of the fields of a document. -/
def documentNames : List String := ["level", "components", "console"]

/-- The names of the fields of the console. -/
def consoleNames : List String :=
  ["show_level", "show_component", "show_timestamp", "show_thread", "color"]

/-- A member of a document is kept as it is, or with members put into it if it is a console. -/
inductive KeptMember : Option String × Value → Option String × Value → Prop
  | same (m : Option String × Value) : KeptMember m m
  | console {ms ms' : List (Option String × Value)} (h : Padded consoleNames Eq ms ms') :
    KeptMember (some "console", .object ms) (some "console", .object ms')

theorem local_consoleFields : ∀ f ∈ consoleFields, ∀ a, Local (f.read a) := by
  simp only [consoleFields, List.forall_mem_cons, List.not_mem_nil, IsEmpty.forall_iff,
    implies_true, and_true]
  and_intros <;> exact fun a v => alike_slot (local_boolean v) a

theorem readConsole_eq (ts : List Token) :
    readConsole ts = (readRecord .console consoleFields {} ts).map fun p => (p.1.layout, p.2) := by
  unfold readConsole
  cases readRecord .console consoleFields {} ts <;> rfl

theorem local_console : Local readConsole := fun v =>
  (local_record .console {} local_consoleFields v).map readConsole_eq

theorem alike_console {ms ms' : List (Option String × Value)} (h : Padded consoleNames Eq ms ms') :
    Alike readConsole (.object ms) (.object ms') := by
  refine (alike_record consoleFields .console {} ?_ h).map readConsole_eq
  rintro m _ rfl
  exact ⟨rfl, fun f hmem _ a => local_consoleFields f hmem a m.2⟩

/-- Every field of a document says the same of a member that is kept. -/
theorem KeptMember.alike {m m' : Option String × Value} (h : KeptMember m m') : m.1 = m'.1 ∧
    ∀ f ∈ documentFields, m.1 = some f.name → ∀ a, Alike (f.read a) m.2 m'.2 := by
  cases h with
  | same m =>
    refine ⟨rfl, ?_⟩
    simp only [documentFields, List.forall_mem_cons, List.not_mem_nil, IsEmpty.forall_iff,
      implies_true, and_true]
    exact ⟨fun _ a => alike_slot (local_name severityNames m.2) a,
      fun _ a => alike_slot (local_components m.2) a, fun _ a => alike_slot (local_console m.2) a⟩
  | console h =>
    refine ⟨rfl, ?_⟩
    simp only [documentFields, List.forall_mem_cons, List.not_mem_nil, IsEmpty.forall_iff,
      implies_true, and_true]
    exact ⟨fun hn => absurd hn (by decide), fun hn => absurd hn (by decide),
      fun _ a => alike_slot (alike_console h) a⟩

/-- **Unknown settings never matter.** Whatever members are put into a document that is an object,
or into its console, as long as their names are texts and none of the fields there: the outcome of
reading it is the same as before. -/
theorem unknown_members_ignored {ms ms' : List (Option String × Value)}
    (h : Padded documentNames KeptMember ms ms') {text text' : String}
    (ht : Json.Document (.object ms) text.toList) (ht' : Json.Document (.object ms') text'.toList) :
    read text' = read text := by
  obtain ⟨r, hms, hms'⟩ := alike_record documentFields .settings {} KeptMember.alike h
  have hms := hms []
  have hms' := hms' []
  rw [List.append_nil] at hms hms'
  rw [read, read, Json.tokens_eq_iff.mpr ht, Json.tokens_eq_iff.mpr ht', ofTokens, ofTokens, hms,
    hms']

/-- The members of a document whose console has a color that is no truth value. -/
def coloredMembers : List (Option String × Value) :=
  [(some "level", .text (some "warn")),
    (some "console", .object [(some "color", .number ⟨false, ['1'], [], none⟩)])]

/-- The same with others among them, and in the console: with a name of the console outside of it, one
name twice, half of a surrogate pair, and a number that is out of range. -/
def paddedMembers : List (Option String × Value) :=
  [(some "color", .array [.object [], .text none]), (some "level", .text (some "warn")),
    (some "", .number ⟨true, ['9'], [], some (false, ['9', '9', '9'])⟩),
    (some "console", .object [(some "level", .null), (some "level", .boolean true),
      (some "color", .number ⟨false, ['1'], [], none⟩)])]

theorem padded_colors_refused :
    Padded documentNames KeptMember coloredMembers paddedMembers ∧
      read "\x7b\"level\":\"warn\",\"console\":\x7b\"color\":1\x7d\x7d" =
        .error (.problem (.wrongType (.integer 1) .boolean)) ∧
      read ("\x7b\"color\":[\x7b\x7d,\"\\udead\"],\"level\":\"warn\",\"\":-9e999," ++
        "\"console\":\x7b\"level\":null,\"level\":true,\"color\":1\x7d\x7d") =
        .error (.problem (.wrongType (.integer 1) .boolean)) := by
  have hpadded : Padded documentNames KeptMember coloredMembers paddedMembers :=
    .insert (by decide) _ (.keep (.same _) (.insert (by decide) _ (.keep (.console
      (.insert (by decide) _ (.insert (by decide) _ (.keep rfl .nil)))) .nil)))
  have hread : read "\x7b\"level\":\"warn\",\"console\":\x7b\"color\":1\x7d\x7d" =
      .error (.problem (.wrongType (.integer 1) .boolean)) := by decide +kernel
  refine ⟨hpadded, hread, (unknown_members_ignored hpadded ?_ ?_).trans hread⟩
  · refine Json.tokens_eq_iff.mp ?_
    conv => rhs; simp [coloredMembers, Value.memberTokens, Value.tokens, joined]
    decide +kernel
  · refine Json.tokens_eq_iff.mp ?_
    conv => rhs; simp [paddedMembers, Value.memberTokens, Value.tokens, joined]
    decide +kernel

end GatedLog.Settings
