import GatedLog.Proofs.Json.Continuation
import GatedLog.Proofs.Settings.Documents

/-!
# The first problem decides

A reader finds a problem at a token and looks at nothing behind it (`Prompt`). So once a text has a
problem, no text that goes on from there is read with another outcome (`problem_decides`). The one
exception is a problem whose wording quotes a number, since the number may go on.
-/

namespace GatedLog.Settings

open Json (Value Token tokens_append)

/-- Whether the wording of a problem quotes a number. -/
def Problem.quotesNumber : Problem → Bool
  | wrongType (.integer _) _ => true
  | wrongType (.floating _) _ => true
  | _ => false

section Prompt

variable {α β : Type} {read : List Token → Except Fault β} {ts : List Token} {e : Fault}

/-- The reader has found the fault at a token that ends there, and nothing behind it matters. -/
def FoundIn (read : List Token → Except Fault β) (ts : List Token) (e : Fault) : Prop :=
  ∃ us u vs, ts = us ++ u :: vs ∧ u.ended = true ∧ ∀ ws, read (us ++ u :: ws) = .error e

/-- Whatever problem the reader finds, short of one that quotes a number, it finds at a token. -/
def Prompt (read : List Token → Except Fault β) : Prop :=
  ∀ ts p, read ts = .error (.problem p) → p.quotesNumber = false → FoundIn read ts (.problem p)

/-- A reader that first takes some tokens finds what the reader behind them finds. -/
theorem FoundIn.behind {inner : List Token → Except Fault α} (h : FoundIn inner ts e)
    (front : List Token) (hread : ∀ ws, inner ws = .error e → read (front ++ ws) = .error e) :
    FoundIn read (front ++ ts) e := by
  obtain ⟨us, u, vs, rfl, hu, hws⟩ := h
  refine ⟨front ++ us, u, vs, (List.append_assoc ..).symm, hu, fun ws => ?_⟩
  rw [List.append_assoc]
  exact hread _ (hws ws)

/-- What follows a reader keeps the problems that the reader finds. -/
theorem Prompt.map (h : Prompt read) {outer : List Token → Except Fault α}
    (hproblem : ∀ ts p, outer ts = .error (.problem p) → read ts = .error (.problem p))
    (herror : ∀ ts e, read ts = .error e → outer ts = .error e) : Prompt outer := by
  intro ts p ho hp
  exact (h ts p (hproblem ts p ho) hp).behind [] fun ws hw => herror ws _ hw

/-- The problem of a value of the wrong type shows in its first token. -/
theorem exists_of_wrongType {wanted : Wanted} {p : Problem}
    (h : wrongType wanted ts = .problem p) (hp : p.quotesNumber = false) :
    ∃ u vs, ts = u :: vs ∧ u.ended = true ∧ ∀ ws, wrongType wanted (u :: ws) = .problem p := by
  cases ts with
  | nil => cases h
  | cons u vs =>
    refine ⟨u, vs, rfl, ?_⟩
    cases u with
    | null => exact ⟨rfl, fun _ => h⟩
    | boolean b => exact ⟨rfl, fun _ => h⟩
    | openBracket => exact ⟨rfl, fun _ => h⟩
    | openBrace => exact ⟨rfl, fun _ => h⟩
    | text content =>
      cases content with
      | none => cases h
      | some s => exact ⟨rfl, fun _ => h⟩
    | number x =>
      -- its value would be quoted
      rw [wrongType] at h
      cases hv : x.value with
      | integer i => rw [hv] at h; obtain rfl := Fault.problem.inj h; cases hp
      | floating text => rw [hv] at h; obtain rfl := Fault.problem.inj h; cases hp
      | outOfRange => rw [hv] at h; cases h
    | closeBrace => cases h
    | closeBracket => cases h
    | colon => cases h
    | comma => cases h
    | junk => cases h

/-- A reader that refuses values of the wrong type. -/
theorem foundIn_of_wrongType {wanted : Wanted} {p : Problem}
    (h : wrongType wanted ts = .problem p) (hp : p.quotesNumber = false)
    (hread : ∀ u ws, ts.head? = some u → read (u :: ws) = .error (wrongType wanted (u :: ws))) :
    FoundIn read ts (.problem p) := by
  obtain ⟨u, vs, rfl, hu, hws⟩ := exists_of_wrongType h hp
  refine ⟨[], u, vs, rfl, hu, fun ws => ?_⟩
  rw [List.nil_append, hread u ws rfl, hws ws]

/-! ### Names and truth values -/

theorem prompt_boolean : Prompt readBoolean := by
  intro ts p h hp
  unfold readBoolean at h
  split at h
  · cases h
  · next hb =>
    refine foundIn_of_wrongType (Except.error.inj h) hp fun u ws hu => ?_
    obtain ⟨vs, rfl⟩ := List.head?_eq_some_iff.mp hu
    unfold readBoolean
    split
    · next b _ heq => exact absurd (congrArg (· :: vs) (List.cons.inj heq).1) (hb b vs)
    · rfl

theorem prompt_closeName (a : α) : Prompt (closeName a) := by
  intro ts p h hp
  unfold closeName at h
  split at h
  · cases h
  · cases h
  · next ts hclose hnull =>
    suffices hvalue : FoundIn (fun us => closeName a (.colon :: us)) ts (.problem p) from
      hvalue.behind [.colon] fun ws hw => hw
    refine foundIn_of_wrongType (Except.error.inj h) hp fun u ws hu => ?_
    obtain ⟨vs, rfl⟩ := List.head?_eq_some_iff.mp hu
    rw [closeName.eq_def]
    split
    · next heq =>
      obtain ⟨rfl, -⟩ := List.cons.inj (List.cons.inj heq).2
      exact absurd rfl (hnull vs)
    · next heq =>
      obtain ⟨rfl, -⟩ := List.cons.inj (List.cons.inj heq).2
      exact absurd rfl (hnull vs)
    · next heq => rw [(List.cons.inj heq).2]
    · next hcolon => exact absurd rfl (hcolon _)
  · cases h

theorem prompt_name (names : List (String × α)) : Prompt (readName names) := by
  intro ts p h hp
  unfold readName at h
  split at h
  · next name ts =>
    split at h
    · cases h
    · next hl =>
      obtain rfl := Except.error.inj h
      refine ⟨[], .text (some name), ts, rfl, rfl, fun ws => ?_⟩
      rw [List.nil_append, readName, hl]
  · next name ts =>
    split at h
    · next hl =>
      refine (prompt_closeName _ ts p h hp).behind [.openBrace, .text (some name)]
        fun ws hw => ?_
      rw [List.cons_append, List.cons_append, List.nil_append, readName, hl]
      exact hw
    · next hl =>
      obtain rfl := Except.error.inj h
      refine ⟨[.openBrace], .text (some name), ts, rfl, rfl, fun ws => ?_⟩
      rw [List.cons_append, List.nil_append, readName, hl]
  · cases h

/-! ### Items and members -/

/-- Whether an item comes next is seen from the first token. -/
theorem nextItem_more {first : Bool} {us vs : List Token} {u : Token}
    (h : nextItem first ts = .ok (some (us ++ u :: vs))) (ws : List Token) :
    nextItem first ((if first then [] else [.comma]) ++ (us ++ u :: ws)) =
      .ok (some (us ++ u :: ws)) := by
  cases first with
  | false => rfl
  | true =>
    obtain rfl := eq_of_nextItem h
    cases us with
    | nil => cases u <;> first | rfl | cases h
    | cons t us => cases t <;> first | rfl | cases h

/-- A reader of items finds what the reader of the next item finds. -/
theorem FoundIn.item {inner : List Token → Except Fault α} {first : Bool} {items : List Token}
    (h : FoundIn inner items e) (hn : nextItem first ts = .ok (some items))
    (hread : ∀ us ws, nextItem first us = .ok (some ws) → inner ws = .error e →
      read us = .error e) : FoundIn read ts e := by
  obtain ⟨us, u, vs, rfl, hu, hws⟩ := h
  refine ⟨(if first then [] else [.comma]) ++ us, u, vs, ?_, hu, fun ws => ?_⟩
  · rw [List.append_assoc]
    exact eq_of_nextItem hn
  · rw [List.append_assoc]
    exact hread _ _ (nextItem_more hn ws) (hws ws)

theorem not_problem_of_nextItem {first : Bool} {p : Problem} :
    nextItem first ts ≠ .error (.problem p) := by
  intro h
  unfold nextItem at h
  cases first <;> split at h <;> cases h

theorem not_problem_of_closeArray {a : α} {p : Problem} :
    closeArray a ts ≠ .error (.problem p) := by
  intro h
  unfold closeArray at h
  split at h <;> cases h

theorem not_problem_of_nextMember {first : Bool} {p : Problem} :
    nextMember first ts ≠ .error (.problem p) := by
  intro h
  unfold nextMember at h
  cases first <;> split at h <;> cases h

theorem prompt_names (names : List (String × α)) (first : Bool) :
    Prompt (readNames names first) := by
  intro ts p h hp
  fun_induction readNames names first ts with
  | case1 first ts e hn =>
    obtain rfl := Except.error.inj h
    exact absurd hn not_problem_of_nextItem
  | case2 => exact absurd h not_problem_of_closeArray
  | case3 first ts items hn e hr =>
    obtain rfl := Except.error.inj h
    refine (prompt_name names items p hr hp).item hn fun us ws hu hw => ?_
    simp only [readNames_eq names first us, hu, Except.bind, hw]
  | case4 first ts items hn a rest hr _ _ e hs ih =>
    obtain rfl := Except.error.inj h
    obtain ⟨v, rfl, hv⟩ := (reads_name names _ _ _).mp hr
    rw [eq_of_nextItem hn, ← List.append_assoc]
    refine (ih hs).behind _ fun ws hw => ?_
    rw [List.append_assoc, readNames_eq, nextItem_value]
    simp only [Except.bind, (reads_name names _ _ ws).mpr ⟨v, rfl, hv⟩, hw, Except.map]
  | case5 => cases h

theorem prompt_components : Prompt readComponents := by
  intro ts p h hp
  unfold readComponents at h
  split at h
  · cases h
  · next ts =>
    split at h
    · cases h
    · next hr =>
      obtain rfl := Except.error.inj h
      refine (prompt_names componentNames true ts p hr hp).behind [.openBracket]
        fun ws hw => ?_
      rw [List.cons_append, List.nil_append, readComponents, hw]
  · next hn hb =>
    refine foundIn_of_wrongType (Except.error.inj h) hp fun u ws hu => ?_
    obtain ⟨vs, rfl⟩ := List.head?_eq_some_iff.mp hu
    unfold readComponents
    split
    · next heq => exact absurd (congrArg (· :: vs) (List.cons.inj heq).1) (hn vs)
    · next heq => exact absurd (congrArg (· :: vs) (List.cons.inj heq).1) (hb vs)
    · rfl

section Records

variable {slots : List (Slot α)} {a : α} {first : Bool} {p : Problem}

theorem prompt_items (hs : ∀ s ∈ slots, ∀ a, Prompt (s.read a)) (first : Bool) (a : α) :
    Prompt (readItems (slots.map (·.toField)) first a) := by
  intro ts p h hp
  induction slots generalizing first a ts with
  | nil => exact absurd h not_problem_of_closeArray
  | cons s ss ih =>
    rw [List.map_cons, readItems] at h
    split at h
    · next hn =>
      obtain rfl := Except.error.inj h
      exact absurd hn not_problem_of_nextItem
    · exact absurd h not_problem_of_closeArray
    · next items hn =>
      split at h
      · next hr =>
        obtain rfl := Except.error.inj h
        refine (hs s (List.mem_cons_self ..) a items p hr hp).item hn fun us ws hu hw => ?_
        simp only [List.map_cons, readItems, hu, hw]
      · next b rest hr =>
        obtain ⟨v, rfl, hv⟩ := (s.reads a _ _ _).mp hr
        rw [eq_of_nextItem hn, ← List.append_assoc]
        refine (ih (fun t ht => hs t (List.mem_cons_of_mem _ ht)) false b rest h).behind _
          fun ws hw => ?_
        rw [List.append_assoc, List.map_cons, readItems, nextItem_value]
        simp only [(s.reads a _ b ws).mpr ⟨v, rfl, hv⟩, hw]

/-- A field that is given twice is found at its name, and any other problem in its value. -/
theorem foundIn_member (hs : ∀ s ∈ slots, ∀ a, Prompt (s.read a)) {name : String}
    (h : readMember (slots.map (·.toField)) a name ts = .error (.problem p))
    (hp : p.quotesNumber = false) :
    (∀ ws, readMember (slots.map (·.toField)) a name ws = .error (.problem p)) ∨
      FoundIn (readMember (slots.map (·.toField)) a name) ts (.problem p) := by
  unfold readMember at h
  split at h
  · next f hf =>
    obtain ⟨s, hmem, rfl⟩ := List.mem_map.mp (List.mem_of_find?_eq_some hf)
    split at h
    · next hg =>
      refine .inl fun ws => ?_
      simp only [readMember, hf, hg, if_true]
      exact h
    · next hg =>
      split at h
      · next us hc =>
        obtain rfl := afterColon_eq_ok_iff.mp hc
        refine .inr ((hs s hmem a us p h hp).behind [.colon] fun ws hw => ?_)
        simp only [readMember, hf, hg, List.cons_append, List.nil_append, afterColon, hw,
          Bool.false_eq_true, if_false]
      · next hc =>
        unfold afterColon at hc
        split at hc
        · cases hc
        · obtain rfl := Except.error.inj hc
          cases h
  · split at h
    · next hc =>
      unfold afterColon at hc
      split at hc
      · cases hc
      · obtain rfl := Except.error.inj hc
        cases h
    · split at h <;> cases h

theorem prompt_members (hs : ∀ s ∈ slots, ∀ a, Prompt (s.read a)) (first : Bool) (a : α) :
    Prompt (readMembers (slots.map (·.toField)) first a) := by
  intro ts p h hp
  fun_induction readMembers (slots.map (·.toField)) first a ts with
  | case1 first a ts e hn =>
    obtain rfl := Except.error.inj h
    exact absurd hn not_problem_of_nextMember
  | case2 => cases h
  | case3 first a ts name rest hn e hm =>
    obtain rfl := Except.error.inj h
    rw [nextMember_eq_ok_some_iff.mp hn]
    rcases foundIn_member hs hm hp with hdup | hfound
    · refine ⟨_, .text (some name), rest, rfl, rfl, fun ws => ?_⟩
      rw [readMembers_eq, nextMember_name]
      simp only [Except.bind, hdup ws]
    · rw [List.append_cons]
      refine hfound.behind _ fun ws hw => ?_
      rw [← List.append_cons, readMembers_eq, nextMember_name]
      simp only [Except.bind, hw]
  | case4 first a ts name rest hn b rest' hm _ _ ih =>
    obtain ⟨v, rfl, hv⟩ := readMember_eq_ok_iff.mp hm
    rw [nextMember_eq_ok_some_iff.mp hn, List.append_cons, List.append_cons, ← List.append_assoc]
    refine (ih h).behind _ fun ws hw => ?_
    rw [List.append_assoc, ← List.append_cons, ← List.append_cons]
    exact (readMembers_cons (nextMember_name ..) (readMember_eq_ok_iff.mpr ⟨v, rfl, hv⟩)).trans hw

theorem prompt_record (slots : List (Slot α)) (hs : ∀ s ∈ slots, ∀ a, Prompt (s.read a))
    (wanted : Wanted) (empty : α) : Prompt (readRecord wanted (slots.map (·.toField)) empty) := by
  intro ts p h hp
  unfold readRecord at h
  split at h
  · next ts =>
    exact (prompt_items hs true empty ts p h hp).behind [.openBracket] fun ws hw => hw
  · next ts =>
    exact (prompt_members hs true empty ts p h hp).behind [.openBrace] fun ws hw => hw
  · next hitems hmembers =>
    refine foundIn_of_wrongType (Except.error.inj h) hp fun u ws hu => ?_
    obtain ⟨vs, rfl⟩ := List.head?_eq_some_iff.mp hu
    unfold readRecord
    split
    · next heq => exact absurd (congrArg (· :: vs) (List.cons.inj heq).1) (hitems vs)
    · next heq => exact absurd (congrArg (· :: vs) (List.cons.inj heq).1) (hmembers vs)
    · rfl

end Records

/-- A field that holds a value of its own type is read as promptly as the value. -/
theorem prompt_slot {name : String} {get : α → Option β} {set : α → β → α}
    {read : List Token → Reading β}
    {shrinks : ∀ {b ts rest}, read ts = .ok (b, rest) → rest.length < ts.length}
    {decode : Value → Option β} {h : Reads read decode} (hr : Prompt read) (a : α) :
    Prompt ((Slot.of name get set read shrinks decode h).read a) := by
  refine hr.map (fun ts p ho => ?_) fun ts e he => ?_
  · simp only [Slot.of, Field.slot] at ho
    split at ho
    · cases ho
    · next he => rw [he, Except.error.inj ho]
  · simp only [Slot.of, Field.slot, he]

end Prompt

/-! ### Documents -/

theorem prompt_console : Prompt readConsole := by
  have hrecord := prompt_record consoleSlots (by
    simp only [consoleSlots, List.forall_mem_cons, List.not_mem_nil, IsEmpty.forall_iff,
      implies_true, and_true]
    and_intros <;> exact prompt_slot prompt_boolean) .console {}
  refine hrecord.map (fun ts p h => ?_) fun ts e he => ?_
  · unfold readConsole at h
    split at h
    · cases h
    · next he => rw [Except.error.inj h] at he; exact he
  · have : readRecord .console consoleFields {} ts = .error e := he
    rw [readConsole, this]

theorem prompt_ofTokens : Prompt ofTokens := by
  have hrecord := prompt_record documentSlots (by
    simp only [documentSlots, List.forall_mem_cons, List.not_mem_nil, IsEmpty.forall_iff,
      implies_true, and_true]
    exact ⟨prompt_slot (prompt_name severityNames), prompt_slot prompt_components,
      prompt_slot prompt_console⟩) .settings {}
  refine hrecord.map (fun ts p h => ?_) fun ts e he => ?_
  · unfold ofTokens at h
    split at h
    · cases h
    · cases h
    · next he => rw [Except.error.inj h] at he; exact he
  · have : readRecord .settings documentFields {} ts = .error e := he
    rw [ofTokens, this]

/-- **The first problem decides**: a text that has a problem, short of one whose wording quotes a
number, has the same problem however it goes on. -/
theorem problem_decides (text more : String) (p : Problem)
    (h : read text = .error (.problem p)) (hp : p.quotesNumber = false) :
    read (text ++ more) = .error (.problem p) := by
  obtain ⟨us, u, vs, htokens, hu, hws⟩ := prompt_ofTokens _ p h hp
  obtain ⟨ws, hmore⟩ := tokens_append htokens hu more.toList
  rw [read, String.toList_append, hmore, hws ws]

/-- A document that breaks off behind the name of no level, and goes on with the same field given
twice and a bracket that closes nothing. -/
theorem unknown_level_decides :
    read "\x7b\"level\":\"loud\"" =
        .error (.problem (.unknownName "loud" (severityNames.map (·.1)))) ∧
      (Problem.unknownName "loud" (severityNames.map (·.1))).quotesNumber = false ∧
      read ("\x7b\"level\":\"loud\"" ++ ", \"level\":1]") =
        .error (.problem (.unknownName "loud" (severityNames.map (·.1)))) := by
  have hread : read "\x7b\"level\":\"loud\"" =
      .error (.problem (.unknownName "loud" (severityNames.map (·.1)))) := by decide +kernel
  exact ⟨hread, rfl, problem_decides _ _ _ hread rfl⟩

/-- A key of a name that is no string is a fault of the document itself, not a problem of its data. -/
example : read "\x7b\"level\":\x7btrue:null\x7d\x7d" = .error .malformed ∧
    read "\x7b\"level\":\x7b5:null\x7d\x7d" = .error .malformed := by
  decide +kernel

/-- A number that is quoted goes on with the text. -/
example : read "1" = .error (.problem (.wrongType (.integer 1) .settings)) ∧
    read ("1" ++ "2") = .error (.problem (.wrongType (.integer 12) .settings)) := by
  decide +kernel

end GatedLog.Settings
