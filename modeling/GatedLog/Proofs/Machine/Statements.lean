import GatedLog.Machine.Formatted
import GatedLog.Proofs.Drafts
import GatedLog.Proofs.Machine.Delivery

/-!
# Statements in the making

The text of a message is put together from the texts of what was added to it, in every run as well as
in a single draft. In a run each value that was added is rendered once if the message is worth
reporting, and none is if it is not (`State.accounted_run`). A formatted statement is nothing else than
a message to which the formatted text is added (`State.delivered_logFormatted`). All of this is
collected in `State.text_accumulates`.
-/

namespace GatedLog

/-! ### What is rendered in a run -/

/-- The value that is rendered, if it is for the message of the serial number. -/
def Happening.rendering? (k : Nat) : Happening → Option Part
  | rendered j p => if j = k then some p else none
  | _ => none

/-- The values that were rendered for the message of a serial number. -/
def renderings (k : Nat) (hs : List Happening) : List Part := hs.filterMap (Happening.rendering? k)

section Traces

variable {hs : List Happening}

theorem renderings_append (k : Nat) (hs is : List Happening) :
    renderings k (hs ++ is) = renderings k hs ++ renderings k is := List.filterMap_append

theorem renderings_of_minor (h : ∀ e ∈ hs, e.isMinor = true) (k : Nat) : renderings k hs = [] := by
  refine List.filterMap_eq_nil_iff.mpr fun e he => ?_
  have := h e he
  cases e <;> first | rfl | cases this

theorem renderings_additions (k : Nat) (m : Message) (ps : List Part) :
    renderings k (State.additions m ps) = if m.serial = k then m.rendered ps else [] := by
  show List.filterMap _ ((m.rendered ps).map _) = _
  rw [List.filterMap_map]
  by_cases hk : m.serial = k
  · have hsome : Happening.rendering? k ∘ Happening.rendered m.serial = some := by
      funext p
      exact if_pos hk
    rw [if_pos hk, hsome, List.filterMap_some]
  · have hnone : Happening.rendering? k ∘ Happening.rendered m.serial = fun _ => none := by
      funext p
      exact if_neg hk
    rw [if_neg hk, hnone, List.filterMap_none]

/-- Adding values to a message renders them if it is worth reporting. -/
theorem renderings_of_serial {k : Nat} {m : Message} (ps : List Part) (hk : m.serial = k) :
    renderings k (State.additions m ps) = m.rendered (valuesAdded k (State.additions m ps)) := by
  rw [renderings_additions, valuesAdded_additions, if_pos hk, if_pos hk]

/-- Adding values to a message tells nothing of another one. -/
theorem nothing_of_serial {k : Nat} {m : Message} (ps : List Part) (hk : m.serial ≠ k) :
    valuesAdded k (State.additions m ps) = [] ∧ renderings k (State.additions m ps) = [] := by
  rw [renderings_additions, valuesAdded_additions, if_neg hk, if_neg hk]
  exact ⟨rfl, rfl⟩

end Traces

theorem Message.rendered_append (m : Message) (ps qs : List Part) :
    m.rendered (ps ++ qs) = m.rendered ps ++ m.rendered qs := by
  unfold rendered
  split <;> rfl

/-- Of the message of a serial number it was rendered what was added to it, if it is worth reporting. -/
inductive Accounted (k : Nat) (hs : List Happening) : Prop
  | unborn (hb : births k hs = []) (hr : renderings k hs = [])
  | born (m₀ : Message) (hb : births k hs = [m₀])
    (hr : renderings k hs = m₀.rendered (valuesAdded k hs))

namespace State

/-- What a step renders for the message of a serial number. -/
inductive Renders (s : State) (k : Nat) (hs : List Happening) : Prop
  | nothing (hb : births k hs = []) (hv : valuesAdded k hs = []) (hr : renderings k hs = [])
  | made (m : Message) (hb : births k hs = [m]) (hr : renderings k hs = m.rendered (valuesAdded k hs))
  | added (m : Message) (hm : m ∈ s.alive) (hk : m.serial = k) (hb : births k hs = [])
    (hr : renderings k hs = m.rendered (valuesAdded k hs))

theorem Renders.of_minor {s : State} {k : Nat} {hs : List Happening}
    (h : ∀ e ∈ hs, e.isMinor = true) : Renders s k hs :=
  .nothing (births_of_minor h k) (valuesAdded_of_minor h k) (renderings_of_minor h k)

theorem Renders.of_quiet {s : State} {k : Nat} {hs : List Happening} (h : hs = []) : Renders s k hs :=
  .of_minor fun e he => by rw [h] at he; cases he

theorem Renders.of_made {s : State} {k : Nat} {hs : List Happening} {m : Message} {ps : List Part}
    (h : hs = .made m :: additions m ps) : Renders s k hs := by
  subst h
  by_cases hk : m.serial = k
  · have hbirth : Happening.birth? k (.made m) = some m := if_pos hk
    refine .made m ?_ (renderings_of_serial ps hk)
    rw [births, List.filterMap_cons_some hbirth]
    exact congrArg _ (births_additions k m ps)
  · have hbirth : Happening.birth? k (.made m) = none := if_neg hk
    obtain ⟨hv, hr⟩ := nothing_of_serial ps hk
    refine .nothing ?_ hv hr
    rw [births, List.filterMap_cons_none hbirth]
    exact births_additions k m ps

theorem Renders.of_additions {s : State} {k : Nat} {hs : List Happening} {m : Message}
    {ps : List Part} (hm : m ∈ s.alive) (h : hs = additions m ps) : Renders s k hs := by
  subst h
  by_cases hk : m.serial = k
  · exact .added m hm hk (births_additions k m ps) (renderings_of_serial ps hk)
  · obtain ⟨hv, hr⟩ := nothing_of_serial ps hk
    exact .nothing (births_additions k m ps) hv hr

theorem Move.renders {s : State} {t : Task} {o : Outcome} (h : Move s t o) (k : Nat) :
    Renders { s with agenda := t :: s.agenda } k o.2 := by
  cases h with
  | routine ps ht hp h hq => exact .of_minor hq
  | configured c f ht hc h hq => exact .of_quiet hq
  | created name i ht h hq => exact .of_quiet hq
  | swapped c next ps ht hc hp h hq => exact .of_quiet hq
  | entered c i first rest ops ht hc hi h hq hr =>
    rw [hq]
    refine .nothing ?_ ?_ ?_
    · rw [births_append, births_of_minor hr]
      cases ht <;> rfl
    · rw [valuesAdded_append, valuesAdded_of_minor hr]
      cases ht <;> rfl
    · rw [renderings_append, renderings_of_minor hr]
      cases ht <;> rfl
  | left c counted ht h hq => exact .of_quiet hq
  | asked c i op ops a ht hc hi hn h hq => exact .of_quiet hq
  | unlocked c ht h hq => exact .of_quiet hq
  | forked p exit ht hp h hq => exact .of_quiet hq
  | lost ops ps ht hp h hq => exact .of_quiet hq
  | joined u ht h hq => exact .of_quiet hq
  | opened c sev k parts ps ht hc hp h hr hq => exact .of_made hq
  | kept id c sev k parts a ht hc h hr hq => exact .of_made hq
  | extended id m parts ht hm h hq =>
    exact .of_additions (List.mem_append_left _ (Table.mem_values_of_get? hm)) hq
  | closed id m a ht hm h hr hq => exact .of_quiet hq
  | ended m ht hm h hq =>
    rw [hq]
    exact .nothing rfl rfl rfl

theorem step_renders (s : State) (k : Nat) : Renders s k s.step.2 := by
  rcases s.step_cases with hs | ⟨t, ts, ha, hmove⟩
  · exact .of_quiet (by rw [hs])
  · have hrenders := hmove.renders k
    rwa [← ha] at hrenders

/-- A message is made after all that was made before, and grows with its decision unchanged. -/
theorem accounted_step {s : State} {past : List Happening} {k : Nat}
    (hc : Custody s.world.messages s.alive past) (h : Accounted k past) :
    Accounted k (past ++ s.step.2) := by
  cases s.step_renders k with
  | nothing hb hv hr =>
    cases h with
    | unborn hb' hr' =>
      refine .unborn ?_ ?_
      · rw [births_append, hb, hb', List.append_nil]
      · rw [renderings_append, hr, hr', List.append_nil]
    | born m₀ hb' hr' =>
      refine .born m₀ ?_ ?_
      · rw [births_append, hb, hb', List.append_nil]
      · rw [renderings_append, hr, hr', List.append_nil, valuesAdded_append, hv, List.append_nil]
  | made m hb hr =>
    have hmade := mem_births (show m ∈ births k s.step.2 by rw [hb]; exact List.mem_cons_self ..)
    obtain ⟨c, sev, l, rfl, -⟩ := eq_newMessage_of_made hmade.1
    obtain ⟨hb', hv'⟩ := hc.unborn k (Nat.le_of_eq hmade.2)
    have hr' : renderings k past = [] := by
      cases h with
      | unborn hb' hr' => exact hr'
      | born m₀ hb'' hr' => rw [hb''] at hb'; cases hb'
    refine .born (s.world.newMessage c sev l) ?_ ?_
    · rw [births_append, hb', hb, List.nil_append]
    · rw [renderings_append, hr', hr, List.nil_append, valuesAdded_append, hv', List.nil_append]
  | added m hm hk hb hr =>
    obtain ⟨m₀, hb₀, -, hgrown⟩ := hc.grown m hm
    rw [hk] at hb₀ hgrown
    have hworth : ∀ ps, m.rendered ps = m₀.rendered ps := by
      intro ps
      rw [hgrown, Message.appendAll_eq]
      rfl
    cases h with
    | unborn hb' hr' => rw [hb'] at hb₀; cases hb₀
    | born m₁ hb' hr' =>
      obtain rfl : m₁ = m₀ := by
        rw [hb'] at hb₀
        exact List.singleton_inj.mp hb₀
      refine .born m₁ ?_ ?_
      · rw [births_append, hb, hb', List.append_nil]
      · rw [renderings_append, hr', hr, hworth, ← Message.rendered_append, ← valuesAdded_append]

theorem accounted_run (program : Program) (n k : Nat) : Accounted k (run n (start program)).2 := by
  have hstart : Custody (start program).world.messages (start program).alive [] ∧
      ∀ k, Accounted k [] := ⟨custody_start program, fun _ => .unborn rfl rfl⟩
  have h := run_induction_past
    (P := fun past s => Custody s.world.messages s.alive past ∧ ∀ k, Accounted k past)
    (fun _ _ h => ⟨custody_step h.1, fun k => accounted_step h.1 (h.2 k)⟩) n hstart
  exact h.2 k

/-- What a run tells of a message that has not ended: it was made empty, and it is the draft that comes
of it by the values that were added to it. What was rendered for it are these values, if it is worth
reporting. -/
structure Drafted (past : List Happening) (m : Message) : Prop where
  draft : ∃ m₀ : Message, births m.serial past = [m₀] ∧ m₀.text = "" ∧ m₀.worth = m.worth ∧
    m = (Draft.addAll { message := m₀ } ((valuesAdded m.serial past).map Part.entry)).message
  rendered : renderings m.serial past = m.rendered (valuesAdded m.serial past)

theorem drafted_of_alive {program : Program} {n : Nat} {m : Message}
    (hm : m ∈ (run n (start program)).1.alive) : Drafted (run n (start program)).2 m := by
  obtain ⟨m₀, hb, ht, hgrown⟩ := (custody_run program n).grown m hm
  have hworth : m₀.worth = m.worth := by rw [hgrown, Message.appendAll_eq]
  refine ⟨⟨m₀, hb, ht, hworth, by rwa [← Message.appendAll_eq_addAll]⟩, ?_⟩
  cases accounted_run program n m.serial with
  | unborn hb' hr => rw [hb'] at hb; cases hb
  | born m₁ hb' hr =>
    obtain rfl : m₁ = m₀ := by
      rw [hb'] at hb
      exact List.singleton_inj.mp hb
    rw [hr, Message.rendered, Message.rendered, hworth]

/-! ### Formatted statements -/

/-- What the backends are handed in the course of an outcome and of the steps after it. -/
def delivered (n : Nat) (o : Outcome) : List (ContextId × Backend × Message) :=
  deliveries (o.2 ++ (run n o.1).2)

theorem delivered_congr {o o' : Outcome} (hs : o.1 = o'.1) (hd : deliveries o.2 = deliveries o'.2)
    (n : Nat) : delivered n o = delivered n o' := by
  rw [delivered, delivered, deliveries, List.filterMap_append, hs]
  exact (congrArg (· ++ _) hd).trans List.filterMap_append.symm

section Formatted

variable (s : State) (c : ContextId) (sev : Severity) (k : Component) (f : Format)
  (answer : Message → Answer)

/-- Making a message, adding the text to it as a value, and ending it. -/
def logText (text : String) : Outcome :=
  s.making c sev k [.text text] fun s m => s.push [.drop m, .respond (answer m)]

theorem state_accessing_congr {o o' : Outcome} (h : o.1 = o'.1) :
    (s.accessing c o o).1 = (s.accessing c o' o').1 := by
  unfold accessing
  cases s.world.access c with
  | blocked => rfl
  | granted => exact congrArg register h
  | refused => exact h

theorem state_logFormatted :
    (s.logFormatted c sev k f answer).1 = (s.logText c sev k answer f.text).1 := by
  refine s.state_accessing_congr c ?_
  simp only [Draft.message_logged]
  rfl

theorem deliveries_accessing {o : Outcome} (h : deliveries o.2 = []) :
    deliveries (s.accessing c o o).2 = [] := by
  unfold accessing
  cases s.world.access c with
  | blocked => rfl
  | granted => exact h
  | refused => exact h

/-- Nothing is handed out yet while the message is made. -/
theorem deliveries_logFormatted : deliveries (s.logFormatted c sev k f answer).2 = [] := by
  refine s.deliveries_accessing c (List.filterMap_eq_nil_iff.mpr fun e he => ?_)
  rcases List.mem_cons.mp he with rfl | he
  · rfl
  · obtain ⟨p, -, rfl⟩ := List.mem_map.mp he
    rfl

theorem deliveries_making (ps : List Part) (next : State → Message → State) :
    deliveries (s.making c sev k ps next).2 = [] := by
  refine s.deliveries_accessing c (List.filterMap_eq_nil_iff.mpr fun e he => ?_)
  rcases List.mem_cons.mp he with rfl | he
  · rfl
  · rcases mem_additions he with rfl | ⟨p, rfl⟩ <;> rfl

/-- A formatted statement delivers what its text delivers. -/
theorem delivered_logFormatted (n : Nat) :
    delivered n (s.logFormatted c sev k f answer) = delivered n (s.logText c sev k answer f.text) :=
  delivered_congr (s.state_logFormatted c sev k f answer)
    ((s.deliveries_logFormatted c sev k f answer).trans
      (s.deliveries_making c sev k _ _).symm) n

end Formatted

/-- How often the arguments of a formatted statement are evaluated. -/
def evaluations (m : Message) : Answer := .evaluated (if m.worth then 1 else 0)

/-- A statement with a label and a number is a formatted one. -/
theorem state_logLabelled (s : State) (ctx : ContextName) (sev : Severity) (k : Component)
    (label : String) (n : Int) :
    (s.begin (.logLabelled ctx sev k label n)).1 =
      (s.logFormatted (s.world.lookUp ctx) sev k (.labelled label n) evaluations).1 := by
  have hcount : ∀ m : Message, (m.rendered [.labelled label n]).length = if m.worth then 1 else 0 := by
    intro m
    unfold Message.rendered
    split <;> rfl
  have happend : ∀ m : Message, m.append (.text (Format.labelled label n).text) =
      m.append (.labelled label n) := by
    intro m
    rw [Message.append_eq, Message.append_eq, Format.text_labelled]
    rfl
  rw [state_logFormatted]
  refine s.state_accessing_congr _ ?_
  simp only [Message.appendAll, List.foldl_cons, List.foldl_nil, happend, hcount]
  rfl

theorem delivered_logLabelled (s : State) (ctx : ContextName) (sev : Severity) (k : Component)
    (label : String) (i : Int) (n : Nat) :
    delivered n (s.begin (.logLabelled ctx sev k label i)) =
      delivered n (s.logFormatted (s.world.lookUp ctx) sev k (.labelled label i) evaluations) :=
  delivered_congr (s.state_logLabelled ctx sev k label i)
    ((s.deliveries_making _ sev k _ _).trans (s.deliveries_logFormatted _ sev k _ _).symm) n

/-! ### The rule -/

/-- How the text of a message comes about. -/
structure Accumulation : Prop where
  /-- The texts of the steps follow each other, and every value is rendered once. -/
  reported {d : Draft} (h : d.message.worth = true) (es : List Draft.Entry) :
    d.addAll es = d.extend (String.join (es.map Draft.Entry.text)) (es.flatMap Draft.Entry.values)
  /-- Nothing gets into a message that is not worth reporting, -/
  silent {d : Draft} (h : d.message.worth = false) (es : List Draft.Entry) :
    (d.addAll es).message = d.message
  /-- which is empty then, however much is added to it. -/
  empty {w : World} {c : ContextId} {sev : Severity} {k : Component}
    (h : (w.newMessage c sev k).worth = false) (es : List Draft.Entry) :
    (Draft.addAll { message := w.newMessage c sev k } es).message.text = ""
  /-- Where a sequence of steps is split makes no difference. -/
  split {d : Draft} (h : d.message.text = "") (es fs : List Draft.Entry) :
    (d.addAll (es ++ fs)).message.text =
      (d.addAll es).message.text ++ (d.addAll fs).message.text
  /-- Values that are not there contribute nothing. -/
  absent (d : Draft) {keep : Draft.Entry → Bool} {es : List Draft.Entry}
    (h : ∀ e ∈ es, keep e = false → e.Absent) :
    (d.addAll (es.filter keep)).message = (d.addAll es).message
  /-- Which ways the values take makes no difference. -/
  routes (d : Draft) {es fs : List Draft.Entry}
    (h : List.Forall₂ (Relation.EqvGen Draft.Entry.Alternative) es fs) :
    (d.addAll es).message = (d.addAll fs).message
  /-- The messages of a run, whether they are open or about to end, are such drafts. -/
  drafted {program : Program} {n : Nat} {m : Message} (h : m ∈ (run n (start program)).1.alive) :
    Drafted (run n (start program)).2 m
  /-- A formatted statement delivers what a message delivers to which the formatted text is added, -/
  formatted (s : State) (c : ContextId) (sev : Severity) (k : Component) (f : Format)
    (answer : Message → Answer) (n : Nat) :
    delivered n (s.logFormatted c sev k f answer) = delivered n (s.logText c sev k answer f.text)
  /-- and one with a label and a number is a formatted statement. -/
  labelled (s : State) (ctx : ContextName) (sev : Severity) (k : Component) (label : String) (i : Int)
    (n : Nat) :
    delivered n (s.begin (.logLabelled ctx sev k label i)) =
      delivered n (s.logFormatted (s.world.lookUp ctx) sev k (.labelled label i) evaluations)

/-- **The text of a message is put together from the texts of what is added to it**, by whatever way it
is added. -/
theorem text_accumulates : Accumulation where
  reported h es := Draft.addAll_of_worth h es
  silent h es := by rw [Draft.addAll_of_silent h, Draft.message_extend_empty]
  empty h es := by
    rw [Draft.addAll_of_silent h, Draft.message_extend_empty]
    rfl
  split h es fs := Draft.text_append _ h es fs
  absent d _ _ h := d.message_absent h
  routes d _ _ h := d.message_routes h
  drafted h := drafted_of_alive h
  formatted s c sev k f answer n := s.delivered_logFormatted c sev k f answer n
  labelled s ctx sev k label i n := s.delivered_logLabelled ctx sev k label i n

end State

end GatedLog
