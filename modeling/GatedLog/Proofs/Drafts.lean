import Mathlib.Logic.Relation
import GatedLog.Draft
import GatedLog.Proofs.Machine.Custody

/-!
# What is added to a message

Whichever way a value takes into a message, the message becomes the same: its text grows by the text
of the step if it is worth reporting (`Draft.addAll_of_worth`), and it stays as it is if not
(`Draft.addAll_of_silent`). So only the texts of the steps count, one after the other
(`Draft.message_addAll`). What is rendered for a message differs in one point: a driver renders the
arguments of its format for any message.
-/

namespace GatedLog

/-! ### What a step amounts to -/

/-- A value that is not there, or a foreign text that is not, behind however many wrappers. -/
inductive Part.Absent : Part → Prop
  | absent : Absent .absent
  | noOctets : Absent .noOctets
  | present {p : Part} (h : Absent p) : Absent (.present p)

theorem Part.Absent.render_eq {p : Part} (h : p.Absent) : p.render = "" := by
  induction h with
  | absent => rfl
  | noOctets => rfl
  | present h ih => rw [Part.render, ih]

/-- What a message is asked to take for an item of a format, after what was rendered for it. -/
def FormatItem.values : FormatItem → List Part
  | literal s => [.text s]
  | argument a => a.value :: a.pieces.map Part.text

theorem Format.text_labelled (label : String) (n : Int) :
    (labelled label n).text = (Part.labelled label n).render := by
  simp only [Format.text, labelled, List.map_cons, List.map_nil, FormatItem.text, Argument.text,
    Argument.plain, String.join_cons, String.join_nil, String.append_empty, Part.render,
    String.append_assoc]

namespace Draft

namespace Entry

/-- The text of a step. -/
def text : Entry → String
  | append v => v.text
  | push v => v.text
  | foreign none => ""
  | foreign (some octets) => (Part.octets octets).render
  | origin a => (Part.origin a).render
  | write f => f.text

/-- The values of a step, each as often as it is given. -/
def values : Entry → List Part
  | append v => v.parts
  | push v => v.parts
  | foreign none => []
  | foreign (some octets) => [.octets octets]
  | origin a => [.text "[this=", .address a, .text "] "]
  | write f => f.items.flatMap FormatItem.values

/-- The values that are rendered before the message is asked. -/
def driven : Entry → List Part
  | write f => f.arguments
  | _ => []

/-- Nothing is there to be added. -/
inductive Absent : Entry → Prop
  | append {p : Part} (h : p.Absent) : Absent (.append (.part p))
  | push {p : Part} (h : p.Absent) : Absent (.push (.part p))
  | foreign : Absent (.foreign none)

/-- Two ways for the same value. A driver takes a format, or a value by itself, in whatever pieces. -/
inductive Alternative : Entry → Entry → Prop
  | push (v : Value) : Alternative (.append v) (.push v)
  | write {a : Argument} (h : a.text = a.value.render) :
    Alternative (.append (.part a.value)) (.write ⟨[.argument a]⟩)
  | format (f : Format) : Alternative (.append (.format f)) (.write f)
  | foreign (octets : List UInt8) : Alternative (.append (.part (.octets octets))) (.foreign (some octets))
  | noForeign : Alternative (.append (.part .noOctets)) (.foreign none)
  | wrapped (p : Part) : Alternative (.append (.part p)) (.append (.part (.present p)))

theorem Absent.text_eq {e : Entry} (h : e.Absent) : e.text = "" := by
  cases h with
  | append h => exact h.render_eq
  | push h => exact h.render_eq
  | foreign => rfl

theorem Alternative.text_eq {e e' : Entry} (h : Alternative e e') : e.text = e'.text := by
  cases h with
  | push v => rfl
  | write h =>
    show Part.render _ = String.join [_]
    rw [String.join_cons, String.join_nil, String.append_empty]
    exact h.symm
  | format f => rfl
  | foreign octets => rfl
  | noForeign => rfl
  | wrapped p => rfl

/-- Sequences that take different ways for the same values have the same texts. -/
theorem map_text_eq {es fs : List Entry} (h : List.Forall₂ (Relation.EqvGen Alternative) es fs) :
    es.map text = fs.map text := by
  have htext : ∀ {e f : Entry}, Relation.EqvGen Alternative e f → e.text = f.text := by
    intro e f h
    induction h with
    | rel e f h => exact h.text_eq
    | refl e => rfl
    | symm e f _ ih => exact ih.symm
    | trans e f g _ _ ih₁ ih₂ => exact ih₁.trans ih₂
  induction h with
  | nil => rfl
  | cons h _ ih => rw [List.map_cons, List.map_cons, htext h, ih]

/-- Leaving out steps in which nothing is there leaves the texts together as they are. -/
theorem join_filter_of_absent {keep : Entry → Bool} {es : List Entry}
    (h : ∀ e ∈ es, keep e = false → e.Absent) :
    String.join ((es.filter keep).map text) = String.join (es.map text) := by
  induction es with
  | nil => rfl
  | cons e es ih =>
    have ih := ih fun f hf => h f (List.mem_cons_of_mem _ hf)
    rw [List.map_cons, String.join_cons]
    cases hk : keep e with
    | true => rw [List.filter_cons_of_pos hk, List.map_cons, String.join_cons, ih]
    | false =>
      rw [List.filter_cons_of_neg (by rw [hk]; exact Bool.false_ne_true), ih,
        (h e (List.mem_cons_self ..) hk).text_eq, String.empty_append]

end Entry

/-- A draft with more text and more that was rendered. -/
def extend (d : Draft) (s : String) (ps : List Part) : Draft :=
  { message := { d.message with text := d.message.text ++ s }, rendered := d.rendered ++ ps }

variable {d : Draft}

theorem render_eq (d : Draft) (v : Value) : d.render v = d.extend v.text v.parts := rfl

@[simp] theorem worth_extend (d : Draft) (s : String) (ps : List Part) :
    (d.extend s ps).message.worth = d.message.worth := rfl

@[simp] theorem extend_nothing (d : Draft) : d.extend "" [] = d := by
  rw [extend, String.append_empty, List.append_nil]

theorem extend_extend (d : Draft) (s t : String) (ps qs : List Part) :
    (d.extend s ps).extend t qs = d.extend (s ++ t) (ps ++ qs) := by
  simp only [extend, String.append_assoc, List.append_assoc]

theorem message_extend_empty (d : Draft) (ps : List Part) : (d.extend "" ps).message = d.message := by
  rw [extend, String.append_empty]

/-- A driver renders an argument first, and then hands over the pieces. -/
theorem writeItem_argument (d : Draft) (a : Argument) :
    d.writeItem (.argument a) = a.pieces.foldl writeText (d.extend "" [a.value]) := by
  rw [writeItem, extend, String.append_empty]

/-! ### Messages that are worth reporting -/

section Reported

theorem push_of_worth (h : d.message.worth = true) (v : Value) :
    d.push v = d.extend v.text v.parts := by
  rw [push, if_pos h, render_eq]

theorem push_extend (h : d.message.worth = true) (s : String) (ps : List Part) (v : Value) :
    (d.extend s ps).push v = d.extend (s ++ v.text) (ps ++ v.parts) := by
  rw [push_of_worth (by rwa [worth_extend]), extend_extend]

theorem origin_of_worth (h : d.message.worth = true) (a : UInt64) :
    d.origin a = d.extend (Part.origin a).render [.text "[this=", .address a, .text "] "] := by
  rw [origin, append, append, append, push_of_worth h, push_extend h, push_extend h]
  rfl

theorem foldl_writeText_of_worth (h : d.message.worth = true) (pieces : List String) :
    pieces.foldl writeText d = d.extend (String.join pieces) (pieces.map Part.text) := by
  induction pieces generalizing d with
  | nil => rw [List.foldl_nil, String.join_nil, List.map_nil, extend_nothing]
  | cons s pieces ih =>
    rw [List.foldl_cons, writeText, push_of_worth h, ih (by rwa [worth_extend]), extend_extend,
      String.join_cons]
    rfl

theorem writeItem_of_worth (h : d.message.worth = true) (i : FormatItem) :
    d.writeItem i = d.extend i.text i.values := by
  cases i with
  | literal s => exact push_of_worth h _
  | argument a =>
    rw [writeItem_argument, foldl_writeText_of_worth (by rwa [worth_extend]), extend_extend,
      String.empty_append]
    rfl

theorem write_of_worth (h : d.message.worth = true) (f : Format) :
    d.write f = d.extend f.text (f.items.flatMap FormatItem.values) := by
  unfold write Format.text
  induction f.items generalizing d with
  | nil => rw [List.foldl_nil, List.map_nil, String.join_nil, List.flatMap_nil, extend_nothing]
  | cons i is ih =>
    rw [List.foldl_cons, writeItem_of_worth h, ih (by rwa [worth_extend]), extend_extend,
      List.map_cons, String.join_cons, List.flatMap_cons]

theorem add_of_worth (h : d.message.worth = true) (e : Entry) :
    d.add e = d.extend e.text e.values := by
  cases e with
  | append v => exact push_of_worth h v
  | push v => exact push_of_worth h v
  | foreign octets =>
    cases octets with
    | none => exact (extend_nothing d).symm
    | some octets =>
      show (if d.message.worth = true then d.render _ else d) = _
      rw [if_pos h, render_eq]
      rfl
  | origin a => exact origin_of_worth h a
  | write f => exact write_of_worth h f

/-- The texts of the steps make up the text, and every value is rendered once. -/
theorem addAll_of_worth (h : d.message.worth = true) (es : List Entry) :
    d.addAll es = d.extend (String.join (es.map Entry.text)) (es.flatMap Entry.values) := by
  induction es generalizing d with
  | nil => rw [addAll_nil, List.map_nil, String.join_nil, List.flatMap_nil, extend_nothing]
  | cons e es ih =>
    rw [addAll_cons, add_of_worth h, ih (by rwa [worth_extend]), extend_extend, List.map_cons,
      String.join_cons, List.flatMap_cons]

end Reported

/-! ### Messages that are not -/

section Silent

theorem push_of_silent (h : d.message.worth = false) (v : Value) : d.push v = d := by
  rw [push, if_neg (by rw [h]; exact Bool.false_ne_true)]

theorem foldl_writeText_of_silent (h : d.message.worth = false) (pieces : List String) :
    pieces.foldl writeText d = d := by
  induction pieces with
  | nil => rfl
  | cons s pieces ih => rw [List.foldl_cons, writeText, push_of_silent h, ih]

/-- The driver has rendered an argument before the message declines its pieces. -/
theorem write_of_silent (h : d.message.worth = false) (f : Format) :
    d.write f = d.extend "" f.arguments := by
  unfold write Format.arguments
  induction f.items generalizing d with
  | nil => rw [List.foldl_nil, List.filterMap_nil, extend_nothing]
  | cons i is ih =>
    cases i with
    | literal s =>
      rw [List.foldl_cons, writeItem, writeText, push_of_silent h, ih h]
      rfl
    | argument a =>
      rw [List.foldl_cons, writeItem_argument, foldl_writeText_of_silent (by rwa [worth_extend]),
        ih (by rwa [worth_extend]), extend_extend, String.empty_append]
      rfl

theorem add_of_silent (h : d.message.worth = false) (e : Entry) : d.add e = d.extend "" e.driven := by
  cases e with
  | append v => exact (push_of_silent h v).trans d.extend_nothing.symm
  | push v => exact (push_of_silent h v).trans d.extend_nothing.symm
  | foreign octets =>
    refine Eq.trans ?_ d.extend_nothing.symm
    cases octets with
    | none => rfl
    | some octets =>
      show (if d.message.worth = true then d.render _ else d) = d
      rw [if_neg (by rw [h]; exact Bool.false_ne_true)]
  | origin a =>
    refine Eq.trans ?_ d.extend_nothing.symm
    rw [add, origin, append, append, append, push_of_silent h, push_of_silent h, push_of_silent h]
  | write f => exact write_of_silent h f

/-- The message stays as it is. Nothing is rendered but what a driver renders on its own account. -/
theorem addAll_of_silent (h : d.message.worth = false) (es : List Entry) :
    d.addAll es = d.extend "" (es.flatMap Entry.driven) := by
  induction es generalizing d with
  | nil => rw [addAll_nil, List.flatMap_nil, extend_nothing]
  | cons e es ih =>
    rw [addAll_cons, add_of_silent h, ih (by rwa [worth_extend]), extend_extend, String.empty_append,
      List.flatMap_cons]

end Silent

/-! ### Any message -/

/-- Of the steps only their texts count. -/
theorem message_addAll (d : Draft) (es : List Entry) :
    (d.addAll es).message =
      if d.message.worth = true then
        { d.message with text := d.message.text ++ String.join (es.map Entry.text) }
      else d.message := by
  cases h : d.message.worth with
  | true => rw [addAll_of_worth h, if_pos rfl, extend]
  | false => rw [addAll_of_silent h, message_extend_empty, if_neg Bool.false_ne_true]

theorem message_congr (d : Draft) {es fs : List Entry}
    (h : String.join (es.map Entry.text) = String.join (fs.map Entry.text)) :
    (d.addAll es).message = (d.addAll fs).message := by
  rw [message_addAll, message_addAll, h]

/-- What is not there contributes nothing, wherever it stands. -/
theorem message_absent (d : Draft) {keep : Entry → Bool} {es : List Entry}
    (h : ∀ e ∈ es, keep e = false → e.Absent) :
    (d.addAll (es.filter keep)).message = (d.addAll es).message :=
  d.message_congr (Entry.join_filter_of_absent h)

/-- Which ways the values take makes no difference. -/
theorem message_routes (d : Draft) {es fs : List Entry}
    (h : List.Forall₂ (Relation.EqvGen Entry.Alternative) es fs) :
    (d.addAll es).message = (d.addAll fs).message :=
  d.message_congr (congrArg String.join (Entry.map_text_eq h))

/-- What is added to an empty message in two parts is what each part makes of it, one after the other. -/
theorem text_append (d : Draft) (h : d.message.text = "") (es fs : List Entry) :
    (d.addAll (es ++ fs)).message.text =
      (d.addAll es).message.text ++ (d.addAll fs).message.text := by
  rw [message_addAll, message_addAll, message_addAll]
  cases d.message.worth with
  | true =>
    simp only [if_true, h, String.empty_append, List.map_append]
    exact String.join_append
  | false =>
    simp only [Bool.false_eq_true, if_false, h]
    rfl

/-- A formatted statement makes of its message what adding the formatted text makes of it. -/
theorem message_logged (d : Draft) (f : Format) :
    (d.logged f).message = d.message.append (.text f.text) := by
  cases h : d.message.worth with
  | true =>
    rw [logged, if_pos h, append, push_of_worth h, Message.append, if_pos h]
    rfl
  | false =>
    have hsilent : ¬ d.message.worth = true := by
      rw [h]
      exact Bool.false_ne_true
    rw [logged, if_neg hsilent, Message.append, if_neg hsilent]

end Draft

/-! ### Parts -/

/-- The step in which a part is added: foreign texts and addresses of objects have their own. -/
def Part.entry : Part → Draft.Entry
  | .octets bs => .foreign (some bs)
  | .noOctets => .foreign none
  | .origin a => .origin a
  | p => .append (.part p)

@[simp] theorem Part.text_entry (p : Part) : p.entry.text = p.render := by
  cases p <;> rfl

theorem Part.foldl_render (ps : List Part) (s : String) :
    ps.foldl (fun s p => s ++ p.render) s = s ++ String.join (ps.map Part.render) := by
  induction ps generalizing s with
  | nil => rw [List.foldl_nil, List.map_nil, String.join_nil, String.append_empty]
  | cons p ps ih => rw [List.foldl_cons, ih, List.map_cons, String.join_cons, String.append_assoc]

/-- Adding parts is adding them one by one, each in its step. -/
theorem Message.appendAll_eq_addAll (m : Message) (ps : List Part) :
    m.appendAll ps = (Draft.addAll { message := m } (ps.map Part.entry)).message := by
  have htexts : (ps.map Part.entry).map Draft.Entry.text = ps.map Part.render := by
    rw [List.map_map]
    exact List.map_congr_left fun p _ => p.text_entry
  rw [Draft.message_addAll, Message.appendAll_eq, Part.foldl_render, htexts]
  split <;> rfl

end GatedLog
