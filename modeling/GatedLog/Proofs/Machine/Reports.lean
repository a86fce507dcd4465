import GatedLog.Transcript
import GatedLog.Proofs.Machine.Twins

/-!
# Reports and what they show

Happenings that are twins show the same effects and the same lines, apart from numbers that nobody
sees (`Report.of_twin`). A transcript grows with the run: the reports of the operations that have
ended stay, and what happened since is what the next report begins with (`Tells`).
-/

namespace GatedLog

variable {T : Set Use} {σ : Link}

/-- An effect without the numbers that nobody sees. -/
def Effect.plain : Effect → Effect
  | .write tag m => .write tag m.plain
  | .nested a => .nested a.plain
  | e => e

/-- A report without the numbers that nobody sees. -/
def Report.plain (r : Report) : Report :=
  { r with answer := r.answer.plain, effects := r.effects.map Effect.plain }

/-- The record that a callback is called with. -/
def Happening.callTo? (hook : Hook) : Happening → Option ForeignRecord
  | .called h r => if h = hook then some r else none
  | _ => none

/-- The calls that a callback sees. -/
def callsTo (hook : Hook) (hs : List Happening) : List ForeignRecord :=
  hs.filterMap (Happening.callTo? hook)

theorem callsTo_append (hook : Hook) (hs is : List Happening) :
    callsTo hook (hs ++ is) = callsTo hook hs ++ callsTo hook is := List.filterMap_append

/-! ### What twins show -/

theorem filterMap_congr₂ {α β γ : Type} {R : α → β → Prop} {xs : List α} {ys : List β}
    {f : α → Option γ} {g : β → Option γ} (h : List.Forall₂ R xs ys)
    (hfg : ∀ x y, R x y → f x = g y) : xs.filterMap f = ys.filterMap g := by
  induction h with
  | nil => rfl
  | cons hxy _ ih => rw [List.filterMap_cons, List.filterMap_cons, hfg _ _ hxy, ih]

namespace Happening.Twin

variable {e e' : Happening}

theorem plain_effect (h : Happening.Twin T σ e e') :
    e.effect?.map Effect.plain = e'.effect?.map Effect.plain := by
  cases h with
  | @delivered c c' b b' m m' hc hb hm =>
    obtain ⟨n, k⟩ := b
    obtain ⟨n', k'⟩ := b'
    cases hb.kind with
    | custom tag onWrite onFlush onDestroy onName =>
      exact congrArg (fun m => some (Effect.write tag m)) hm.plain
    | _ => rfl
  | @flushed c c' b b' hc hb =>
    obtain ⟨n, k⟩ := b
    obtain ⟨n', k'⟩ := b'
    cases hb.kind <;> rfl
  | @destroyed b b' hb =>
    obtain ⟨n, k⟩ := b
    obtain ⟨n', k'⟩ := b'
    cases hb.kind <;> rfl
  | rendered i j p => cases p <;> rfl
  | noted ha => exact congrArg (fun a => some (Effect.nested a)) ha
  | _ => rfl

theorem line (h : Happening.Twin T σ e e') : e.line? = e'.line? := by
  cases h <;> rfl

theorem callTo (h : Happening.Twin T σ e e') (hook : Hook) : e.callTo? hook = e'.callTo? hook := by
  cases h <;> rfl

/-- Callbacks outside the set see nothing. -/
theorem callTo_eq_none (h : Happening.Twin T σ e e') {hook : Hook} (hk : ¬ Owns T (.hook hook)) :
    e.callTo? hook = none := by
  cases h with
  | called k r hh => exact if_neg fun he : k = hook => hk (he ▸ hh)
  | _ => rfl

theorem not_answered (h : Happening.Twin T σ e e') :
    (∀ a, e ≠ .answered a) ∧ ∀ a, e' ≠ .answered a := by
  constructor <;> rintro a rfl <;> cases h

end Happening.Twin

section

variable {hs hs' : List Happening}

theorem callsTo_twin (h : List.Forall₂ (Happening.Twin T σ) hs hs') (hook : Hook) :
    callsTo hook hs = callsTo hook hs' := filterMap_congr₂ h fun _ _ he => he.callTo hook

theorem callsTo_eq_nil (h : List.Forall₂ (Happening.Twin T σ) hs hs') {hook : Hook}
    (hk : ¬ Owns T (.hook hook)) : callsTo hook hs = [] := by
  induction h with
  | nil => rfl
  | cons he _ ih => rw [callsTo, List.filterMap_cons_none (he.callTo_eq_none hk), ← callsTo, ih]

theorem not_answered_twin (h : List.Forall₂ (Happening.Twin T σ) hs hs') :
    (∀ e ∈ hs, ∀ a, e ≠ .answered a) ∧ ∀ e ∈ hs', ∀ a, e ≠ .answered a := by
  induction h with
  | nil => exact ⟨fun _ he => absurd he List.not_mem_nil, fun _ he => absurd he List.not_mem_nil⟩
  | cons he _ ih =>
    exact ⟨List.forall_mem_cons.mpr ⟨he.not_answered.1, ih.1⟩,
      List.forall_mem_cons.mpr ⟨he.not_answered.2, ih.2⟩⟩

theorem Report.of_twin (h : List.Forall₂ (Happening.Twin T σ) hs hs') {a a' : Answer}
    (ha : a.plain = a'.plain) : (Report.of hs a).plain = (Report.of hs' a').plain := by
  have heffects : (hs.filterMap Happening.effect?).map Effect.plain =
      (hs'.filterMap Happening.effect?).map Effect.plain := by
    rw [List.map_filterMap, List.map_filterMap]
    exact filterMap_congr₂ h fun _ _ he => he.plain_effect
  have hlines : hs.filterMap Happening.line? = hs'.filterMap Happening.line? :=
    filterMap_congr₂ h fun _ _ he => he.line
  simp only [Report.of, Report.plain, ha, heffects, hlines]

end

/-! ### Transcripts grow -/

/-- The happenings come to these reports, and to some happenings since the last of them. -/
def Tells (hs : List Happening) (rs : List Report) (now : List Happening) : Prop :=
  ∀ is, Report.split [] (hs ++ is) = rs ++ Report.split now.reverse is

theorem Report.split_append {es : List Happening} (hes : ∀ e ∈ es, ∀ a, e ≠ .answered a)
    (before is : List Happening) :
    Report.split before (es ++ is) = Report.split (es.reverse ++ before) is := by
  induction es generalizing before with
  | nil => rfl
  | cons e es ih =>
    have he := hes e (List.mem_cons_self ..)
    have hsplit : Report.split before (e :: (es ++ is)) = Report.split (e :: before) (es ++ is) := by
      cases e with
      | answered a => exact absurd rfl (he a)
      | _ => rfl
    rw [List.cons_append, hsplit, ih fun e hmem => hes e (List.mem_cons_of_mem _ hmem)]
    simp

namespace Tells

variable {hs es now : List Happening} {rs : List Report}

theorem nil : Tells [] [] [] := fun _ => rfl

theorem more (h : Tells hs rs now) (hes : ∀ e ∈ es, ∀ a, e ≠ .answered a) :
    Tells (hs ++ es) rs (now ++ es) := fun is => by
  rw [List.append_assoc, h, Report.split_append hes, List.reverse_append]

theorem answered (h : Tells hs rs now) (a : Answer) :
    Tells (hs ++ [.answered a]) (rs ++ [.of now a]) [] := fun is => by
  rw [List.append_assoc, h, List.singleton_append, Report.split, List.reverse_reverse]
  simp

theorem split_eq (h : Tells hs rs now) : Report.split [] hs = rs := by
  simpa [Report.split] using h []

end Tells

end GatedLog
