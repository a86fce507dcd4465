import Mathlib.Data.List.Induction
import GatedLog.Proofs.Mask

/-!
# Gates as sets

A gate goes through operations on its threshold, on single components and on its whole set, in any
order and number. Each operation has a say on some bits of the set (`GateOp.ruling`): one on a
component on the bit of this component, and a new set on every bit. What the gate is in the end is
what was said last about each bit, and the threshold that was set last (`acts_as_set`).
-/

namespace GatedLog

/-! ### The last word -/

/-- The value is what the last item that says something says, or the initial one if no item does. -/
inductive Last {α β : Type} (f : α → Option β) (initial : β) : List α → β → Prop
  | silent {as : List α} (h : ∀ a ∈ as, f a = none) : Last f initial as initial
  | said {before after : List α} {a : α} {b : β} (h : f a = some b)
    (hafter : ∀ x ∈ after, f x = none) : Last f initial (before ++ a :: after) b

namespace Last

variable {α β σ : Type} {f : α → Option β} {initial b b' : β} {as : List α}

theorem getD_getLast? (h : Last f initial as b) : (as.filterMap f).getLast?.getD initial = b := by
  cases h with
  | silent h => rw [List.filterMap_eq_nil_iff.mpr h]; rfl
  | said h hafter =>
    rw [List.filterMap_append, List.filterMap_cons_some h, List.filterMap_eq_nil_iff.mpr hafter,
      List.getLast?_concat, Option.getD_some]

/-- There is one last word. -/
theorem unique (h : Last f initial as b) (h' : Last f initial as b') : b = b' :=
  h.getD_getLast?.symm.trans h'.getD_getLast?

/-- One more item has the last word, unless it says nothing. -/
theorem concat (h : Last f initial as b) (a : α) : Last f initial (as ++ [a]) ((f a).getD b) := by
  cases ha : f a with
  | some c => exact .said ha (by simp)
  | none =>
    rw [Option.getD_none]
    cases h with
    | silent h => exact .silent (List.forall_mem_append.mpr ⟨h, by simpa using ha⟩)
    | said h hafter =>
      rw [List.append_assoc, List.cons_append]
      exact .said h (List.forall_mem_append.mpr ⟨hafter, by simpa using ha⟩)

/-- What is seen of a state, and changes only as the items say, is in the end their last word. -/
theorem of_foldl {act : σ → α → σ} (view : σ → β)
    (hact : ∀ s a, view (act s a) = (f a).getD (view s)) (as : List α) (s : σ) :
    Last f (view s) as (view (as.foldl act s)) := by
  induction as using List.reverseRecOn with
  | nil => exact .silent (by simp)
  | append_singleton as a ih =>
    rw [List.foldl_append, List.foldl_cons, List.foldl_nil, hact]
    exact ih.concat a

end Last

/-! ### Operations -/

/-- An operation on one component of a set; it is added also by the operator, alone or as an
assignment. -/
inductive MaskOp where
  | insert (c : Component)
  | erase (c : Component)
  | or (c : Component)
  | orAssign (c : Component)
  deriving DecidableEq, Repr

/-- An operation on a gate; the last kind gives it the set that it has, changed in one component. -/
inductive GateOp where
  | enable (c : Component)
  | disable (c : Component)
  | setMask (m : ComponentMask)
  | setThreshold (s : Severity)
  | changeMask (o : MaskOp)
  deriving DecidableEq, Repr

/-- What is said about a bit where a component, and nothing else, is switched on or off. -/
def Component.ruling (c : Component) (on : Bool) (i : Nat) : Option Bool :=
  if i = c.position then some on else none

theorem Component.ruling_of_ne {c : Component} {i : Nat} (h : i ≠ c.position) (on : Bool) :
    c.ruling on i = none := if_neg h

namespace MaskOp

/-- Does an operation. -/
def apply (m : ComponentMask) : MaskOp → ComponentMask
  | insert c => m.insert c
  | erase c => m.erase c
  | or c => m ||| c
  | orAssign c => m ||| c

/-- The component that is added or taken out. -/
def component : MaskOp → Component
  | insert c => c
  | erase c => c
  | or c => c
  | orAssign c => c

/-- What is said about a bit. -/
def ruling : MaskOp → Nat → Option Bool
  | insert c => c.ruling true
  | erase c => c.ruling false
  | or c => c.ruling true
  | orAssign c => c.ruling true

theorem ruling_of_ne {o : MaskOp} {i : Nat} (h : i ≠ o.component.position) : o.ruling i = none := by
  cases o <;> exact Component.ruling_of_ne h _

end MaskOp

namespace GateOp

/-- Does an operation. -/
def apply (g : Gate) : GateOp → Gate
  | enable c => g.enable c
  | disable c => g.disable c
  | setMask m => g.setMask m
  | setThreshold s => g.setThreshold s
  | changeMask o => g.setMask (o.apply g.mask)

/-- The component that alone is concerned. -/
def component? : GateOp → Option Component
  | enable c => some c
  | disable c => some c
  | setMask _ => none
  | setThreshold _ => none
  | changeMask o => some o.component

/-- What is said about a bit. -/
def ruling : GateOp → Nat → Option Bool
  | enable c, i => c.ruling true i
  | disable c, i => c.ruling false i
  | setMask m, i => some (m.has i)
  | setThreshold _, _ => none
  | changeMask o, i => o.ruling i

/-- The threshold that is set. -/
def threshold? : GateOp → Option Severity
  | setThreshold s => some s
  | _ => none

/-- The set that replaces what was there. -/
def mask? : GateOp → Option ComponentMask
  | setMask m => some m
  | _ => none

end GateOp

/-- The set after some operations. -/
def ComponentMask.after (m : ComponentMask) (ops : List MaskOp) : ComponentMask :=
  ops.foldl MaskOp.apply m

/-- The gate after some operations. -/
def Gate.after (g : Gate) (ops : List GateOp) : Gate := ops.foldl GateOp.apply g

/-! ### One operation -/

namespace ComponentMask

theorem has_insert_eq (m : ComponentMask) (c : Component) (i : Nat) :
    (m.insert c).has i = (c.ruling true i).getD (m.has i) := by
  rw [has_insert, Component.ruling]
  by_cases h : i = c.position <;> simp [h]

theorem has_erase_eq (m : ComponentMask) (c : Component) (i : Nat) :
    (m.erase c).has i = (c.ruling false i).getD (m.has i) := by
  rw [has_erase, Component.ruling]
  by_cases h : i = c.position <;> simp [h]

end ComponentMask

/-- An operation on a set leaves each bit as it says, or as it was. -/
theorem MaskOp.has_apply (m : ComponentMask) (o : MaskOp) (i : Nat) :
    (o.apply m).has i = (o.ruling i).getD (m.has i) := by
  cases o with
  | insert c => exact m.has_insert_eq c i
  | erase c => exact m.has_erase_eq c i
  | or c => exact m.has_insert_eq c i
  | orAssign c => exact m.has_insert_eq c i

namespace GateOp

variable {o : GateOp} {c : Component} {i : Nat}

/-- An operation on a gate leaves each bit as it says, or as it was, -/
theorem has_apply (g : Gate) (o : GateOp) (i : Nat) :
    (o.apply g).mask.has i = (o.ruling i).getD (g.mask.has i) := by
  cases o with
  | enable c => exact g.mask.has_insert_eq c i
  | disable c => exact g.mask.has_erase_eq c i
  | setMask m => rfl
  | setThreshold s => rfl
  | changeMask o => exact o.has_apply g.mask i

/-- and the threshold as well. -/
theorem threshold_apply (g : Gate) (o : GateOp) :
    (o.apply g).threshold = o.threshold?.getD g.threshold := by
  cases o <;> rfl

theorem ruling_of_ne (h : o.component? = some c) (hi : i ≠ c.position) : o.ruling i = none := by
  cases o with
  | enable d => cases h; exact Component.ruling_of_ne hi true
  | disable d => cases h; exact Component.ruling_of_ne hi false
  | setMask m => cases h
  | setThreshold s => cases h
  | changeMask o => cases h; exact MaskOp.ruling_of_ne hi

theorem threshold?_of_component (h : o.component? = some c) : o.threshold? = none := by
  cases o with
  | setThreshold s => cases h
  | _ => rfl

/-- Bits beyond those of the components are ruled on only by whole sets. -/
theorem ruling_of_unused (hi : 5 ≤ i) (o : GateOp) : o.ruling i = o.mask?.map (·.has i) := by
  have hne (c : Component) : i ≠ c.position := by
    have hc := c.position_lt_five
    omega
  cases o with
  | enable c => exact ruling_of_ne rfl (hne c)
  | disable c => exact ruling_of_ne rfl (hne c)
  | setMask m => rfl
  | setThreshold s => rfl
  | changeMask o => exact ruling_of_ne rfl (hne o.component)

end GateOp

/-! ### Any number of operations -/

namespace Gate

variable {o o' : GateOp} {c c' : Component}

theorem last_ruling (g : Gate) (ops : List GateOp) (i : Nat) :
    Last (·.ruling i) (g.mask.has i) ops ((g.after ops).mask.has i) :=
  Last.of_foldl (fun g => g.mask.has i) (fun g o => o.has_apply g i) ops g

theorem last_threshold (g : Gate) (ops : List GateOp) :
    Last GateOp.threshold? g.threshold ops (g.after ops).threshold :=
  Last.of_foldl threshold (fun g o => o.threshold_apply g) ops g

/-- Operations on two components say nothing about the same bit. -/
theorem apply_comm (g : Gate) (h : o.component? = some c) (h' : o'.component? = some c')
    (hne : c ≠ c') : o'.apply (o.apply g) = o.apply (o'.apply g) := by
  refine eq_iff_has.mpr ⟨?_, fun i => ?_⟩
  · simp only [GateOp.threshold_apply, GateOp.threshold?_of_component h,
      GateOp.threshold?_of_component h', Option.getD_none]
  · simp only [GateOp.has_apply]
    by_cases hi : i = c.position
    · have hi' : i ≠ c'.position := fun hi' => hne (Component.position_injective (hi.symm.trans hi'))
      rw [GateOp.ruling_of_ne h' hi', Option.getD_none, Option.getD_none]
    · rw [GateOp.ruling_of_ne h hi, Option.getD_none, Option.getD_none]

theorem apply_apply_self (g : Gate) (o : GateOp) : o.apply (o.apply g) = o.apply g := by
  refine eq_iff_has.mpr ⟨?_, fun i => ?_⟩
  · rw [GateOp.threshold_apply (o.apply g), GateOp.threshold_apply g]
    cases o.threshold? <;> rfl
  · rw [GateOp.has_apply (o.apply g), GateOp.has_apply g]
    cases o.ruling i <;> rfl

/-- How a gate acts under its operations: it is a threshold and a set. -/
structure ActsAsSet (g : Gate) : Prop where
  /-- A statement passes if its severity reaches the threshold that was set last and the last
  operation that ruled on its component let it pass. -/
  allows : ∀ (ops : List GateOp) (s : Severity) (c : Component),
    (g.after ops).allows s c = true ↔ (∃ t, Last GateOp.threshold? g.threshold ops t ∧ t ≤ s) ∧
      Last (·.ruling c.position) (g.mask.has c.position) ops true
  /-- So it is for every bit of the set, also for those of no component, -/
  bits : ∀ (ops : List GateOp) (i : Nat),
    Last (·.ruling i) (g.mask.has i) ops ((g.after ops).mask.has i)
  /-- which only a new set rules on. -/
  unused : ∀ (ops : List GateOp) (i : Nat), 5 ≤ i →
    Last (fun o => o.mask?.map (·.has i)) (g.mask.has i) ops ((g.after ops).mask.has i)
  /-- An operation on a component changes no other bit, and not the threshold. -/
  confined : ∀ (o : GateOp) (c : Component), o.component? = some c →
    (o.apply g).threshold = g.threshold ∧
      ∀ i, i ≠ c.position → (o.apply g).mask.has i = g.mask.has i
  /-- Operations on two components can change places, -/
  commute : ∀ (o o' : GateOp) (c c' : Component), o.component? = some c →
    o'.component? = some c' → c ≠ c' → g.after [o, o'] = g.after [o', o]
  /-- and any operation can be repeated. -/
  idempotent : ∀ o : GateOp, g.after [o, o] = g.after [o]
  /-- A set by itself goes through its operations in the same way. -/
  masks : ∀ (ops : List MaskOp) (i : Nat),
    Last (·.ruling i) (g.mask.has i) ops ((g.mask.after ops).has i)

/-- **A gate is a threshold and a set**, whatever it started from. -/
theorem acts_as_set (g : Gate) : ActsAsSet g where
  allows ops s c := by
    have hthreshold := g.last_threshold ops
    have hbit := g.last_ruling ops c.position
    rw [allows_iff, ComponentMask.contains_eq_has]
    constructor
    · rintro ⟨hs, hc⟩
      exact ⟨⟨_, hthreshold, hs⟩, hc ▸ hbit⟩
    · rintro ⟨⟨t, ht, hs⟩, hc⟩
      exact ⟨hthreshold.unique ht ▸ hs, hbit.unique hc⟩
  bits ops i := g.last_ruling ops i
  unused ops i hi := by
    have hruling : (fun o : GateOp => o.ruling i) = fun o => o.mask?.map (·.has i) :=
      funext fun o => GateOp.ruling_of_unused hi o
    exact hruling ▸ g.last_ruling ops i
  confined o c h := by
    refine ⟨?_, fun i hi => ?_⟩
    · rw [GateOp.threshold_apply, GateOp.threshold?_of_component h, Option.getD_none]
    · rw [GateOp.has_apply, GateOp.ruling_of_ne h hi, Option.getD_none]
  commute o o' c c' h h' hne := g.apply_comm h h' hne
  idempotent o := g.apply_apply_self o
  masks ops i := Last.of_foldl (·.has i) (fun m o => o.has_apply m i) ops g.mask

/-- The last operation on a component counts, and bits of no component stay. -/
example : ((⟨⟨0x80⟩, .trace⟩ : Gate).after
    [.enable .rpc, .disable .rpc, .setThreshold .info, .enable .rpc]) = ⟨⟨0x82⟩, .info⟩ := by decide

end Gate

end GatedLog
