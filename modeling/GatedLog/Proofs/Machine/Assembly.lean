import GatedLog.Proofs.Machine.Moves
import GatedLog.Proofs.Machine.Lockstep

/-!
# What an install comes to

An operation that installs a backend puts together what is to be installed (`assembly`), and then
swaps it in. It gets there whatever is installed in the context (`comes_to_swap`), and what it
puts together does not depend on that (`assembly_replace`). If what is destroyed meanwhile has no last
operations, nothing else happens to the world (`comes_of_swap`).
-/

namespace GatedLog

/-- What is put together for an install, up to the swap. -/
structure Assembly where
  context : ContextId
  world : World
  gate : Gate
  backend : Backend
  answer : Answer := .nothing
  /-- The backends that a builder chose before. -/
  superseded : List Backend := []

namespace Assembly

/-- What goes into the context. -/
def installed (x : Assembly) : Installed := ⟨x.gate, x.backend⟩

/-- The world after the swap. -/
def swapped (x : Assembly) : World := x.world.replace x.context (some x.installed)

/-- The same with something else in a context so far. -/
def replace (x : Assembly) (c : ContextId) (i : Option Installed) : Assembly :=
  { x with world := x.world.replace c i }

end Assembly

namespace State

/-- What the steps of a builder come to, unless one of them fails. -/
def assembleSteps (c : ContextId) (w : World) (chosen : Option Backend) (g : Gate)
    (gates : List Gate) : List BuildStep → Option Assembly
  | [] => some
    { context := c
      world := (chosenBackend w chosen).2
      gate := g
      backend := (chosenBackend w chosen).1
      answer := .steps gates none }
  | step :: steps =>
    match buildStep w g step with
    | .chose w b g =>
      (assembleSteps c w (some b) g (gates ++ [g]) steps).map fun x =>
        { x with superseded := chosen.toList ++ x.superseded }
    | .tuned g => assembleSteps c w chosen g (gates ++ [g]) steps
    | .configured g => assembleSteps c w chosen g (gates ++ [g]) steps
    | .failed _ => none

/-- What an operation puts together that installs a backend. -/
def assembly (w : World) : Op → Option Assembly
  | .install ctx spec g => some
    { context := w.lookUp ctx
      world := (w.make spec).2
      gate := g
      backend := (w.make spec).1 }
  | .buildInto ctx steps => assembleSteps (w.lookUp ctx) w none Gate.unrestricted [] steps
  | .setFunction hook => some
    { context := World.global
      world := (w.make (.forwarding hook)).2
      gate := Gate.unrestricted
      backend := (w.make (.forwarding hook)).1 }
  | .installForwarder id ctx => (w.forwarders.get? id).map fun b =>
    { context := w.lookUp ctx
      world := { w with forwarders := w.forwarders.erase id }
      gate := Gate.unrestricted
      backend := b }
  | _ => none

/-! ### The way to the swap -/

/-- The run comes to another state. -/
def Comes (s s₁ : State) : Prop := ∃ k, (run k s).1 = s₁

section

variable {s s₁ s₂ : State} {ts : List Task}

theorem Comes.refl (s : State) : s.Comes s := ⟨0, rfl⟩

theorem Comes.trans (h : s.Comes s₁) (h' : s₁.Comes s₂) : s.Comes s₂ := by
  obtain ⟨k, rfl⟩ := h
  obtain ⟨k', rfl⟩ := h'
  exact ⟨k + k', by rw [run_add]⟩

theorem comes_step (s : State) : s.Comes s.step.1 := ⟨1, by rw [run_succ, run_zero]⟩

/-- The state in front of the swap. -/
def atSwap (s : State) (ts : List Task) (x : Assembly) : State :=
  { s with
    world := x.world
    agenda := .swap x.context (some x.installed) :: .respond x.answer :: ts }

/-- The state in which the swap is done. -/
def swappedIn (s : State) (ts : List Task) (x : Assembly) : State :=
  { s.register with
    world := x.swapped
    agenda := .respond x.answer :: ts }

theorem comes_of_running {t : Task} (hr : s.condition = .running) (ha : s.agenda = t :: ts) :
    s.Comes (({ s with agenda := ts } : State).perform t).1 :=
  step_of_running hr ha ▸ comes_step s

/-- A backend without last operations is destroyed. -/
theorem Comes.destroying {b : Option Backend} {us : List Task} (h : s.Comes s₁)
    (hr : s₁.condition = .running) (ha : s₁.agenda = State.destroying b ++ us ++ ts)
    (hb : ∀ b' ∈ b, World.lastOps b'.kind = []) : s.Comes { s₁ with agenda := us ++ ts } := by
  refine h.trans ?_
  cases b with
  | none =>
    obtain ⟨w, agenda, answer, condition⟩ := s₁
    obtain rfl : agenda = us ++ ts := ha
    exact .refl _
  | some b =>
    have hscript : s₁.Comes { s₁ with agenda := .script [] :: (us ++ ts) } := by
      have := comes_of_running hr ha
      rw [perform, destroy, hb b rfl] at this
      exact this
    exact hscript.trans (comes_of_running (s := { s₁ with agenda := .script [] :: (us ++ ts) }) hr rfl)

theorem comes_of_build {steps : List BuildStep} {chosen : Option Backend} {g : Gate}
    {gates : List Gate} {c : ContextId} {x : Assembly} (hr : s.condition = .running)
    (ha : s.agenda = .build steps chosen g gates (.install c) :: ts)
    (hx : assembleSteps c s.world chosen g gates steps = some x)
    (hsuper : ∀ b ∈ x.superseded, World.lastOps b.kind = []) : s.Comes (s.atSwap ts x) := by
  induction steps generalizing s chosen g gates x with
  | nil =>
    obtain rfl := Option.some.inj hx
    exact comes_of_running hr ha
  | cons step steps ih =>
    have hstep := comes_of_running hr ha
    simp only [perform, build, assembleSteps] at hstep hx
    generalize buildStep s.world g step = y at hstep hx
    cases y with
    | chose w b g' =>
      obtain ⟨y, hy, rfl⟩ := Option.map_eq_some_iff.mp hx
      have hdestroyed := hstep.destroying hr rfl fun b' hb' =>
        hsuper b' (List.mem_append_left _ (Option.mem_toList.mpr hb'))
      exact hdestroyed.trans
        (ih (x := y) hr rfl hy fun b' hb' => hsuper b' (List.mem_append_right _ hb'))
    | tuned g' => exact hstep.trans (ih hr rfl hx hsuper)
    | configured g' => exact hstep.trans (ih hr rfl hx hsuper)
    | failed f => cases hx

/-- An operation that installs a backend comes to the swap. -/
theorem comes_to_swap {o : Op} {x : Assembly} (hr : s.condition = .running)
    (ha : s.agenda = .begin o :: ts) (hx : assembly s.world o = some x)
    (hsuper : ∀ b ∈ x.superseded, World.lastOps b.kind = []) : s.Comes (s.atSwap ts x) := by
  have hbegin := comes_of_running hr ha
  cases o with
  | install ctx spec g =>
    obtain rfl := Option.some.inj hx
    exact hbegin
  | buildInto ctx steps => exact hbegin.trans (comes_of_build hr rfl hx hsuper)
  | setFunction hook =>
    obtain rfl := Option.some.inj hx
    exact hbegin
  | installForwarder id ctx =>
    obtain ⟨b, hb, rfl⟩ := Option.map_eq_some_iff.mp hx
    simp only [perform, State.begin, withForwarder, hb] at hbegin
    exact hbegin
  | _ => cases hx

/-- What is replaced is destroyed, and the install is over. -/
theorem comes_of_swap {x : Assembly} (hr : s.condition = .running)
    (hc : x.world.access x.context = .granted)
    (hi : ∀ i ∈ x.world.installed x.context, World.lastOps i.backend.kind = []) :
    (s.atSwap ts x).Comes (s.swappedIn ts x) := by
  have hswap := comes_of_running (s := s.atSwap ts x) hr rfl
  simp only [perform, swap, accessing, atSwap, hc] at hswap
  have hdestroyed := hswap.destroying hr rfl fun b hb => by
    obtain ⟨i, hmem, rfl⟩ := Option.map_eq_some_iff.mp hb
    exact hi i hmem
  exact hdestroyed.trans (comes_of_running (s := { s.register with
    world := x.swapped
    agenda := .emit (swapped (some x.installed)) :: .respond x.answer :: ts }) hr rfl)

end

/-! ### What is put together -/

section

variable {w : World} {x : Assembly}

theorem alike_of_assembleSteps {steps : List BuildStep} {c : ContextId} {chosen : Option Backend}
    {g : Gate} {gates : List Gate} (hx : assembleSteps c w chosen g gates steps = some x) :
    World.Alike w x.world := by
  induction steps generalizing w chosen g gates x with
  | nil =>
    obtain rfl := Option.some.inj hx
    cases chosen with
    | none => exact World.alike_make w _
    | some b => exact .refl w
  | cons step steps ih =>
    rw [assembleSteps] at hx
    split at hx
    · next v b g' hstep =>
      obtain ⟨y, hy, rfl⟩ := Option.map_eq_some_iff.mp hx
      exact (alike_of_chose hstep).trans (ih (x := y) hy)
    · exact ih hx
    · exact ih hx
    · cases hx

theorem alike_of_assembly {o : Op} (hx : assembly w o = some x) : World.Alike w x.world := by
  cases o with
  | install ctx spec g =>
    obtain rfl := Option.some.inj hx
    exact World.alike_make w spec
  | buildInto ctx steps => exact alike_of_assembleSteps hx
  | setFunction hook =>
    obtain rfl := Option.some.inj hx
    exact World.alike_make w _
  | installForwarder id ctx =>
    obtain ⟨b, -, rfl⟩ := Option.map_eq_some_iff.mp hx
    exact ⟨rfl, rfl, rfl, rfl⟩
  | _ => cases hx

/-! What is installed in a context so far makes no difference. -/

theorem make_replace (w : World) (c : ContextId) (i : Option Installed) (spec : BackendSpec) :
    (w.replace c i).make spec = ((w.make spec).1, (w.make spec).2.replace c i) := by
  have handle : ∀ name,
      (w.replace c i).handle name = ((w.handle name).1, (w.handle name).2.replace c i) :=
    fun name => by
      simp only [World.handle, World.replace, World.modifyContext]
      split <;> rfl
  cases spec with
  | memory name storeAs =>
    cases name with
    | none => rfl
    | some name =>
      simp only [World.make, handle]
      rfl
  | _ => rfl

/-- What a step of a builder comes to with something else in a context. -/
def Built.replace (c : ContextId) (i : Option Installed) : Built → Built
  | .chose w b g => .chose (w.replace c i) b g
  | y => y

theorem buildStep_replace (w : World) (c : ContextId) (i : Option Installed) (g : Gate)
    (step : BuildStep) : buildStep (w.replace c i) g step = (buildStep w g step).replace c i := by
  have environment : ∀ y, fromEnvironment y = (fromEnvironment y).replace c i := fun y => by
    cases y <;> rfl
  cases step with
  | backend spec => simp only [buildStep, make_replace, Built.replace]
  | environment level components => exact environment _
  | environmentOctets level components => exact environment _
  | settings document =>
    simp only [buildStep]
    cases Settings.read document <;> simp only [make_replace, Built.replace]
  | _ => rfl

theorem assembleSteps_replace (w : World) (c d : ContextId) (i : Option Installed)
    (chosen : Option Backend) (g : Gate) (gates : List Gate) (steps : List BuildStep) :
    assembleSteps d (w.replace c i) chosen g gates steps =
      (assembleSteps d w chosen g gates steps).map (·.replace c i) := by
  induction steps generalizing w chosen g gates with
  | nil =>
    cases chosen with
    | none => simp only [assembleSteps, chosenBackend, make_replace, Option.map_some, Assembly.replace]
    | some b => rfl
  | cons step steps ih =>
    rw [assembleSteps, assembleSteps, buildStep_replace]
    cases buildStep w g step with
    | chose v b g' =>
      simp only [Built.replace, ih, Option.map_map]
      rfl
    | tuned g' => exact ih w chosen g' _
    | configured g' => exact ih w chosen g' _
    | failed f => rfl

theorem assembly_replace (w : World) (c : ContextId) (i : Option Installed) (o : Op) :
    assembly (w.replace c i) o = (assembly w o).map (·.replace c i) := by
  have lookUp : ∀ ctx, (w.replace c i).lookUp ctx = w.lookUp ctx := fun ctx => by cases ctx <;> rfl
  cases o with
  | install ctx spec g =>
    simp only [assembly, make_replace, lookUp, Option.map_some, Assembly.replace]
  | buildInto ctx steps => simp only [assembly, assembleSteps_replace, lookUp]
  | setFunction hook => simp only [assembly, make_replace, Option.map_some, Assembly.replace]
  | installForwarder id ctx =>
    simp only [assembly, lookUp, Option.map_map]
    rfl
  | _ => rfl

end

/-! ### Twins -/

/-- Assemblies that look the same. -/
structure AssemblyTwin (T : Set Use) (σ : Link) (x x' : Assembly) : Prop where
  context : σ.contexts.rel x.context x'.context
  gate : x.gate = x'.gate
  backend : Backend.Twin T σ x.backend x'.backend
  answer : x.answer = x'.answer
  superseded : List.Forall₂ (Backend.Twin T σ) x.superseded x'.superseded

section

variable {T : Set Use} {σ : Link} {w v : World} {x : Assembly}

theorem assembleSteps_twin (h : World.Twin T σ w v) {steps : List BuildStep} {b b' : Option Backend}
    {c c' : ContextId} {g : Gate} {gates : List Gate} (hT : ∀ u ∈ buildUses steps, u ∈ T)
    (hc : σ.contexts.rel c c') (hb : Option.Rel (Backend.Twin T σ) b b')
    (hx : assembleSteps c w b g gates steps = some x) :
    ∃ τ x', assembleSteps c' v b' g gates steps = some x' ∧
      World.Joint T σ w v τ x.world x'.world ∧ AssemblyTwin T τ x x' := by
  induction steps generalizing σ w v b b' g gates x with
  | nil =>
    obtain rfl := Option.some.inj hx
    cases hb with
    | some hb => exact ⟨σ, _, rfl, h.joint, ⟨hc, rfl, hb, rfl, .nil⟩⟩
    | none =>
      obtain ⟨τ, hjoint, hb⟩ := h.make (.console {} none) hT
      exact ⟨τ, _, rfl, hjoint, ⟨hjoint.grows.contexts.keeps hc, rfl, hb, rfl, .nil⟩⟩
  | cons step steps ih =>
    have hstep : ∀ u ∈ step.uses, u ∈ T := fun u hu => hT u (by simp [buildUses, hu])
    have hsteps : ∀ u ∈ buildUses steps, u ∈ T := fun u hu => hT u (by
      simp only [buildUses, List.flatMap_cons, List.mem_cons, List.mem_append] at hu ⊢
      exact hu.imp_right .inr)
    have htwin := buildStep_twin h g hstep
    rw [assembleSteps] at hx ⊢
    generalize buildStep w g step = y at htwin hx
    generalize buildStep v g step = y' at htwin ⊢
    cases htwin with
    | chose g' hjoint hnew =>
      obtain ⟨z, hz, rfl⟩ := Option.map_eq_some_iff.mp hx
      obtain ⟨τ, z', hz', hjoint', htwin⟩ :=
        ih (x := z) hjoint.twin hsteps (hjoint.grows.contexts.keeps hc) (.some hnew) hz
      refine ⟨τ, _, Option.map_eq_some_iff.mpr ⟨z', hz', rfl⟩, hjoint.trans hjoint', ?_⟩
      refine { htwin with superseded := List.rel_append ?_ htwin.superseded }
      cases hb with
      | none => exact .nil
      | some hb => exact .cons ((hb.mono hjoint.grows).mono hjoint'.grows) .nil
    | tuned g' => exact ih h hsteps hc hb hx
    | configured g' => exact ih h hsteps hc hb hx
    | failed f => cases hx

/-- Twin worlds put together what looks the same. -/
theorem assembly_twin (h : World.Twin T σ w v) {o : Op} (hT : ∀ u ∈ o.uses v, u ∈ T)
    (hx : assembly w o = some x) :
    ∃ τ x', assembly v o = some x' ∧ World.Joint T σ w v τ x.world x'.world ∧
      AssemblyTwin T τ x x' := by
  cases o with
  | install ctx spec g =>
    obtain rfl := Option.some.inj hx
    obtain ⟨τ, hjoint, hb⟩ := h.make spec fun u hu => hT u (by simp [Op.uses, hu])
    have hc : σ.contexts.rel (w.lookUp ctx) (v.lookUp ctx) :=
      h.lookUp fun u hu => hT u (by simp [Op.uses, hu])
    exact ⟨τ, _, rfl, hjoint, ⟨hjoint.grows.contexts.keeps hc, rfl, hb, rfl, .nil⟩⟩
  | buildInto ctx steps =>
    have hc : σ.contexts.rel (w.lookUp ctx) (v.lookUp ctx) :=
      h.lookUp fun u hu => hT u (by simp [Op.uses, hu])
    exact assembleSteps_twin h (fun u hu => hT u (by simp [Op.uses, hu])) hc .none hx
  | setFunction hook =>
    obtain rfl := Option.some.inj hx
    obtain ⟨τ, hjoint, hb⟩ := h.make (.forwarding hook) fun u hu => hT u (by simp [Op.uses, hu])
    have hc : σ.contexts.rel (w.lookUp .global) (v.lookUp .global) :=
      h.lookUp fun u hu => hT u (by simp [Op.uses, hu])
    exact ⟨τ, _, rfl, hjoint, ⟨hjoint.grows.contexts.keeps hc, rfl, hb, rfl, .nil⟩⟩
  | installForwarder id ctx =>
    obtain ⟨b, hb, rfl⟩ := Option.map_eq_some_iff.mp hx
    have hid : Keys T .forwarder id := hT ⟨.forwarder id, .change⟩ (by simp [Op.uses])
    have hc : σ.contexts.rel (w.lookUp ctx) (v.lookUp ctx) :=
      h.lookUp fun u hu => hT u (by simp [Op.uses, hu])
    have hrel := h.forwarders id hid
    rw [hb] at hrel
    generalize hv : v.forwarders.get? id = y at hrel
    cases hrel with
    | some hb' =>
      exact ⟨σ, _, Option.map_eq_some_iff.mpr ⟨_, hv, rfl⟩, h.eraseForwarder hid,
        ⟨hc, rfl, hb', rfl, .nil⟩⟩
  | _ => cases hx

end

end State

end GatedLog
