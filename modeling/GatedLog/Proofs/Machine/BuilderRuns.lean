import GatedLog.Proofs.Machine.Announcements
import GatedLog.Proofs.Machine.BuilderSteps

/-!
# Builders on their way

A builder does its steps one after the other, and between two of them a backend that it has chosen
may be destroyed, whose last operations do what they like. Below them waits one task, which stands for
the builder (`StandIn`). As long as it is there the run is on one of four stretches of its way
(`OnTrail`), and whenever the builder goes on, it has folded the steps that are done (`Station`).
-/

namespace GatedLog

/-- A builder that has done nothing yet. -/
def Builder.fresh (target : Target) : Builder := ⟨none, Gate.unrestricted, [], target⟩

/-- The gate after some steps: that after the last one, or the one that lets everything pass. -/
def gateAfter (gates : List Gate) : Gate := gates.getLast?.getD Gate.unrestricted

/-- The gates after each of some steps, each of which makes it of the gate before. -/
inductive Folds : List BuildStep → List Gate → Prop
  | nil : Folds [] []
  | step {steps : List BuildStep} {gates : List Gate} {x : BuildStep} {g : Gate}
    (h : Folds steps gates) (hx : x.Gives (gateAfter gates) g) : Folds (steps ++ [x]) (gates ++ [g])

/-- None of the steps that are done has failed. -/
theorem Folds.not_fails {steps : List BuildStep} {gates : List Gate} {x : BuildStep} {f : BuildFault}
    (h : Folds steps gates) (hx : x ∈ steps) : ¬ x.Fails f := by
  induction h with
  | nil => cases hx
  | step h hy ih =>
    rcases List.mem_append.mp hx with hx | hx
    · exact ih hx
    · obtain rfl := List.mem_singleton.mp hx
      exact State.not_fails_of_gives hy

namespace State

/-- What a builder has chosen before the steps `rest`: the backend that was made for the last of the
steps `done` that chooses one, when it was that step's turn. -/
inductive Chosen (s : State) (ts : List Task) (k : Nat) (done rest : List BuildStep) :
    Option Backend → Prop
  | nothing (h : ∀ x ∈ done, x.choice? = none) : Chosen s ts k done rest none
  | made (front after : List BuildStep) (b : Builder) {x : BuildStep} {spec : BackendSpec} {j : Nat}
    (hdone : done = front ++ x :: after) (hx : x.choice? = some spec)
    (hafter : ∀ y ∈ after, y.choice? = none) (hj : j < k)
    (hr : (run j s).1.condition = .running)
    (ha : (run j s).1.agenda = b.doing (x :: after ++ rest) :: ts) :
    Chosen s ts k done rest (some ((run j s).1.world.make spec).1)

/-- A builder that has done some of the steps. -/
structure Progress (s : State) (steps : List BuildStep) (target : Target) (ts : List Task) (k : Nat)
    (b : Builder) (done rest : List BuildStep) : Prop where
  split : steps = done ++ rest
  target : b.target = target
  folds : Folds done b.gates
  gate : b.gate = gateAfter b.gates
  chosen : Chosen s ts k done rest b.chosen

/-- After `k` steps the builder goes on with the steps `rest`. -/
structure Station (s : State) (steps : List BuildStep) (target : Target) (ts : List Task) (k : Nat)
    (b : Builder) (done rest : List BuildStep) : Prop extends
    Progress s steps target ts k b done rest where
  running : (run k s).1.condition = .running
  agenda : (run k s).1.agenda = b.doing rest :: ts

/-- The task that stands for the builder: it goes on, or has failed, or is given up. -/
inductive StandIn (s : State) (steps : List BuildStep) (target : Target) (ts : List Task) (k : Nat) :
    Task → Prop
  | going {b : Builder} {done rest : List BuildStep} (h : Progress s steps target ts k b done rest) :
    StandIn s steps target ts k (b.doing rest)
  | failed {b : Builder} {done rest : List BuildStep} {x : BuildStep} {f : BuildFault} {j : Nat}
    (hj : j < k) (h : Station s steps target ts j b done (x :: rest)) (hx : x.Fails f) :
    StandIn s steps target ts k (.respond (.steps b.gates (some f)))
  | givenUp (text : String) : StandIn s steps target ts k (.resume text)

/-- The builder has chosen the backend. -/
def Chose (s : State) (steps : List BuildStep) (ts : List Task) (k : Nat) (d : Backend) : Prop :=
  ∃ done rest, steps = done ++ rest ∧ Chosen s ts k done rest (some d)

/-- A backend that the builder had chosen is being destroyed, in front of the task `t`. -/
structure Destroys (s : State) (steps : List BuildStep) (ts : List Task) (j k : Nat) (d : Backend)
    (t : Task) : Prop where
  before : j < k
  chose : s.Chose steps ts j d
  next : (run j s).1.agenda = .destroy d :: t :: ts
  waits : ∀ i, j < i → i ≤ k → ∃ ys, ys ≠ [] ∧ (run i s).1.agenda = ys ++ t :: ts

/-- The stretches of the way of a builder. -/
inductive OnTrail (s : State) (steps : List BuildStep) (target : Target) (ts : List Task) (k : Nat) :
    Prop
  /-- The task that stands for the builder is next. -/
  | own (t : Task) (ht : StandIn s steps target ts k t) (ha : (run k s).1.agenda = t :: ts)
  | doomed (t : Task) (ht : StandIn s steps target ts k t) (d : Backend) (hd : s.Chose steps ts k d)
    (ha : (run k s).1.agenda = .destroy d :: t :: ts)
  | destroying (t : Task) (ht : StandIn s steps target ts k t) (j : Nat) (d : Backend)
    (h : Destroys s steps ts j k d t)
  /-- The steps are done, and the backend is on its way into a context. -/
  | placing {b : Builder} {done : List BuildStep} {j : Nat} {c : ContextId} (ht : target = .install c)
    (hj : j < k) (h : Station s steps target ts j b done []) (ys : List Task)
    (ha : (run k s).1.agenda = ys ++ .respond (.steps b.gates none) :: ts)

variable {s : State} {steps : List BuildStep} {target : Target} {ts : List Task} {k l : Nat}
  {b : Builder} {done rest : List BuildStep} {x : BuildStep}

/-! ### Gates and choices of one more step -/

theorem gateAfter_concat (gates : List Gate) (g : Gate) : gateAfter (gates ++ [g]) = g := by
  rw [gateAfter, List.getLast?_concat, Option.getD_some]

theorem Chosen.mono {d : Option Backend} (h : Chosen s ts k done rest d) (hk : k ≤ l) :
    Chosen s ts l done rest d := by
  cases h with
  | nothing h => exact .nothing h
  | made front after b hdone hx hafter hj hr ha =>
    exact .made front after b hdone hx hafter (Nat.lt_of_lt_of_le hj hk) hr ha

theorem Chosen.pass {d : Option Backend} (h : Chosen s ts k done (x :: rest) d)
    (hx : x.choice? = none) : Chosen s ts k (done ++ [x]) rest d := by
  cases h with
  | nothing h =>
    refine .nothing fun y hy => ?_
    rcases List.mem_append.mp hy with hy | hy
    · exact h y hy
    · rw [List.mem_singleton.mp hy, hx]
  | made front after b hdone hy hafter hj hr ha =>
    refine .made front (after ++ [x]) b ?_ hy (fun z hz => ?_) hj hr ?_
    · rw [hdone, List.append_assoc, List.cons_append]
    · rcases List.mem_append.mp hz with hz | hz
      · exact hafter z hz
      · rw [List.mem_singleton.mp hz, hx]
    · rw [ha, List.cons_append, List.cons_append, List.append_assoc, List.singleton_append]

theorem Progress.mono (h : Progress s steps target ts k b done rest) (hk : k ≤ l) :
    Progress s steps target ts l b done rest := { h with chosen := h.chosen.mono hk }

theorem Progress.chose {d : Backend} (h : Progress s steps target ts k b done rest)
    (hd : b.chosen = some d) (hk : k ≤ l) : s.Chose steps ts l d :=
  ⟨done, rest, h.split, hd ▸ h.chosen.mono hk⟩

theorem StandIn.mono {t : Task} (h : StandIn s steps target ts k t) (hk : k ≤ l) :
    StandIn s steps target ts l t := by
  cases h with
  | going h => exact .going (h.mono hk)
  | failed hj h hx => exact .failed (Nat.lt_of_lt_of_le hj hk) h hx
  | givenUp text => exact .givenUp text

theorem Progress.fresh (s : State) (steps : List BuildStep) (target : Target) (ts : List Task)
    (k : Nat) : Progress s steps target ts k (.fresh target) [] steps where
  split := rfl
  target := rfl
  folds := .nil
  gate := rfl
  chosen := .nothing (by simp)

/-- After one more step, with or without a new backend. -/
theorem Progress.next {g : Gate} {d : Option Backend}
    (h : Progress s steps target ts k b done (x :: rest)) (hx : x.Gives b.gate g)
    (hd : Chosen s ts (k + 1) (done ++ [x]) rest d) :
    Progress s steps target ts (k + 1) { b.tuned g with chosen := d } (done ++ [x]) rest where
  split := by rw [h.split, List.append_assoc, List.singleton_append]
  target := h.target
  folds := .step h.folds (h.gate ▸ hx)
  gate := (gateAfter_concat b.gates g).symm
  chosen := hd

/-! ### The steps of a builder -/

theorem run_succ_fst (k : Nat) (s : State) : (run (k + 1) s).1 = (run k s).1.step.1 := by
  rw [run_next]

/-- A builder whose next step does not fail goes on with the gate that the step gives. The backend
that it had chosen before is destroyed first, if the step chooses another one. -/
theorem Station.step (h : Station s steps target ts k b done (x :: rest)) (hx : ∀ f, ¬ x.Fails f) :
    ∃ b' : Builder, Progress s steps target ts (k + 1) b' (done ++ [x]) rest ∧
      (run (k + 1) s).1.condition = .running ∧
      World.Alike (run k s).1.world (run (k + 1) s).1.world ∧
      ∃ d, (d = none ∨ d = b.chosen) ∧
        (run (k + 1) s).1.agenda = destroying d ++ b'.doing rest :: ts := by
  rw [run_succ_fst]
  rcases buildStep_cases (run k s).1.world b.gate x with
    ⟨f, hf, -⟩ | ⟨g, hg, ⟨spec, hspec, hstep⟩ | ⟨hnone, hstep⟩⟩
  · exact absurd hf (hx f)
  · have hmade : Chosen s ts (k + 1) (done ++ [x]) rest (some ((run k s).1.world.make spec).1) :=
      .made done [] b rfl hspec (by simp) (Nat.lt_succ_self k) h.running h.agenda
    refine ⟨b.chose ((run k s).1.world.make spec).1 g, h.next hg hmade, ?_⟩
    rw [step_chose h.running h.agenda hstep]
    exact ⟨h.running, World.alike_make _ spec, b.chosen, .inr rfl, rfl⟩
  · have hsame := (h.chosen.pass hnone).mono (Nat.le_succ k)
    refine ⟨b.tuned g, h.next hg hsame, ?_⟩
    rcases hstep with hstep | hstep
    · rw [step_tuned h.running h.agenda hstep]
      exact ⟨h.running, .refl _, none, .inl rfl, rfl⟩
    · rw [step_configured h.running h.agenda hstep]
      exact ⟨h.running, .refl _, none, .inl rfl, rfl⟩

/-- A step that fails ends the builder. What it had chosen is destroyed. -/
theorem Station.step_failed {f : BuildFault} (h : Station s steps target ts k b done (x :: rest))
    (hx : x.Fails f) : (run k s).1.step = ({ (run k s).1 with
      agenda := destroying b.chosen ++ .respond (.steps b.gates (some f)) :: ts }, []) := by
  rw [step_of_doing h.running h.agenda]
  simp only [State.build, failed_of_fails _ _ hx, quietly, push, List.append_assoc]
  rfl

/-- A builder that is done makes its context, or is about to swap its backend in. -/
theorem Station.step_done (h : Station s steps target ts k b done []) :
    (run k s).1.step = (({ (run k s).1 with
      world := (chosenBackend (run k s).1.world b.chosen).2
      agenda := ts } : State).place b.gate b.gates (chosenBackend (run k s).1.world b.chosen).1
        target).quietly := by
  rw [step_of_running h.running h.agenda]
  simp only [perform, Builder.doing, State.build, h.target]
  rfl

/-! ### The way of a builder -/

theorem Destroys.extend {t : Task} {ys : List Task} {j : Nat} {d : Backend}
    (h : Destroys s steps ts j k d t) (hys : ys ≠ [])
    (ha : (run (k + 1) s).1.agenda = ys ++ t :: ts) :
    Destroys s steps ts j (k + 1) d t where
  before := Nat.lt_succ_of_lt h.before
  chose := h.chose
  next := h.next
  waits i hji hi := by
    rcases Nat.lt_or_eq_of_le hi with hlt | rfl
    · exact h.waits i hji (Nat.le_of_lt_succ hlt)
    · exact ⟨ys, hys, ha⟩

/-- An answer on the agenda is given, or forgotten, or waits for ever. -/
theorem agenda_step_respond {a : Answer} (ha : s.agenda = .respond a :: ts) :
    s.step.1.agenda = ts ∨ s.step.1.agenda = .respond a :: ts := by
  cases hr : s.condition with
  | running =>
    rw [step_of_running hr ha]
    exact .inl rfl
  | unwinding text =>
    simp only [State.step, hr, ha]
    exact .inl rfl
  | _ =>
    rw [step_of_halted (halted_of_condition (by simp [hr]))]
    exact .inr ha

/-- With nothing to destroy the task is next. -/
theorem OnTrail.of_destroying {t : Task} {d : Option Backend} (ht : StandIn s steps target ts k t)
    (hd : ∀ e, d = some e → s.Chose steps ts k e)
    (ha : (run k s).1.agenda = State.destroying d ++ t :: ts) : OnTrail s steps target ts k := by
  cases d with
  | none => exact .own t ht ha
  | some e => exact .doomed t ht e (hd e rfl) ha

theorem Station.trail (h : Station s steps target ts k b done rest)
    (hend : (run (k + 1) s).1.agenda ≠ ts) : OnTrail s steps target ts (k + 1) := by
  cases rest with
  | nil =>
    rw [run_succ_fst, h.step_done] at hend
    cases target with
    | create name => exact absurd rfl hend
    | install c =>
      refine .placing rfl (Nat.lt_succ_self k) h
        [.swap c (some ⟨b.gate, (chosenBackend (run k s).1.world b.chosen).1⟩)] ?_
      rw [run_succ_fst, h.step_done]
      rfl
  | cons x rest =>
    by_cases hx : ∃ f, x.Fails f
    · obtain ⟨f, hx⟩ := hx
      refine .of_destroying (.failed (Nat.lt_succ_self k) h hx)
        (fun e he => h.chose he (Nat.le_succ k)) ?_
      rw [run_succ_fst, h.step_failed hx]
    · obtain ⟨b', hb', -, -, d, hd, ha⟩ := h.step fun f hf => hx ⟨f, hf⟩
      refine .of_destroying (.going hb') (fun e he => ?_) ha
      rcases hd with rfl | rfl
      · cases he
      · exact h.chose he (Nat.le_succ k)

/-- A step on the way of a builder, from where its own task is next. -/
theorem OnTrail.step_own {t : Task} (ht : StandIn s steps target ts k t)
    (ha : (run k s).1.agenda = t :: ts) (hend : (run (k + 1) s).1.agenda ≠ ts) :
    OnTrail s steps target ts (k + 1) := by
  have hnext : (run (k + 1) s).1 = (run k s).1.step.1 := run_succ_fst k s
  cases hr : (run k s).1.condition with
  | running =>
    cases ht with
    | going h => exact Station.trail { h with running := hr, agenda := ha } hend
    | _ =>
      rw [hnext, step_of_running hr ha] at hend
      exact absurd rfl hend
  | unwinding text =>
    have hstep : (run k s).1.step = ({ (run k s).1 with agenda := ts } : State).unwind text t := by
      simp only [State.step, hr, ha]
    cases ht with
    | @going b done rest h =>
      rw [hnext, hstep] at hend
      cases hb : b.chosen with
      | none =>
        simp only [Builder.doing, unwind, owned, hb, giveUp] at hend
        exact absurd rfl hend
      | some d =>
        refine .doomed (.resume text) (.givenUp text) d (h.chose hb (Nat.le_succ k)) ?_
        rw [hnext, hstep]
        simp only [Builder.doing, unwind, owned, hb, giveUp]
        rfl
    | _ =>
      rw [hnext, hstep] at hend
      exact absurd rfl hend
  | _ =>
    refine .own t (ht.mono (Nat.le_succ k)) ?_
    rw [hnext, step_of_halted (halted_of_condition (by simp [hr])), ha]

/-- A step on the way of a builder that has not come to its end. -/
theorem OnTrail.next (h : OnTrail s steps target ts k)
    (hend : ts.length < (run (k + 1) s).1.agenda.length) : OnTrail s steps target ts (k + 1) := by
  have hnext : (run (k + 1) s).1 = (run k s).1.step.1 := run_succ_fst k s
  cases h with
  | own t ht ha => exact .step_own ht ha fun he => Nat.lt_irrefl _ (he ▸ hend)
  | doomed t ht d hd ha =>
    obtain ⟨zs, hzs⟩ := agenda_step_above (show _ = [.destroy d] ++ t :: ts from ha) (by simp)
    rw [← hnext] at hzs
    cases zs with
    | nil => exact .own t (ht.mono (Nat.le_succ k)) hzs
    | cons z zs =>
      refine .destroying t (ht.mono (Nat.le_succ k)) k d
        ⟨Nat.lt_succ_self k, hd, ha, fun i hki hi => ⟨z :: zs, by simp, ?_⟩⟩
      obtain rfl : i = k + 1 := by omega
      exact hzs
  | destroying t ht j d h =>
    obtain ⟨ys, hys, ha⟩ := h.waits k h.before (Nat.le_refl k)
    obtain ⟨zs, hzs⟩ := agenda_step_above ha hys
    rw [← hnext] at hzs
    cases zs with
    | nil => exact .own t (ht.mono (Nat.le_succ k)) hzs
    | cons z zs => exact .destroying t (ht.mono (Nat.le_succ k)) j d (h.extend (by simp) hzs)
  | placing ht hj h ys ha =>
    cases ys with
    | nil =>
      rcases agenda_step_respond ha with he | he
      · rw [hnext, he] at hend
        exact absurd hend (Nat.lt_irrefl _)
      · exact .placing ht (Nat.lt_succ_of_lt hj) h [] (by rw [hnext, he, List.nil_append])
    | cons y ys =>
      obtain ⟨zs, hzs⟩ := agenda_step_above ha (by simp)
      rw [← hnext] at hzs
      exact .placing ht (Nat.lt_succ_of_lt hj) h zs hzs

/-- The builder has not come to its end in the first `k` steps. -/
def Underway (s : State) (ts : List Task) (k : Nat) : Prop :=
  ∀ j ≤ k, ts.length < (run j s).1.agenda.length

theorem Completes.underway {t : Task} {n : Nat} (h : s.Completes n) (ha : s.agenda = t :: ts)
    (hk : k < n) : s.Underway ts k := fun j hj => by
  have := h.2 j (Nat.lt_of_le_of_lt hj hk)
  rw [ha] at this
  exact this

/-! ### Where the way leads -/

/-- Whether the builder has done its steps, or comes to one that fails. -/
def Final (rest : List BuildStep) : Prop := ∀ x rest', rest = x :: rest' → ∃ f, x.Fails f

/-- A builder that does not go on after its next step is at its last station. -/
theorem Station.final (h : Station s steps target ts k b done rest)
    (hend : (run (k + 1) s).1.agenda.length ≤ ts.length) : Final rest := by
  rintro x rest' rfl
  by_contra hfails
  obtain ⟨b', -, -, -, d, -, ha⟩ := h.step fun f hf => hfails ⟨f, hf⟩
  rw [ha, List.length_append, List.length_cons] at hend
  omega

/-- In a panic the builder does not come to its end otherwise than in a panic. -/
theorem StandIn.running {t : Task} (ht : StandIn s steps target ts k t)
    (ha : (run k s).1.agenda = t :: ts) (hr : (run (k + 1) s).1.condition = .running)
    (hend : (run (k + 1) s).1.agenda.length ≤ ts.length) : (run k s).1.condition = .running := by
  rw [run_succ_fst] at hr hend
  cases hk : (run k s).1.condition with
  | running => rfl
  | unwinding text =>
    have hstep : (run k s).1.step = ({ (run k s).1 with agenda := ts } : State).unwind text t := by
      simp only [State.step, hk, ha]
    rw [hstep] at hr hend
    cases ht with
    | @going b done rest h =>
      simp only [Builder.doing, unwind, owned] at hr hend
      cases hb : b.chosen with
      | none =>
        rw [hb] at hr
        have hsame := hk.symm.trans hr
        cases hsame
      | some d =>
        rw [hb] at hend
        exact absurd hend (Nat.not_le_of_lt (Nat.lt_add_of_pos_right (Nat.succ_pos 1)))
    | failed hj h hx =>
      have hsame := hk.symm.trans hr
      cases hsame
    | givenUp text' => cases hr
  | _ =>
    rw [step_of_halted (halted_of_condition (by simp [hk])), hk] at hr
    cases hr

/-- A builder that is at its end after one more step, and in no panic, has been at its last
station. -/
theorem OnTrail.ends (h : OnTrail s steps target ts k)
    (hr : (run (k + 1) s).1.condition = .running)
    (hend : (run (k + 1) s).1.agenda.length ≤ ts.length) :
    ∃ j ≤ k, ∃ b done rest, Station s steps target ts j b done rest ∧ Final rest := by
  -- as long as something stands in front of the builder's own task, it is not at its end
  have above : ∀ {ys us : List Task} {t : Task}, us = t :: ts → (run k s).1.agenda = ys ++ us →
      ys ≠ [] → False := by
    rintro ys _ t rfl ha hys
    obtain ⟨zs, hzs⟩ := agenda_step_above ha hys
    rw [run_succ_fst, hzs, List.length_append, List.length_cons] at hend
    omega
  cases h with
  | own t ht ha =>
    have hk := ht.running ha hr hend
    cases ht with
    | @going b done rest h =>
      have hstation : Station s steps target ts k b done rest :=
        { h with running := hk, agenda := ha }
      exact ⟨k, Nat.le_refl k, b, done, rest, hstation, hstation.final hend⟩
    | @failed b done rest x f j hj h hx =>
      refine ⟨j, Nat.le_of_lt hj, b, done, x :: rest, h, ?_⟩
      rintro y rest' ⟨⟩
      exact ⟨f, hx⟩
    | givenUp text =>
      rw [run_succ_fst, step_of_running hk ha] at hr
      cases hr
  | doomed t ht d hd ha => exact (above rfl (show _ = [.destroy d] ++ t :: ts from ha) (by simp)).elim
  | destroying t ht j d h =>
    obtain ⟨ys, hys, ha⟩ := h.waits k h.before (Nat.le_refl k)
    exact (above rfl ha hys).elim
  | @placing b done j c ht hj h ys ha => exact ⟨j, Nat.le_of_lt hj, b, done, [], h, nofun⟩

/-- The next step puts something into a context, or takes it out, or adjusts its gate, or tells of
that. -/
inductive Touches (s : State) : Prop
  | replaces (c : ContextId) (h : Replaces s c)
  | adjusts (c : ContextId) (h : Adjusts s c)
  | announces (e : Event) (he : e.isLifecycle = true) (h : .emitted e ∈ s.step.2)

/-- Operations, swaps and events do that, and no other task. -/
theorem Touches.cases (h : Touches s) : ∃ t ts, s.agenda = t :: ts ∧
    ((∃ o, t = .begin o) ∨ (∃ c next, t = .swap c next) ∨ ∃ e, t = .emit e) := by
  cases h with
  | replaces c h =>
    obtain ⟨-, -, next, ts, ha⟩ := h
    exact ⟨_, ts, ha, .inr (.inl ⟨c, next, rfl⟩)⟩
  | adjusts c h =>
    obtain ⟨-, o, ts, ha, -⟩ := h
    exact ⟨_, ts, ha, .inl ⟨o, rfl⟩⟩
  | announces e he h =>
    obtain ⟨us, ha, -⟩ := emit_of_lifecycle he h
    exact ⟨_, us, ha, .inr (.inr ⟨e, rfl⟩)⟩

end State

end GatedLog
