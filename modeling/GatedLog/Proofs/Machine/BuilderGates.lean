import GatedLog.Proofs.Environment
import GatedLog.Proofs.Mask
import GatedLog.Proofs.Machine.CallStack

/-!
# Gates of builders

There are three ways to give a builder a threshold and a list of components: one call for each, the
values of the environment variables, and a configuration document. Whatever the builder did before,
they come to the same gate, which the threshold and the set of the components determine
(`paths_agree`).
-/

namespace GatedLog

namespace Gate

/-- The gate for the components of a list, from a threshold on. -/
def exactly (s : Severity) (ks : List Component) : Gate := ⟨ComponentMask.ofList ks, s⟩

variable {s s' r : Severity} {ks ks' : List Component} {k : Component}

theorem exactly_allows : (exactly s ks).allows r k = true ↔ s ≤ r ∧ k ∈ ks := by
  rw [allows_iff, exactly, ComponentMask.contains_ofList]

/-- Neither the order of the components nor how often they are listed matters. -/
theorem exactly_eq_exactly_iff :
    exactly s ks = exactly s' ks' ↔ s = s' ∧ ∀ k, k ∈ ks ↔ k ∈ ks' := by
  rw [exactly, exactly, mk.injEq, ComponentMask.ofList_eq_ofList_iff, and_comm]

end Gate

/-- A level and a list of components as values of environment variables. -/
theorem Environment.apply_of_spelled {level components : String} {s : Severity}
    {ks : List Component} {ps : List (List Char)} (hs : s.Spelling level)
    (hks : components.toList = [','].intercalate ps) (hps : Spells ps ks) (g : Gate) :
    apply g (some level) (some components) = .ok (Gate.exactly s ks) := by
  have hlevel : Severity.read level = .ok s := Severity.read_iff_spelling.mpr hs
  have hlist : readComponents components = .ok ks := readComponents_eq_ok_iff.mpr ⟨ps, hks, hps⟩
  simp only [apply, hlevel, hlist]
  rfl

/-- A builder between two of its steps: the backend it has chosen, its gate, the gates after each
step so far, and what it builds. -/
structure Builder where
  chosen : Option Backend
  gate : Gate
  gates : List Gate
  target : Target

namespace Builder

/-- The builder with some steps to do. -/
def doing (b : Builder) (steps : List BuildStep) : Task :=
  .build steps b.chosen b.gate b.gates b.target

/-- The builder after a step that gives it a gate. -/
def tuned (b : Builder) (g : Gate) : Builder := { b with gate := g, gates := b.gates ++ [g] }

/-- The builder after a step that gives it a backend and a gate. -/
def chose (b : Builder) (d : Backend) (g : Gate) : Builder := { b.tuned g with chosen := some d }

end Builder

namespace State

variable {s : State} {b : Builder} {x : BuildStep} {steps : List BuildStep} {ts : List Task}
  {g : Gate}

/-! ### One step of a builder -/

theorem step_of_doing (hr : s.condition = .running) (ha : s.agenda = b.doing (x :: steps) :: ts) :
    s.step = ({ s with agenda := ts } : State).build b.chosen b.gate b.gates b.target
      (x :: steps) :=
  step_of_running hr ha

theorem step_tuned (hr : s.condition = .running) (ha : s.agenda = b.doing (x :: steps) :: ts)
    (h : buildStep s.world b.gate x = .tuned g) :
    s.step = ({ s with agenda := (b.tuned g).doing steps :: ts }, []) := by
  rw [step_of_doing hr ha]
  simp only [State.build, h]
  rfl

theorem step_configured (hr : s.condition = .running)
    (ha : s.agenda = b.doing (x :: steps) :: ts)
    (h : buildStep s.world b.gate x = .configured g) :
    s.step = ({ s with agenda := (b.tuned g).doing steps :: ts }, [.emitted (.configured g)]) := by
  rw [step_of_doing hr ha]
  simp only [State.build, h]
  rfl

/-- A backend that was chosen before is destroyed first. -/
theorem step_chose (hr : s.condition = .running) (ha : s.agenda = b.doing (x :: steps) :: ts)
    {w : World} {d : Backend} (h : buildStep s.world b.gate x = .chose w d g) :
    s.step = ({ s with
      world := w
      agenda := destroying b.chosen ++ (b.chose d g).doing steps :: ts }, []) := by
  rw [step_of_doing hr ha]
  simp only [State.build, h]
  rw [quietly, push, withWorld, List.append_assoc]
  rfl

/-- The console of some settings is made and chosen, and their gate with it. -/
theorem buildStep_settings {document : String} {c : Settings}
    (hc : Settings.read document = .ok c) (w : World) (g : Gate) :
    buildStep w g (.settings document) = .chose { w with backends := w.backends + 1 }
      ⟨w.backends, .console c.console none⟩ c.gate := by
  simp only [buildStep, hc]
  rfl

/-! ### Three ways to the same gate -/

/-- The ways in which a builder in front of more steps comes by a threshold and a list of
components. -/
structure PathsAgree (sev : Severity) (ks : List Component) : Prop where
  /-- A call for each of them, in either order. -/
  direct : ∀ (s : State) (b : Builder) steps ts, s.condition = .running →
    s.agenda = b.doing (.level sev :: .only ks :: steps) :: ts →
      run 2 s = ({ s with
        agenda := ((b.tuned (b.gate.setThreshold sev)).tuned (.exactly sev ks)).doing steps :: ts }, [])
  converse : ∀ (s : State) (b : Builder) steps ts, s.condition = .running →
    s.agenda = b.doing (.only ks :: .level sev :: steps) :: ts →
      run 2 s = ({ s with
        agenda := ((b.tuned (b.gate.setMask (.ofList ks))).tuned (.exactly sev ks)).doing
          steps :: ts }, [])
  /-- Values of the environment variables: any text for the severity, and any texts for the
  components, with blank ones among them, between commas. -/
  environment : ∀ (s : State) (b : Builder) steps ts (level components : String) ps,
    sev.Spelling level → components.toList = [','].intercalate ps → Environment.Spells ps ks →
    s.condition = .running →
    s.agenda = b.doing (.environment (some level) (some components) :: steps) :: ts →
      run 1 s = ({ s with agenda := (b.tuned (.exactly sev ks)).doing steps :: ts },
        [.emitted (.configured (.exactly sev ks))])
  /-- A document with this level and these components. -/
  settings : ∀ (s : State) (b : Builder) steps ts (document : String) (c : Settings),
    Settings.read document = .ok c → c.level = sev → c.components = some ks →
    s.condition = .running → s.agenda = b.doing (.settings document :: steps) :: ts →
      run 1 s = ({ s with
        world := { s.world with backends := s.world.backends + 1 }
        agenda := destroying b.chosen ++
          (b.chose ⟨s.world.backends, .console c.console none⟩ (.exactly sev ks)).doing
            steps :: ts }, [])
  /-- The gate is that of the threshold and the set of the components. -/
  depends : ∀ sev' ks', Gate.exactly sev' ks' = Gate.exactly sev ks ↔
    sev' = sev ∧ ∀ k, k ∈ ks' ↔ k ∈ ks
  allows : ∀ r k, (Gate.exactly sev ks).allows r k = true ↔ sev ≤ r ∧ k ∈ ks

/-- A step that changes the gate, and the next one that does. -/
theorem run_two_tuned {y : BuildStep} {g' : Gate} (hr : s.condition = .running)
    (ha : s.agenda = b.doing (x :: y :: steps) :: ts) (h : ∀ w, buildStep w b.gate x = .tuned g)
    (h' : ∀ w, buildStep w g y = .tuned g') :
    run 2 s = ({ s with agenda := ((b.tuned g).tuned g').doing steps :: ts }, []) := by
  have hfirst := step_tuned hr ha (h s.world)
  have hsecond := step_tuned (s := { s with agenda := (b.tuned g).doing (y :: steps) :: ts })
    (b := b.tuned g) hr rfl (h' s.world)
  rw [run_succ, hfirst, run_succ, hsecond]
  rfl

/-- **Three ways to the same gate**, whatever the builder has done before. -/
theorem paths_agree (sev : Severity) (ks : List Component) : PathsAgree sev ks where
  direct s b steps ts hr ha := run_two_tuned hr ha (fun _ => rfl) fun _ => rfl
  converse s b steps ts hr ha := run_two_tuned hr ha (fun _ => rfl) fun _ => rfl
  environment s b steps ts level components ps hs hks hps hr ha := by
    have happly := Environment.apply_of_spelled hs hks hps b.gate
    have hbuild : buildStep s.world b.gate (.environment (some level) (some components)) =
        .configured (.exactly sev ks) := by
      simp only [buildStep, happly, fromEnvironment]
    rw [run_succ, run_zero, step_configured hr ha hbuild]
    rfl
  settings s b steps ts document c hc hlevel hcomponents hr ha := by
    have hgate : c.gate = .exactly sev ks := by
      rw [Settings.gate, hcomponents, hlevel]
      rfl
    have hbuild := buildStep_settings hc s.world b.gate
    rw [hgate] at hbuild
    rw [run_succ, run_zero, step_chose hr ha hbuild]
    rfl
  depends sev' ks' := Gate.exactly_eq_exactly_iff
  allows r k := Gate.exactly_allows

end State

end GatedLog
