import GatedLog.Proofs.Environment.Values
import GatedLog.Proofs.Machine.BuilderGates

/-!
# Builders that read the environment

A step of a builder takes the values of the environment variables, or the variables themselves. It
either gives the builder a gate and emits one event that shows it, or it ends the builder with a
fault and emits nothing (`accepts_iff`, `rejects_iff`); then the backend that the builder has chosen is
destroyed, and the fault is the answer. The values decide which of the two it is, which gate, and
which fault (`environment_values`).
-/

namespace GatedLog.State

variable {s : State} {b : Builder} {steps : List BuildStep} {ts : List Task} {x : BuildStep}
  {g : Gate} {e : EnvironmentFault}

/-- A builder is about to do a step, with more steps and other tasks behind it. -/
structure InFront (s : State) (b : Builder) (x : BuildStep) (steps : List BuildStep)
    (ts : List Task) : Prop where
  running : s.condition = .running
  agenda : s.agenda = b.doing (x :: steps) :: ts

/-- The next step gives the builder a gate, and the one event is that of this gate. -/
def Accepts (s : State) (b : Builder) (steps : List BuildStep) (ts : List Task) (g : Gate) : Prop :=
  s.step = ({ s with agenda := (b.tuned g).doing steps :: ts }, [.emitted (.configured g)])

/-- The next step ends the builder with a fault, and nothing is emitted. The backend that the
builder has chosen is destroyed before the answer. -/
def Rejects (s : State) (b : Builder) (ts : List Task) (e : EnvironmentFault) : Prop :=
  s.step = ({ s with
    agenda := destroying b.chosen ++ .respond (.steps b.gates (some (.environment e))) :: ts }, [])

theorem rejects_of_failed (h : InFront s b x steps ts)
    (hx : buildStep s.world b.gate x = .failed (.environment e)) : Rejects s b ts e := by
  rw [Rejects, step_of_doing h.running h.agenda]
  simp only [State.build, hx, quietly, push, List.append_assoc]
  rfl

/-- A step that takes the environment gives the builder the gate that comes of it, and no other. -/
theorem accepts_iff {r : Except EnvironmentFault Gate} (h : InFront s b x steps ts)
    (hx : buildStep s.world b.gate x = fromEnvironment r) : Accepts s b steps ts g ↔ r = .ok g := by
  cases r with
  | ok g' =>
    have hstep : Accepts s b steps ts g' := step_configured h.running h.agenda hx
    constructor
    · intro hg
      have hevents := congrArg Prod.snd (hstep.symm.trans hg)
      simpa using hevents
    · intro hg
      exact Except.ok.inj hg ▸ hstep
  | error e =>
    have hstep : Rejects s b ts e := rejects_of_failed h hx
    constructor
    · intro hg
      have hevents := congrArg Prod.snd (hstep.symm.trans hg)
      simp at hevents
    · intro hg
      cases hg

/-- It ends the builder with the fault that comes of it, and no other. -/
theorem rejects_iff {r : Except EnvironmentFault Gate} (h : InFront s b x steps ts)
    (hx : buildStep s.world b.gate x = fromEnvironment r) : Rejects s b ts e ↔ r = .error e := by
  cases r with
  | ok g =>
    have hstep : Accepts s b steps ts g := step_configured h.running h.agenda hx
    constructor
    · intro he
      have hevents := congrArg Prod.snd (hstep.symm.trans he)
      simp at hevents
    · intro he
      cases he
  | error e' =>
    have hstep : Rejects s b ts e' := rejects_of_failed h hx
    constructor
    · intro he
      have hagenda := congrArg (·.1.agenda) (hstep.symm.trans he)
      simpa using hagenda
    · intro he
      exact Except.error.inj he ▸ hstep

/-- A backend without last operations is destroyed in silence, above the tasks that follow. -/
theorem exists_run_inert {d : Option Backend} {us : List Task} (hr : s.condition = .running)
    (ha : s.agenda = destroying d ++ us) (hd : ∀ b ∈ d, World.lastOps b.kind = []) :
    ∃ n, run n s = ({ s with agenda := us }, (d.map .destroyed).toList) ∧
      ∀ j ≤ n, us.length ≤ (run j s).1.agenda.length := by
  cases d with
  | none =>
    refine ⟨0, ?_, fun j hj => ?_⟩
    · rw [run_zero, show us = s.agenda from ha.symm]
      rfl
    · obtain rfl : j = 0 := by omega
      rw [run_zero, ha, List.length_append]
      omega
  | some b =>
    -- the backend, and its empty script
    have hlast : World.lastOps b.kind = [] := hd b rfl
    have hdestroy : s.step = ({ s with agenda := .script [] :: us }, [.destroyed b]) := by
      rw [step_of_running hr ha]
      simp only [perform, destroy, hlast]
      rfl
    have hscript : ({ s with agenda := .script [] :: us } : State).step =
        ({ s with agenda := us }, []) :=
      (step_of_running (s := { s with agenda := .script [] :: us }) hr rfl).trans rfl
    refine ⟨2, ?_, fun j hj => ?_⟩
    · rw [run_succ, hdestroy, run_succ, hscript, run_zero]
      rfl
    · obtain rfl | rfl | rfl : j = 0 ∨ j = 1 ∨ j = 2 := by omega
      · rw [run_zero, ha, List.length_append]
        omega
      · rw [run_succ, hdestroy, run_zero]
        exact Nat.le_succ _
      · rw [run_succ, hdestroy, run_succ, hscript, run_zero]

/-- So it is in front of an answer. -/
theorem exists_run_destroying {d : Option Backend} {a : Answer} (hr : s.condition = .running)
    (ha : s.agenda = destroying d ++ .respond a :: ts) (hd : ∀ b ∈ d, World.lastOps b.kind = []) :
    ∃ n, run n s = ({ s with agenda := ts, answer := a }, (d.map .destroyed).toList) := by
  obtain ⟨n, hn, -⟩ := exists_run_inert hr ha hd
  have hanswer : ({ s with agenda := .respond a :: ts } : State).step =
      ({ s with agenda := ts, answer := a }, []) :=
    (step_of_running (s := { s with agenda := .respond a :: ts }) hr rfl).trans rfl
  exact ⟨n + 1, by rw [run_next, hn, hanswer, List.append_nil]⟩

/-! ### What the values come to -/

open Environment in
/-- What comes of the values of the two variables, for every builder that is about to take them. -/
structure EnvironmentValues (level components : Option String) : Prop where
  /-- They are accepted exactly if the level is read and every entry of the list is. -/
  accepted : ∀ s b steps ts, InFront s b (.environment level components) steps ts →
    ((∃ g, Accepts s b steps ts g) ↔
      (∀ text ∈ level, ∃ sev, Severity.read text = .ok sev) ∧ ∀ text ∈ components, AllName text)
  /-- Where they are not, they are rejected. -/
  decided : ∀ s b steps ts, InFront s b (.environment level components) steps ts →
    (∃ g, Accepts s b steps ts g) ∨ ∃ e, Rejects s b ts e
  /-- The threshold is the level, and the set that of the components that are named; an absent value
  changes nothing. -/
  gate : ∀ s b steps ts g, InFront s b (.environment level components) steps ts →
    (Accepts s b steps ts g ↔
      GivesThreshold b.gate.threshold g.threshold level ∧ GivesMask b.gate.mask g.mask components)
  /-- A list whose entries are all blank leaves no bit. -/
  blank : ∀ s b steps ts g, InFront s b (.environment level components) steps ts →
    Accepts s b steps ts g →
      ∀ text ∈ components, (∀ p ∈ text.toList.splitOn ',', Text.Blank p) → g.mask.bits = 0
  /-- The event shows the threshold and the set. -/
  shown : ∀ g, ("threshold", .text g.threshold.name) ∈ (Event.configured g).fields ∧
    ("mask", .number g.mask.bits.toNat) ∈ (Event.configured g).fields
  /-- The level is blamed if it cannot be read, else the list, for its leftmost entry that cannot. -/
  fault : ∀ s b steps ts e, InFront s b (.environment level components) steps ts →
    (Rejects s b ts e ↔ Blames level components e)
  /-- The answer is the fault, after the destruction of the backend alone. -/
  answer : ∀ s b steps ts e, InFront s b (.environment level components) steps ts →
    Rejects s b ts e → (∀ d ∈ b.chosen, World.lastOps d.kind = []) →
      ∃ n, run n s = ({ s with agenda := ts, answer := .steps b.gates (some (.environment e)) },
        (b.chosen.map .destroyed).toList)
  /-- An entry stands between commas and is trimmed; those that are blank are none. -/
  entries : ∀ text, entries text =
    (((text.toList.splitOn ',').map Text.trim).filter fun p => !p.isEmpty).map String.ofList
  /-- The level is shown as it was given, unless it is a code, and an entry as it is, trimmed. -/
  verbatim : ∀ text why,
    (Severity.read text = .error why → why = .unknownSeverity text ∨
      ∃ n, Text.readInt32 (Text.trim text.toList) = some n ∧ why = .severityCode n) ∧
    (Component.read text = .error why → why = .unknownComponent text)
  /-- Order, repetitions, blank entries and white space make no difference. -/
  rearranged : ∀ s s' b steps ts ps qs g, Rearranged ps qs → (∀ p ∈ ps, ',' ∉ p) →
    (∀ q ∈ qs, ',' ∉ q) → InFront s b (.environment level (some (listed ps))) steps ts →
    InFront s' b (.environment level (some (listed qs))) steps ts →
      (Accepts s b steps ts g ↔ Accepts s' b steps ts g)
  /-- Variables that hold texts do what the texts do. -/
  texts : ∀ s s' b steps ts,
    InFront s b (.environmentOctets (level.map Text.Utf8.encode) (components.map Text.Utf8.encode))
      steps ts →
    InFront s' b (.environment level components) steps ts →
      (∀ g, Accepts s b steps ts g ↔ Accepts s' b steps ts g) ∧
      ∀ e, Rejects s b ts e ↔ Rejects s' b ts e
  /-- A level that is no text is found first. -/
  levelOctets : ∀ s b steps ts octets other, (∀ text, Text.Utf8.encode text ≠ octets) →
    InFront s b (.environmentOctets (some octets) other) steps ts →
      Rejects s b ts ⟨.level, .notUnicode⟩
  /-- Then a list that is no text, whatever text the level is. -/
  componentsOctets : ∀ s b steps ts octets, (∀ text, Text.Utf8.encode text ≠ octets) →
    InFront s b (.environmentOctets (level.map Text.Utf8.encode) (some octets)) steps ts →
      Rejects s b ts ⟨.components, .notUnicode⟩

/-- **What the environment does to a builder.** -/
theorem environment_values (level components : Option String) :
    EnvironmentValues level components where
  accepted s b steps ts h := by
    simp only [accepts_iff h rfl]
    exact Environment.exists_apply_eq_ok_iff
  decided s b steps ts h := by
    simp only [accepts_iff h rfl, rejects_iff h rfl]
    cases Environment.apply b.gate level components with
    | ok g => exact .inl ⟨g, rfl⟩
    | error e => exact .inr ⟨e, rfl⟩
  gate s b steps ts g h := (accepts_iff h rfl).trans Environment.apply_eq_ok_iff
  blank s b steps ts g h hg text htext hblank := by
    obtain rfl : components = some text := htext
    obtain ⟨-, -, hbits⟩ := Environment.apply_eq_ok_iff.mp ((accepts_iff h rfl).mp hg)
    exact Environment.bits_eq_zero_of_blank hblank hbits
  shown g := ⟨by simp [Event.fields], by simp [Event.fields]⟩
  fault s b steps ts e h := (rejects_iff h rfl).trans Environment.apply_eq_error_iff
  answer s b steps ts e h he hd := by
    obtain ⟨n, hn⟩ := exists_run_destroying (s := s.step.1) (d := b.chosen)
      (by rw [he]; exact h.running) (by rw [he]) hd
    refine ⟨n + 1, ?_⟩
    rw [run_succ, hn, he]
    rfl
  entries := Environment.entries_eq
  verbatim text why := ⟨Severity.rejection_of_read, Component.rejection_of_read⟩
  rearranged s s' b steps ts ps qs g hchange hps hqs h h' := by
    rw [accepts_iff h rfl, accepts_iff h' rfl]
    exact Environment.apply_listed_eq_ok_iff hps hqs hchange
  texts s s' b steps ts h h' := by
    have hocts : buildStep s.world b.gate (.environmentOctets (level.map Text.Utf8.encode)
        (components.map Text.Utf8.encode)) =
        fromEnvironment (Environment.apply b.gate level components) :=
      congrArg fromEnvironment (Environment.applyOctets_encode ..)
    exact ⟨fun g => (accepts_iff h hocts).trans (accepts_iff h' rfl).symm,
      fun e => (rejects_iff h hocts).trans (rejects_iff h' rfl).symm⟩
  levelOctets s b steps ts octets other hocts h :=
    (rejects_iff h rfl).mpr (Environment.applyOctets_of_level hocts b.gate other)
  componentsOctets s b steps ts octets hocts h :=
    (rejects_iff h rfl).mpr (Environment.applyOctets_of_components hocts b.gate level)

end GatedLog.State
