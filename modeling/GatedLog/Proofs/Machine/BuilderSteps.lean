import GatedLog.Proofs.Machine.Configuration
import GatedLog.Proofs.Machine.EnvironmentSteps

/-!
# What the steps of builders do

What a step of a builder makes of its gate (`BuildStep.Gives`), which backend it chooses
(`BuildStep.choice?`) and why it fails (`BuildStep.Fails`). The step decides all of this by itself, in
every world and behind every gate (`gives_iff`, `fails_iff`). Some steps touch one bit, some replace
the set, and a configuration document replaces both the gate and the backend.
-/

namespace GatedLog

namespace BuildStep

/-- The backend that a step chooses, unless it fails. -/
def choice? : BuildStep → Option BackendSpec
  | backend spec => some spec
  | settings document =>
    match Settings.read document with
    | .ok c => some (.console c.console none)
    | .error _ => none
  | _ => none

open Environment Text.Utf8 in
/-- What a step makes of a gate. A document without a list of components sets every bit. -/
inductive Gives : BuildStep → Gate → Gate → Prop
  | backend (spec : BackendSpec) (g : Gate) : Gives (.backend spec) g g
  | level {s : Severity} {g g' : Gate} (ht : g'.threshold = s)
    (hm : ∀ i, g'.mask.has i = true ↔ g.mask.has i = true) : Gives (.level s) g g'
  | enable {k : Component} {g g' : Gate} (ht : g'.threshold = g.threshold)
    (hm : ∀ i, g'.mask.has i = true ↔ g.mask.has i = true ∨ i = k.position) : Gives (.enable k) g g'
  | disable {k : Component} {g g' : Gate} (ht : g'.threshold = g.threshold)
    (hm : ∀ i, g'.mask.has i = true ↔ g.mask.has i = true ∧ i ≠ k.position) : Gives (.disable k) g g'
  | only {ks : List Component} {g g' : Gate} (ht : g'.threshold = g.threshold)
    (hm : ∀ i, g'.mask.has i = true ↔ ∃ k ∈ ks, k.position = i) : Gives (.only ks) g g'
  | environment {level components : Option String} {g g' : Gate}
    (ht : GivesThreshold g.threshold g'.threshold level) (hm : GivesMask g.mask g'.mask components) :
    Gives (.environment level components) g g'
  | octets {level components : Option String} {g g' : Gate}
    (ht : GivesThreshold g.threshold g'.threshold level) (hm : GivesMask g.mask g'.mask components) :
    Gives (.environmentOctets (level.map encode) (components.map encode)) g g'
  | settings {document : String} {c : Settings} {g g' : Gate} (hc : Settings.read document = .ok c)
    (ht : g'.threshold = c.level)
    (hm : ∀ i, g'.mask.has i = true ↔ i < 32 ∧ ∀ ks ∈ c.components, ∃ k ∈ ks, k.position = i) :
    Gives (.settings document) g g'

open Environment Text.Utf8 in
/-- Why a step fails. -/
inductive Fails : BuildStep → BuildFault → Prop
  | environment {level components : Option String} {e : EnvironmentFault}
    (h : Blames level components e) : Fails (.environment level components) (.environment e)
  | octets {level components : Option String} {e : EnvironmentFault} (h : Blames level components e) :
    Fails (.environmentOctets (level.map encode) (components.map encode)) (.environment e)
  | levelOctets {octets : List UInt8} {other : Option (List UInt8)}
    (h : ∀ text, encode text ≠ octets) :
    Fails (.environmentOctets (some octets) other) (.environment ⟨.level, .notUnicode⟩)
  | componentsOctets {level : Option String} {octets : List UInt8}
    (h : ∀ text, encode text ≠ octets) :
    Fails (.environmentOctets (level.map encode) (some octets))
      (.environment ⟨.components, .notUnicode⟩)
  | settings {document : String} {f : Settings.Fault} (h : Settings.read document = .error f) :
    Fails (.settings document) (.settings f)

end BuildStep

namespace State

/-- The gate that a step gives to its builder. -/
def Built.gate? : Built → Option Gate
  | .chose _ _ g => some g
  | .tuned g => some g
  | .configured g => some g
  | .failed _ => none

variable {step : BuildStep} {g g' : Gate} {f : BuildFault}

theorem gate?_fromEnvironment {r : Except EnvironmentFault Gate} :
    (fromEnvironment r).gate? = some g' ↔ r = .ok g' := by
  cases r <;> simp [fromEnvironment, Built.gate?]

theorem fromEnvironment_eq_failed_iff {r : Except EnvironmentFault Gate} :
    fromEnvironment r = .failed f ↔ ∃ e, r = .error e ∧ .environment e = f := by
  cases r <;> simp [fromEnvironment]

/-- The octets of a variable are a text or not. -/
theorem octets_cases (octets : Option (List UInt8)) :
    (∃ text : Option String, octets = text.map Text.Utf8.encode) ∨
      ∃ os, octets = some os ∧ ∀ text, Text.Utf8.encode text ≠ os := by
  cases octets with
  | none => exact .inl ⟨none, rfl⟩
  | some os =>
    cases h : Text.Utf8.decode? os with
    | none => exact .inr ⟨os, rfl, Text.Utf8.decode?_eq_none_iff.mp h⟩
    | some text => exact .inl ⟨some text, by rw [Option.map_some, Text.Utf8.decode?_eq_some_iff.mp h]⟩

theorem has_gate {c : Settings} {i : Nat} :
    c.gate.mask.has i = true ↔ i < 32 ∧ ∀ ks ∈ c.components, ∃ k ∈ ks, k.position = i := by
  cases h : c.components with
  | none => simp [Settings.gate, h]
  | some ks =>
    rw [c.masks.listed ks h]
    constructor
    · rintro ⟨k, hk, rfl⟩
      exact ⟨k.position_lt, fun _ hks => Option.some.inj hks ▸ ⟨k, hk, rfl⟩⟩
    · exact fun hk => hk.2 ks rfl

theorem gives_of_gate (w : World) (h : (buildStep w g step).gate? = some g') : step.Gives g g' := by
  cases step with
  | backend spec =>
    obtain rfl := Option.some.inj h
    exact .backend spec g
  | level s =>
    obtain rfl := Option.some.inj h
    exact .level rfl fun _ => Iff.rfl
  | enable k =>
    obtain rfl := Option.some.inj h
    exact .enable rfl fun i => by simp [Gate.enable, ComponentMask.has_insert]
  | disable k =>
    obtain rfl := Option.some.inj h
    exact .disable rfl fun i => by simp [Gate.disable, ComponentMask.has_erase]
  | only ks =>
    obtain rfl := Option.some.inj h
    exact .only rfl fun i => ComponentMask.has_ofList ks i
  | environment level components =>
    obtain ⟨ht, hm⟩ := Environment.apply_eq_ok_iff.mp (gate?_fromEnvironment.mp h)
    exact .environment ht hm
  | environmentOctets level components =>
    have hok := gate?_fromEnvironment.mp h
    rcases octets_cases level with ⟨level, rfl⟩ | ⟨os, rfl, hos⟩
    · rcases octets_cases components with ⟨components, rfl⟩ | ⟨os, rfl, hos⟩
      · rw [Environment.applyOctets_encode] at hok
        obtain ⟨ht, hm⟩ := Environment.apply_eq_ok_iff.mp hok
        exact .octets ht hm
      · rw [Environment.applyOctets_of_components hos] at hok
        cases hok
    · rw [Environment.applyOctets_of_level hos] at hok
      cases hok
  | settings document =>
    cases hc : Settings.read document with
    | error f =>
      simp only [buildStep, hc] at h
      cases h
    | ok c =>
      rw [buildStep_settings hc] at h
      obtain rfl := Option.some.inj h
      exact .settings hc rfl fun i => has_gate

theorem gate_of_gives (w : World) (h : step.Gives g g') : (buildStep w g step).gate? = some g' := by
  cases h with
  | backend spec => rfl
  | level ht hm => exact congrArg some (Gate.eq_iff_has.mpr ⟨ht, hm⟩)
  | enable ht hm =>
    refine congrArg some (Gate.eq_iff_has.mpr ⟨ht, fun i => (hm i).trans ?_⟩)
    simp [Gate.enable, ComponentMask.has_insert]
  | disable ht hm =>
    refine congrArg some (Gate.eq_iff_has.mpr ⟨ht, fun i => (hm i).trans ?_⟩)
    simp [Gate.disable, ComponentMask.has_erase]
  | only ht hm =>
    exact congrArg some (Gate.eq_iff_has.mpr
      ⟨ht, fun i => (hm i).trans (ComponentMask.has_ofList _ i).symm⟩)
  | environment ht hm => exact gate?_fromEnvironment.mpr (Environment.apply_eq_ok_iff.mpr ⟨ht, hm⟩)
  | octets ht hm =>
    refine gate?_fromEnvironment.mpr ?_
    rw [Environment.applyOctets_encode]
    exact Environment.apply_eq_ok_iff.mpr ⟨ht, hm⟩
  | settings hc ht hm =>
    rw [buildStep_settings hc]
    exact congrArg some (Gate.eq_iff_has.mpr ⟨ht, fun i => (hm i).trans has_gate.symm⟩)

theorem fails_of_failed {w : World} (h : buildStep w g step = .failed f) : step.Fails f := by
  cases step with
  | environment level components =>
    obtain ⟨e, he, rfl⟩ := fromEnvironment_eq_failed_iff.mp h
    exact .environment (Environment.apply_eq_error_iff.mp he)
  | environmentOctets level components =>
    obtain ⟨e, he, rfl⟩ := fromEnvironment_eq_failed_iff.mp h
    rcases octets_cases level with ⟨level, rfl⟩ | ⟨os, rfl, hos⟩
    · rcases octets_cases components with ⟨components, rfl⟩ | ⟨os, rfl, hos⟩
      · rw [Environment.applyOctets_encode] at he
        exact .octets (Environment.apply_eq_error_iff.mp he)
      · rw [Environment.applyOctets_of_components hos] at he
        obtain rfl := Except.error.inj he
        exact .componentsOctets hos
    · rw [Environment.applyOctets_of_level hos] at he
      obtain rfl := Except.error.inj he
      exact .levelOctets hos
  | settings document =>
    cases hc : Settings.read document with
    | error e =>
      simp only [buildStep, hc] at h
      obtain rfl := Built.failed.inj h
      exact .settings hc
    | ok c =>
      rw [buildStep_settings hc] at h
      cases h
  | _ => cases h

theorem failed_of_fails (w : World) (g : Gate) (h : step.Fails f) :
    buildStep w g step = .failed f := by
  cases h with
  | environment h =>
    exact fromEnvironment_eq_failed_iff.mpr ⟨_, Environment.apply_eq_error_iff.mpr h, rfl⟩
  | octets h =>
    refine fromEnvironment_eq_failed_iff.mpr ⟨_, ?_, rfl⟩
    rw [Environment.applyOctets_encode]
    exact Environment.apply_eq_error_iff.mpr h
  | levelOctets h =>
    exact fromEnvironment_eq_failed_iff.mpr ⟨_, Environment.applyOctets_of_level h g _, rfl⟩
  | componentsOctets h =>
    exact fromEnvironment_eq_failed_iff.mpr ⟨_, Environment.applyOctets_of_components h g _, rfl⟩
  | settings h => simp only [buildStep, h]

/-- A step that gives a gate does not fail. -/
theorem not_fails_of_gives (h : step.Gives g g') : ¬ step.Fails f := fun hf => by
  have hgate := gate_of_gives (World.initial .epoch) h
  rw [failed_of_fails (World.initial .epoch) g hf] at hgate
  cases hgate

theorem buildStep_of_choice {spec : BackendSpec} (h : step.choice? = some spec) (w : World)
    (g : Gate) : ∃ g', buildStep w g step = .chose (w.make spec).2 (w.make spec).1 g' := by
  cases step with
  | backend spec' =>
    obtain rfl := Option.some.inj h
    exact ⟨g, rfl⟩
  | settings document =>
    simp only [BuildStep.choice?] at h
    split at h
    · next c hc =>
      obtain rfl := Option.some.inj h
      exact ⟨c.gate, by simp only [buildStep, hc]⟩
    · cases h
  | _ => cases h

theorem buildStep_of_no_choice (h : step.choice? = none) (w v : World) (g g' : Gate) (b : Backend) :
    buildStep w g step ≠ .chose v b g' := by
  intro hchose
  have environment : ∀ r, fromEnvironment r ≠ .chose v b g' := fun r hr => by
    cases r <;> cases hr
  cases step with
  | backend spec => cases h
  | environment level components => exact environment _ hchose
  | environmentOctets level components => exact environment _ hchose
  | settings document =>
    simp only [BuildStep.choice?] at h
    split at h
    · cases h
    · next f hf =>
      simp only [buildStep, hf] at hchose
      cases hchose
  | _ => cases hchose

/-- What a step comes to: a fault, or a gate, and with it perhaps a backend that has been made. -/
theorem buildStep_cases (w : World) (g : Gate) (step : BuildStep) :
    (∃ f, step.Fails f ∧ buildStep w g step = .failed f) ∨ ∃ g', step.Gives g g' ∧
      ((∃ spec, step.choice? = some spec ∧
          buildStep w g step = .chose (w.make spec).2 (w.make spec).1 g') ∨
        step.choice? = none ∧
          (buildStep w g step = .tuned g' ∨ buildStep w g step = .configured g')) := by
  cases hchoice : step.choice? with
  | some spec =>
    obtain ⟨g', h⟩ := buildStep_of_choice hchoice w g
    exact .inr ⟨g', gives_of_gate w (by rw [h]; rfl), .inl ⟨spec, rfl, h⟩⟩
  | none =>
    cases h : buildStep w g step with
    | chose v b g' => exact absurd h (buildStep_of_no_choice hchoice w v g g' b)
    | tuned g' => exact .inr ⟨g', gives_of_gate w (by rw [h]; rfl), .inr ⟨rfl, .inl rfl⟩⟩
    | configured g' => exact .inr ⟨g', gives_of_gate w (by rw [h]; rfl), .inr ⟨rfl, .inr rfl⟩⟩
    | failed f => exact .inl ⟨f, fails_of_failed h, rfl⟩

end State

end GatedLog
