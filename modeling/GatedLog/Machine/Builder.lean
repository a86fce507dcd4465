import GatedLog.Machine.State

/-!
# Builders

A builder folds its steps over the unrestricted gate and keeps the backend that was chosen last. A
backend chosen before is destroyed as soon as another is chosen, or when a step fails; then nothing
is built.
-/

namespace GatedLog.State

/-- What a step of a builder comes to. -/
inductive Built where
  | chose (w : World) (b : Backend) (g : Gate)
  | tuned (g : Gate)
  /-- The gate comes from the environment, which is worth an event. -/
  | configured (g : Gate)
  | failed (f : BuildFault)

/-- The gate from the environment. -/
def fromEnvironment : Except EnvironmentFault Gate → Built
  | .ok g => .configured g
  | .error e => .failed (.environment e)

/-- Does a step of a builder. -/
def buildStep (w : World) (g : Gate) : BuildStep → Built
  | .backend spec => .chose (w.make spec).2 (w.make spec).1 g
  | .level s => .tuned (g.setThreshold s)
  | .enable c => .tuned (g.enable c)
  | .disable c => .tuned (g.disable c)
  | .only cs => .tuned (g.setMask (ComponentMask.ofList cs))
  | .environment level components => fromEnvironment (Environment.apply g level components)
  | .environmentOctets level components =>
    fromEnvironment (Environment.applyOctets g level components)
  | .settings document =>
    match Settings.read document with
    | .ok settings =>
      .chose (w.make (.console settings.console none)).2 (w.make (.console settings.console none)).1
        settings.gate
    | .error f => .failed (.settings f)

/-- The backend of a builder: a console, if no step chose one. -/
def chosenBackend (w : World) : Option Backend → Backend × World
  | some b => (b, w)
  | none => w.make (.console {} none)

/-- Puts the backend of a builder where it belongs. -/
def place (s : State) (g : Gate) (gates : List Gate) (b : Backend) : Target → State
  | .create ctx => (s.withWorld (s.world.addContext ctx (some ⟨g, b⟩))).respond (.steps gates none)
  | .install c => s.push [.swap c (some ⟨g, b⟩), .respond (.steps gates none)]

/-- Does the next step of a builder, or puts its backend in place when there is none. -/
def build (s : State) (chosen : Option Backend) (g : Gate) (gates : List Gate) (target : Target) :
    List BuildStep → Outcome
  | [] =>
    ((s.withWorld (chosenBackend s.world chosen).2).place g gates (chosenBackend s.world chosen).1
      target).quietly
  | step :: steps =>
    match buildStep s.world g step with
    | .chose w b g =>
      ((s.withWorld w).push
        (destroying chosen ++ [.build steps (some b) g (gates ++ [g]) target])).quietly
    | .tuned g => (s.push [.build steps chosen g (gates ++ [g]) target]).quietly
    | .configured g =>
      (s.push [.build steps chosen g (gates ++ [g]) target], [.emitted (.configured g)])
    | .failed f => (s.push (destroying chosen ++ [.respond (.steps gates (some f))])).quietly

end GatedLog.State
