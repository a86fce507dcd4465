import GatedLog.Machine.Begin

/-!
# Steps and runs

A step takes the first task off the agenda and performs it. A panic unwinds the agenda to the end of
the program's operation: backends that are running are left, threads end, and a backend that a
builder had chosen is destroyed; a second panic meanwhile ends the run. A run collects what happens
in its steps.
-/

namespace GatedLog

/-- Operations, and the time at which they run. -/
structure Program where
  ops : List Op
  clock : Clock := .epoch

namespace State

/-- Performs a task that has been taken off the agenda. -/
def perform (s : State) : Task → Outcome
  | .program [] => s.quietly
  | .program (o :: os) => (s.push [.begin o, .report, .program os]).quietly
  | .report => (s, [.answered s.answer])
  | .script [] => s.quietly
  | .script (o :: os) => (s.push [.begin o, .note, .script os]).quietly
  | .note => (s, [.noted s.answer])
  | .collect [] answers => (s.respond (.list answers.reverse)).quietly
  | .collect (o :: os) answers => (s.push [.begin o, .gather os answers]).quietly
  | .gather os answers => (s.push [.collect os (s.answer :: answers)]).quietly
  | .begin o => s.begin o
  | .respond a => (s.respond a).quietly
  | .drop m => s.drop m
  | .write c m => s.write c m
  | .flush c => s.flush c
  | .leave c counted => (s.withWorld (s.world.leave c counted)).quietly
  | .unlock c => (s.withWorld (s.world.setLock c false)).quietly
  | .swap c next => s.swap c next
  | .destroy b => s.destroy b
  | .emit e => (s, [.emitted e])
  | .build steps chosen g gates target => s.build chosen g gates target steps
  | .forward b m =>
    ((s.withWorld (s.world.receive m b.kind).world).push [.script (s.world.receive m b.kind).ops],
      (s.world.receive m b.kind).happenings)
  | .fork ops =>
    ((s.enlist.withWorld s.world.startThread).push [.collect ops [], .join s.world.thread]).quietly
  | .crew c sev k thread count =>
    ((s.enlist.withWorld s.world.startThread).push
      [.numbered c sev k thread 0 count, .join s.world.thread]).quietly
  | .numbered _ _ _ _ _ 0 => s.quietly
  | .numbered c sev k thread first (count + 1) => s.logNumbered c sev k thread first count
  | .forkExit ops exit =>
    ((s.enlist.withWorld s.world.startThread).push
      [.collect ops [], .exit exit, .join s.world.thread]).quietly
  | .exit ops =>
    match s.answer with
    | .list alive => ((s.withWorld s.departing).push [.collect ops [], .pair alive]).quietly
    | _ => s.quietly
  | .pair alive =>
    match s.answer with
    | .list exit => (s.respond (.exited alive exit)).quietly
    | _ => s.quietly
  | .join waiting => (s.discharge.withWorld (s.world.resumeThread waiting)).quietly
  | .resume text => ({ s with condition := .unwinding text }, [])

/-- The backend that a task owns. -/
def owned : Task → Option Backend
  | .swap _ next => next.map (·.backend)
  | .destroy b => some b
  | .build _ chosen _ _ _ => chosen
  | _ => none

/-- Destroys the backend of a task that is given up, and goes on unwinding after that. -/
def giveUp (s : State) (text : String) : Option Backend → Outcome
  | none => s.quietly
  | some b => ({ s.push [.destroy b, .resume text] with condition := .running }, [])

/-- Gives up a task that has been taken off the agenda, in the course of unwinding. -/
def unwind (s : State) (text : String) : Task → Outcome
  | .leave c counted => (s.withWorld (s.world.leave c counted)).quietly
  | .unlock c => (s.withWorld (s.world.setLock c false)).quietly
  | .join waiting => (s.discharge.withWorld (s.world.resumeThread waiting)).quietly
  | .report => ({ s with condition := .running }, [.answered (.panicked text)])
  | .resume _ => ({ s with condition := .aborted }, [])
  | t => s.giveUp text (owned t)

/-- One step of the machine. -/
def step (s : State) : Outcome :=
  match s.condition, s.agenda with
  | .running, t :: ts => { s with agenda := ts }.perform t
  | .unwinding text, t :: ts => { s with agenda := ts }.unwind text t
  | _, _ => s.quietly

/-- Whether no step will change the state. -/
def halted (s : State) : Bool :=
  match s.condition, s.agenda with
  | .running, _ :: _ => false
  | .unwinding _, _ :: _ => false
  | _, _ => true

/-- Runs the machine for at most so many steps, after some happenings, the latest first. -/
def runAfter : Nat → List Happening → State → Outcome
  | 0, hs, s => (s, hs.reverse)
  | n + 1, hs, s => if s.halted then (s, hs.reverse) else runAfter n (s.step.2.reverse ++ hs) s.step.1

/-- Runs the machine for at most so many steps. -/
def run (n : Nat) (s : State) : Outcome := runAfter n [] s

/-- The state in front of a program. -/
def start (program : Program) : State :=
  { world := World.initial program.clock, agenda := [.program program.ops] }

theorem halted_of_agenda {s : State} (h : s.agenda = []) : s.halted = true := by
  unfold halted
  rw [h]
  cases s.condition <;> rfl

theorem halted_of_condition {s : State} (h : s.condition = .blocked ∨ s.condition = .aborted) :
    s.halted = true := by
  unfold halted
  rcases h with hc | hc <;> rw [hc]

theorem step_of_halted {s : State} (h : s.halted = true) : s.step = (s, []) := by
  unfold halted at h
  unfold step
  split at h <;> simp_all [quietly]

theorem runAfter_eq (n : Nat) (hs : List Happening) (s : State) :
    runAfter n hs s = ((run n s).1, hs.reverse ++ (run n s).2) := by
  unfold run
  induction n generalizing hs s with
  | zero => simp [runAfter]
  | succ n ih =>
    unfold runAfter
    by_cases h : s.halted = true
    · simp [h]
    · simp only [h, Bool.false_eq_true, if_false]
      rw [ih, ih (s.step.2.reverse ++ [])]
      simp

@[simp] theorem run_zero (s : State) : run 0 s = (s, []) := rfl

theorem run_of_halted {s : State} (h : s.halted = true) (n : Nat) : run n s = (s, []) := by
  cases n <;> simp [run, runAfter, h]

theorem run_succ (n : Nat) (s : State) :
    run (n + 1) s = ((run n s.step.1).1, s.step.2 ++ (run n s.step.1).2) := by
  by_cases h : s.halted = true
  · rw [step_of_halted h, run_of_halted h n]
    simp [run, runAfter, h]
  · rw [run, runAfter]
    simp only [h, Bool.false_eq_true, if_false]
    rw [runAfter_eq]
    simp

theorem run_add (m n : Nat) (s : State) :
    run (m + n) s = ((run n (run m s).1).1, (run m s).2 ++ (run n (run m s).1).2) := by
  induction m generalizing s with
  | zero => simp
  | succ m ih =>
    rw [Nat.add_right_comm, run_succ, ih, run_succ]
    simp

end State

end GatedLog
