import GatedLog.Machine.Builder

/-!
# The beginning of operations

An operation either is done at once, with its answer, or replaces itself by tasks of which the last
gives the answer.
-/

namespace GatedLog.State

/-- Answers for a context when its backend has run the given operations. It is locked meanwhile, but
does not count among the contexts that the thread is running. -/
def asking (s : State) (c : ContextId) (a : Answer) : List Op → Outcome
  | [] => (s.respond a).quietly
  | o :: os =>
    ((s.withWorld (s.world.setLock c true)).push
      [.script (o :: os), .unlock c, .respond a]).quietly

/-- Looks at a context or adjusts its gate, and answers. -/
def onContext (s : State) (c : ContextId) (o : ContextOp) (answer : Answer → Answer) : Outcome :=
  s.accessing c
    ((s.withWorld (s.world.applyContext c o).1).asking c (answer (s.world.applyContext c o).2)
      (s.world.asked c o))
    ((s.withWorld (s.world.applyContext c o).1).respond
      (answer (s.world.applyContext c o).2)).quietly

/-- Adjusts the global context by a code, or rejects the code. -/
def byCode (s : State) (function : String) : Except Rejection ContextOp → Outcome
  | .error why => (s.respond (.status 1), [.emitted (.callRejected function why)])
  | .ok o => s.onContext World.global o fun _ => .status 0

/-- Makes a context around a backend that has just been made. -/
def creating (s : State) (ctx : String) (made : Backend × World) (g : Gate) : Outcome :=
  ((s.withWorld (made.2.addContext ctx (some ⟨g, made.1⟩))).respond .nothing).quietly

/-- Installs a backend that has just been made. -/
def installing (s : State) (c : ContextId) (made : Backend × World) (g : Gate) : Outcome :=
  ((s.withWorld made.2).push [.swap c (some ⟨g, made.1⟩), .respond .nothing]).quietly

/-- What happens when values are added to a message. -/
def additions (m : Message) (parts : List Part) : List Happening :=
  .added m.serial parts :: (m.rendered parts).map (Happening.rendered m.serial)

/-- Makes a message with some values and goes on with it. -/
def making (s : State) (c : ContextId) (sev : Severity) (k : Component) (parts : List Part)
    (next : State → Message → State) : Outcome :=
  let m := s.world.newMessage c sev k
  let made := (next (s.withWorld s.world.countMessage) (m.appendAll parts),
    .made m :: additions m parts)
  s.accessing c made made

/-- Adds values to an open message. -/
def adding (s : State) (id : String) (parts : List Part) (m : Message) : Outcome :=
  ((s.withWorld (s.world.hold id (m.appendAll parts))).respond (.message (m.appendAll parts)),
    additions m parts)

/-- Does something with an open message, if there is one of that name. -/
def withHeld (s : State) (id : String) (next : Message → Outcome) : Outcome :=
  match s.world.held.get? id with
  | none => (s.respond .nothing).quietly
  | some m => next m

/-- Does something with a forwarding backend, if there is one of that name. -/
def withForwarder (s : State) (id : String) (next : Backend → Outcome) : Outcome :=
  match s.world.forwarders.get? id with
  | none => (s.respond .nothing).quietly
  | some b => next b

/-- Logs the number of a thread and that of the message, and goes on to the next number. -/
def logNumbered (s : State) (c : ContextId) (sev : Severity) (k : Component) (thread number : Nat)
    (rest : Nat) : Outcome :=
  s.making c sev k [.integer thread, .char ':', .integer number] fun s m =>
    s.push [.drop m, .numbered c sev k thread (number + 1) rest]

/-- The tasks of several threads, one after the other. -/
def crews (c : ContextId) (threads each : Nat) (sev : Severity) (k : Component) : List Task :=
  (List.range threads).map fun t => .crew c sev k t each

/-- Begins an operation. -/
def begin (s : State) : Op → Outcome
  | .onContext ctx o => s.onContext (s.world.lookUp ctx) o id
  | .onStore o =>
    ((s.withWorld (s.world.applyStore o).1).respond (s.world.applyStore o).2).quietly
  | .create ctx none _ => ((s.withWorld (s.world.addContext ctx none)).respond .nothing).quietly
  | .create ctx (some spec) g => s.creating ctx (s.world.make spec) g
  | .build ctx steps => (s.push [.build steps none Gate.unrestricted [] (.create ctx)]).quietly
  | .buildInto ctx steps =>
    (s.push [.build steps none Gate.unrestricted [] (.install (s.world.lookUp ctx))]).quietly
  | .install ctx spec g => s.installing (s.world.lookUp ctx) (s.world.make spec) g
  | .remove ctx => (s.push [.swap (s.world.lookUp ctx) none, .respond .nothing]).quietly
  | .flush ctx => (s.push [.flush (s.world.lookUp ctx), .respond .nothing]).quietly
  | .log ctx sev k parts =>
    s.making (s.world.lookUp ctx) sev k parts fun s m =>
      s.push [.drop m, .respond (.statement m.worth m.text)]
  | .hold id ctx sev k parts =>
    s.making (s.world.lookUp ctx) sev k parts fun s m =>
      (s.withWorld (s.world.hold id m)).push
        (((s.world.held.get? id).map Task.drop).toList ++ [.respond (.message m)])
  | .add id parts => s.withHeld id fun m => s.adding id parts m
  | .write ctx id =>
    s.withHeld id fun m => (s.push [.write (s.world.lookUp ctx) m, .respond .nothing]).quietly
  | .finish id =>
    s.withHeld id fun m =>
      ((s.withWorld { s.world with held := s.world.held.erase id }).push
        [.drop m, .respond .nothing]).quietly
  | .logLabelled ctx sev k label n =>
    s.making (s.world.lookUp ctx) sev k [.labelled label n] fun s m =>
      s.push [.drop m, .respond (.evaluated (m.rendered [.labelled label n]).length)]
  | .setFunction hook =>
    s.installing World.global (s.world.make (.forwarding hook)) Gate.unrestricted
  | .enableCode code =>
    s.byCode "hdfsEnableLoggingForComponent" ((Component.ofCode code).map ContextOp.enable)
  | .disableCode code =>
    s.byCode "hdfsDisableLoggingForComponent" ((Component.ofCode code).map ContextOp.disable)
  | .levelCode code => s.byCode "hdfsSetLoggingLevel" ((Severity.ofCode code).map ContextOp.setThreshold)
  | .setCallerScript ops => ((s.withWorld { s.world with callerScript := ops }).respond .nothing).quietly
  | .forward id message =>
    s.withForwarder id fun b =>
      s.withHeld message fun m => (s.push [.forward b m, .respond .nothing]).quietly
  | .installForwarder id ctx =>
    s.withForwarder id fun b =>
      s.installing (s.world.lookUp ctx)
        (b, { s.world with forwarders := s.world.forwarders.erase id }) Gate.unrestricted
  | .thread ops => (s.push [.fork ops]).quietly
  | .threadExit ops exit => (s.push [.forkExit ops exit]).quietly
  | .parallel ctx threads each sev k =>
    (s.push (crews (s.world.lookUp ctx) threads each sev k ++ [.respond .nothing])).quietly
  | .panic text => ({ s with condition := .unwinding ("backend panic: " ++ text) }, [])

end GatedLog.State
