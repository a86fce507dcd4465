import GatedLog.Proofs.Machine.Moves

/-!
# What happens in most steps

Most tasks have nothing to tell but commonplaces: a message is made or added to, a backend is flushed
or destroyed, an operation has ended, or the environment has configured a gate. The others are few
(`Task.isCommon`): they hand a message to a backend, bring news, or call by a code. So whatever is
true of commonplaces is true of all that happens in a step, unless it performs one of these few
(`step_only`).
-/

namespace GatedLog

/-- Whether the operation addresses the global context by a code. -/
def Op.isByCode : Op → Bool
  | enableCode _ => true
  | disableCode _ => true
  | levelCode _ => true
  | _ => false

/-- Whether the task neither hands a message to a backend nor brings news nor calls by a code. -/
def Task.isCommon : Task → Bool
  | drop _ => false
  | write _ _ => false
  | forward _ _ => false
  | emit _ => false
  | «begin» o => !o.isByCode
  | _ => true

/-- What may always happen. -/
structure Commonplace (P : Happening → Prop) : Prop where
  made (m : Message) : P (.made m)
  added (k : Nat) (ps : List Part) : P (.added k ps)
  rendered (k : Nat) (p : Part) : P (.rendered k p)
  configured (g : Gate) : P (.emitted (.configured g))
  flushed (c : ContextId) (b : Backend) : P (.flushed c b)
  bufferFlushed (id : String) : P (.bufferFlushed id)
  destroyed (b : Backend) : P (.destroyed b)
  noted (a : Answer) : P (.noted a)
  answered (a : Answer) : P (.answered a)

namespace State

/-- All that happens in a step is of a kind. -/
def Only (P : Happening → Prop) (o : Outcome) : Prop := ∀ e ∈ o.2, P e

variable {P : Happening → Prop} {s : State}

namespace Only

theorem quietly (s : State) : Only P s.quietly := fun _ he => absurd he List.not_mem_nil

theorem telling {e : Happening} (he : P e) : Only P (s, [e]) := List.forall_mem_singleton.mpr he

theorem accessing {c : ContextId} {granted refused : Outcome} (hg : Only P granted)
    (hr : Only P refused) : Only P (s.accessing c granted refused) := by
  unfold State.accessing
  cases s.world.access c with
  | granted => exact hg
  | refused => exact hr
  | blocked => exact quietly { s with condition := .blocked }

theorem withHeld (id : String) {next : Message → Outcome} (h : ∀ m, Only P (next m)) :
    Only P (s.withHeld id next) := by
  unfold State.withHeld
  cases s.world.held.get? id with
  | none => exact quietly _
  | some m => exact h m

theorem withForwarder (id : String) {next : Backend → Outcome} (h : ∀ b, Only P (next b)) :
    Only P (s.withForwarder id next) := by
  unfold State.withForwarder
  cases s.world.forwarders.get? id with
  | none => exact quietly _
  | some b => exact h b

theorem onContext (c : ContextId) (o : ContextOp) (answer : Answer → Answer) :
    Only P (s.onContext c o answer) := by
  refine accessing ?_ (quietly _)
  cases s.world.asked c o <;> exact quietly _

theorem additions (hP : Commonplace P) (m : Message) (parts : List Part) :
    ∀ e ∈ State.additions m parts, P e := by
  intro e he
  rcases mem_additions he with rfl | ⟨p, rfl⟩
  · exact hP.added _ _
  · exact hP.rendered _ p

theorem making (hP : Commonplace P) (c : ContextId) (sev : Severity) (k : Component)
    (parts : List Part) (next : State → Message → State) :
    Only P (s.making c sev k parts next) := by
  have hmade : ∀ e ∈ .made (s.world.newMessage c sev k) ::
      State.additions (s.world.newMessage c sev k) parts, P e :=
    List.forall_mem_cons.mpr ⟨hP.made _, additions hP _ parts⟩
  exact accessing hmade hmade

end Only

/-- Operations begin with commonplaces. -/
theorem begin_only (hP : Commonplace P) (s : State) {o : Op} (ho : o.isByCode = false) :
    Only P (s.begin o) := by
  cases o with
  | onContext ctx o => exact .onContext _ o id
  | create ctx spec g => cases spec <;> exact .quietly _
  | log ctx sev k parts => exact .making hP _ sev k parts _
  | hold id ctx sev k parts => exact .making hP _ sev k parts _
  | add id parts => exact .withHeld id fun m => Only.additions hP m parts
  | write ctx id => exact .withHeld id fun m => .quietly _
  | finish id => exact .withHeld id fun m => .quietly _
  | logLabelled ctx sev k label n => exact .making hP _ sev k _ _
  | enableCode code => cases ho
  | disableCode code => cases ho
  | levelCode code => cases ho
  | forward id message =>
    exact .withForwarder id fun b => .withHeld message fun m => .quietly _
  | installForwarder id ctx => exact .withForwarder id fun b => .quietly _
  | _ => exact Only.quietly _

theorem build_only (hP : Commonplace P) (s : State) (chosen : Option Backend) (g : Gate)
    (gates : List Gate) (target : Target) (steps : List BuildStep) :
    Only P (s.build chosen g gates target steps) := by
  cases steps with
  | nil => exact .quietly _
  | cons step steps =>
    simp only [State.build]
    split
    · exact .quietly _
    · exact .quietly _
    · exact .telling (hP.configured _)
    · exact .quietly _

theorem flush_only (hP : Commonplace P) (s : State) (c : ContextId) : Only P (s.flush c) := by
  refine .accessing ?_ (.quietly _)
  cases s.world.installed c with
  | none => exact .quietly _
  | some i =>
    refine List.forall_mem_cons.mpr ⟨hP.flushed c i.backend, fun e he => ?_⟩
    unfold World.flushed at he
    split at he
    · cases he
    · obtain rfl := List.mem_singleton.mp he
      exact hP.bufferFlushed _
    · cases he

theorem unwind_only (hP : Commonplace P) (s : State) (text : String) (t : Task) :
    Only P (s.unwind text t) := by
  have hgive : ∀ b, Only P (s.giveUp text b) := fun b => by
    cases b <;> exact Only.quietly _
  cases t with
  | leave c counted => exact .quietly _
  | unlock c => exact .quietly _
  | join waiting => exact .quietly _
  | report => exact .telling (hP.answered _)
  | resume text' => exact .quietly _
  | _ => exact hgive _

theorem perform_only (hP : Commonplace P) (s : State) {t : Task} (ht : t.isCommon = true) :
    Only P (s.perform t) := by
  cases t with
  | program ops => cases ops <;> exact .quietly _
  | report => exact .telling (hP.answered _)
  | script ops => cases ops <;> exact .quietly _
  | note => exact .telling (hP.noted _)
  | collect ops answers => cases ops <;> exact .quietly _
  | «begin» o => exact begin_only hP s (by simpa [Task.isCommon] using ht)
  | drop m => cases ht
  | write c m => cases ht
  | flush c => exact flush_only hP s c
  | swap c next => exact .accessing (.quietly _) (.quietly _)
  | destroy b => exact .telling (hP.destroyed b)
  | emit e => cases ht
  | build steps chosen g gates target => exact build_only hP s chosen g gates target steps
  | forward b m => cases ht
  | numbered c sev k thread first count =>
    cases count with
    | zero => exact .quietly _
    | succ rest => exact .making hP c sev k _ _
  | exit ops =>
    simp only [perform]
    split <;> exact .quietly _
  | pair alive =>
    simp only [perform]
    split <;> exact .quietly _
  | _ => exact Only.quietly _

/-- What is handed to a backend of the library is told outside at most. -/
theorem write_only (hd : ∀ c b m, P (.delivered c b m)) (ho : ∀ e, e.isOutward = true → P e)
    (s : State) (c : ContextId) (m : Message) : Only P (s.write c m) := by
  refine .accessing ?_ (.quietly _)
  cases s.world.installed c with
  | none => exact .quietly _
  | some i =>
    have houtward := (s.world.enter c).outward_receive m i.backend.kind
    exact List.forall_mem_cons.mpr ⟨hd c i.backend m, fun e he => ho e (houtward.happenings e he)⟩

theorem drop_only (hx : ∀ m, P (.dropped m)) (hd : ∀ c b m, P (.delivered c b m))
    (ho : ∀ e, e.isOutward = true → P e) (s : State) (m : Message) : Only P (s.drop m) := by
  refine List.forall_mem_cons.mpr ⟨hx m, ?_⟩
  cases m.worth with
  | false => exact Only.quietly s
  | true => exact write_only hd ho s m.context m

/-- A step in which anything else happens performs one of the few other tasks. -/
theorem step_only (hP : Commonplace P) (s : State) : Only P s.step ∨
    ∃ t ts, s.condition = .running ∧ s.agenda = t :: ts ∧ t.isCommon = false := by
  unfold step
  split
  · next t ts hr ha =>
    cases ht : t.isCommon with
    | true => exact .inl (perform_only hP _ ht)
    | false => exact .inr ⟨t, ts, hr, ha, ht⟩
  · exact .inl (unwind_only hP _ _ _)
  · exact .inl (.quietly s)

end State

end GatedLog
