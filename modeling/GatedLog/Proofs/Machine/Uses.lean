import Mathlib.Data.Set.Basic
import GatedLog.Machine.Step

/-!
# What operations use

An operation addresses contexts, open messages, handles, buffers and the like by name. `Op.uses` lists
what it addresses in a world, and `used` collects this over a whole run: the operations of threads,
callbacks and destructors count when they begin. A name that no context was given stands for the
global context. Consoles look at their surroundings, which are the colors of the terminal and the
numbers of the threads, and only few operations change those.
-/

namespace GatedLog

/-- Something that operations may share. -/
inductive Resource where
  | context (ctx : ContextName)
  | message (id : String)
  | handle (name : String)
  | buffer (id : String)
  /-- A callback with what it keeps: copies of records, or operations of its own. -/
  | hook (hook : Hook)
  | record (id : String)
  | forwarder (id : String)
  | surroundings
  deriving DecidableEq, Repr

/-- How a resource is used. -/
inductive Manner where
  | look
  /-- Something is added that only those notice who look. -/
  | add
  | change
  deriving DecidableEq, Repr

/-- Two looks do not get in each other's way, and neither do two additions. -/
def Manner.conflicts : Manner → Manner → Bool
  | look, look => false
  | add, add => false
  | _, _ => true

/-- The use of a resource. -/
structure Use where
  resource : Resource
  manner : Manner := .change
  deriving DecidableEq, Repr

namespace Use

/-- Both are uses of the same resource, and one of them gets in the way of the other. -/
def conflicts (u v : Use) : Bool := u.resource == v.resource && u.manner.conflicts v.manner

/-- A look at the surroundings. -/
def look : Use := ⟨.surroundings, .look⟩

/-- A thread is added to the surroundings. -/
def fork : Use := ⟨.surroundings, .add⟩

end Use

/-- Whether a callback that keeps copies may give a record the name. -/
def isCopyName (id : String) : Bool :=
  match id.toList with
  | 'k' :: ds => (Text.readDigits ds).isSome
  | _ => false

/-- The resource that a record belongs to: the copies are those of the callback that keeps them. -/
def Resource.ofRecord (id : String) : Resource :=
  if isCopyName id then .hook .keeper else .record id

theorem Resource.ofRecord_copyName (n : Nat) :
    Resource.ofRecord (World.copyName n) = .hook .keeper := by
  have hname : (World.copyName n).toList = 'k' :: Text.decimalNat n := by
    simp [World.copyName]
  rw [Resource.ofRecord, isCopyName, hname]
  simp [Text.readDigits_decimalNat]

/-- What a backend uses when it is made or when it is at work. -/
def BackendSpec.uses : BackendSpec → List Use
  | .memory (some name) _ => [⟨.handle name, .change⟩]
  | .memory none name => (name.map fun n => ⟨.handle n, .change⟩).toList
  | .forwarding hook => (hook.map fun h => ⟨.hook h, .change⟩).toList
  | .tracing => []
  | .console _ buffer => .look :: (buffer.map fun id => ⟨.buffer id, .change⟩).toList
  | .custom _ _ _ _ _ => []

/-- What a step of a builder uses. -/
def BuildStep.uses : BuildStep → List Use
  | .backend spec => spec.uses
  | .settings _ => [.look]
  | _ => []

/-- What a builder uses; without a step that chooses a backend it makes a console. -/
def buildUses (steps : List BuildStep) : List Use := .look :: steps.flatMap BuildStep.uses

/-- What is used of what lies around the contexts. -/
def StoreOp.uses : StoreOp → List Use
  | .inspect id => [⟨.message id, .change⟩]
  | .describe id => [⟨.message id, .change⟩]
  | .records name => [⟨.handle name, .change⟩]
  | .take name => [⟨.handle name, .change⟩]
  | .clear name => [⟨.handle name, .change⟩]
  | .counts name => [⟨.handle name, .change⟩]
  | .drain id => [⟨.buffer id, .change⟩]
  | .setWriter id _ _ _ => [⟨.buffer id, .change⟩]
  | .setColors _ => [⟨.surroundings, .change⟩]
  | .newRecord id _ _ _ => [⟨.ofRecord id, .change⟩]
  | .copyRecord id source =>
    ⟨.ofRecord id, .change⟩ :: (source.map fun i => ⟨.ofRecord i, .change⟩).toList
  | .readRecord id => [⟨.ofRecord id, .change⟩]
  | .freeRecord id => (id.map fun i => ⟨.ofRecord i, .change⟩).toList
  | .newForwarder id hook => ⟨.forwarder id, .change⟩ :: (BackendSpec.forwarding hook).uses
  | .setForwarder id hook => ⟨.forwarder id, .change⟩ :: (BackendSpec.forwarding hook).uses

/-- What is used of a context: the global one too if the name stands for it, and what the console
looks at that it has from the beginning. -/
def World.contextUses (w : World) (ctx : ContextName) : List Use :=
  ⟨.context ctx, .change⟩ ::
    if w.lookUp ctx = World.global then [⟨.context .global, .change⟩, .look] else []

/-- What an operation uses in a world. The operations of a thread or of a backend count when they
begin themselves. -/
def Op.uses (w : World) : Op → List Use
  | .onContext ctx _ => w.contextUses ctx
  | .onStore o => o.uses
  | .create ctx none _ => [⟨.context (.named ctx), .change⟩]
  | .create ctx (some spec) _ => ⟨.context (.named ctx), .change⟩ :: spec.uses
  | .build ctx steps => ⟨.context (.named ctx), .change⟩ :: buildUses steps
  | .buildInto ctx steps => w.contextUses ctx ++ buildUses steps
  | .install ctx spec _ => w.contextUses ctx ++ spec.uses
  | .remove ctx => w.contextUses ctx
  | .flush ctx => w.contextUses ctx
  | .log ctx _ _ _ => w.contextUses ctx
  | .hold id ctx _ _ _ => ⟨.message id, .change⟩ :: w.contextUses ctx
  | .add id _ => [⟨.message id, .change⟩]
  | .write ctx id => ⟨.message id, .change⟩ :: w.contextUses ctx
  | .finish id => [⟨.message id, .change⟩]
  | .logLabelled ctx _ _ _ _ => w.contextUses ctx
  | .setFunction hook => w.contextUses .global ++ (BackendSpec.forwarding hook).uses
  | .enableCode _ => w.contextUses .global
  | .disableCode _ => w.contextUses .global
  | .levelCode _ => w.contextUses .global
  | .setCallerScript _ => [⟨.hook .caller, .change⟩]
  | .forward id message => [⟨.forwarder id, .change⟩, ⟨.message message, .change⟩]
  | .installForwarder id ctx => ⟨.forwarder id, .change⟩ :: w.contextUses ctx
  | .thread _ => [.fork]
  | .threadExit _ _ => [.fork]
  | .parallel ctx _ _ _ _ => .fork :: w.contextUses ctx
  | .panic _ => []

theorem Op.uses_congr {w v : World} (h : v.names = w.names) (o : Op) : o.uses v = o.uses w := by
  have hctx : ∀ ctx, v.contextUses ctx = w.contextUses ctx := fun ctx => by
    unfold World.contextUses World.lookUp
    rw [h]
  cases o with
  | create ctx spec g => cases spec <;> rfl
  | _ => simp only [Op.uses, hctx]

/-- Where backends put what they receive, and what they look at meanwhile. -/
def Resource.isOutlet : Resource → Bool
  | .handle _ => true
  | .buffer _ => true
  | .hook _ => true
  | .surroundings => true
  | _ => false

theorem BackendSpec.isOutlet_of_mem_uses {spec : BackendSpec} {u : Use} (h : u ∈ spec.uses) :
    u.resource.isOutlet = true := by
  cases spec with
  | memory handle name =>
    cases handle <;> cases name <;> simp_all [BackendSpec.uses, Resource.isOutlet]
  | forwarding hook => cases hook <;> simp_all [BackendSpec.uses, Resource.isOutlet]
  | tracing => exact absurd h List.not_mem_nil
  | console layout buffer =>
    rcases List.mem_cons.mp h with rfl | h
    · rfl
    · obtain ⟨id, -, rfl⟩ : ∃ id, buffer = some id ∧ ⟨.buffer id, .change⟩ = u := by simpa using h
      rfl
  | custom tag onWrite onFlush onDestroy onName => exact absurd h List.not_mem_nil

theorem isOutlet_of_mem_buildUses {steps : List BuildStep} {u : Use} (h : u ∈ buildUses steps) :
    u.resource.isOutlet = true := by
  rcases List.mem_cons.mp h with rfl | h
  · rfl
  · obtain ⟨step, -, hu⟩ := List.mem_flatMap.mp h
    cases step with
    | backend spec => exact BackendSpec.isOutlet_of_mem_uses hu
    | settings document =>
      obtain rfl := List.mem_singleton.mp hu
      rfl
    | _ => exact absurd hu List.not_mem_nil

theorem StoreOp.not_context_of_mem_uses {o : StoreOp} {u : Use} (h : u ∈ o.uses) (ctx : ContextName) :
    u.resource ≠ .context ctx := by
  have kept : ∀ id, Resource.ofRecord id ≠ .context ctx := fun id => by
    unfold Resource.ofRecord
    split <;> exact Resource.noConfusion
  have hooked : ∀ {hook}, u ∈ (BackendSpec.forwarding hook).uses → u.resource ≠ .context ctx :=
    fun hu he => by
      have := BackendSpec.isOutlet_of_mem_uses hu
      rw [he] at this
      cases this
  cases o with
  | copyRecord id source =>
    rcases List.mem_cons.mp h with rfl | h
    · exact kept id
    · obtain ⟨i, -, rfl⟩ : ∃ i, source = some i ∧ ⟨.ofRecord i, .change⟩ = u := by simpa using h
      exact kept i
  | freeRecord id => cases id <;> simp_all [StoreOp.uses]
  | newForwarder id hook =>
    rcases List.mem_cons.mp h with rfl | h
    · exact Resource.noConfusion
    · exact hooked h
  | setForwarder id hook =>
    rcases List.mem_cons.mp h with rfl | h
    · exact Resource.noConfusion
    · exact hooked h
  | _ => simp_all [StoreOp.uses]

/-- Who uses the global context has its console look at the surroundings. -/
theorem Op.look_of_global {w : World} {o : Op} (h : ⟨.context .global, .change⟩ ∈ o.uses w) :
    .look ∈ o.uses w := by
  have addressed : ∀ {ctx : ContextName}, ⟨.context .global, .change⟩ ∈ w.contextUses ctx →
      .look ∈ w.contextUses ctx := fun {ctx} hu => by
    unfold World.contextUses at hu ⊢
    split at hu
    · next hg => simp [hg]
    · next hg =>
      obtain rfl : ContextName.global = ctx := by simpa using hu
      exact absurd rfl hg
  have made : ∀ {spec : BackendSpec}, ⟨.context .global, .change⟩ ∉ spec.uses := fun hu =>
    Bool.noConfusion (BackendSpec.isOutlet_of_mem_uses hu)
  cases o with
  | onStore o => exact absurd rfl (StoreOp.not_context_of_mem_uses h .global)
  | create ctx spec g => cases spec <;> simp_all [Op.uses]
  | _ => simp_all [Op.uses, buildUses, Use.fork]

namespace State

/-- What the operation uses that is about to begin, if one is. -/
def uses (s : State) : List Use :=
  match s.condition, s.agenda with
  | .running, .begin o :: _ => o.uses s.world
  | _, _ => []

/-- What is used in a run of a program, however long it is. -/
def used (program : Program) : Set Use := {u | ∃ n, u ∈ (run n (start program)).1.uses}

theorem uses_of_halted {s : State} (h : s.halted = true) : s.uses = [] := by
  unfold halted at h
  unfold uses
  split
  · next hc ha =>
    rw [hc, ha] at h
    cases h
  · rfl

/-- A run that has ended uses nothing more. -/
theorem mem_of_mem_uses {s : State} {n : Nat} {us : List Use} (hn : (run n s).1.halted = true)
    (h : ∀ k < n, ∀ u ∈ (run k s).1.uses, u ∈ us) (k : Nat) : ∀ u ∈ (run k s).1.uses, u ∈ us := by
  intro u hk
  rcases Nat.lt_or_ge k n with hlt | hge
  · exact h k hlt u hk
  · obtain ⟨d, rfl⟩ := Nat.exists_eq_add_of_le hge
    rw [run_add, run_of_halted hn, uses_of_halted hn] at hk
    exact absurd hk List.not_mem_nil

end State

/-- No use of the one set gets in the way of one of the other. -/
def Apart (T U : Set Use) : Prop := ∀ u ∈ T, ∀ v ∈ U, u.conflicts v = false

theorem Manner.conflicts_comm (m n : Manner) : m.conflicts n = n.conflicts m := by
  cases m <;> cases n <;> rfl

theorem Apart.symm {T U : Set Use} (h : Apart T U) : Apart U T := by
  intro u hu v hv
  have := h v hv u hu
  simp only [Use.conflicts, Bool.and_eq_false_imp, beq_iff_eq] at this ⊢
  intro huv
  rw [Manner.conflicts_comm]
  exact this huv.symm

theorem Apart.not_mem_of_conflicts {T U : Set Use} (h : Apart T U) {r : Resource} {m n : Manner}
    (hr : ⟨r, m⟩ ∈ T) (hmn : m.conflicts n = true) : ⟨r, n⟩ ∉ U := fun hu => by
  have := h _ hr _ hu
  simp [Use.conflicts, hmn] at this

theorem Apart.not_mem {T U : Set Use} (h : Apart T U) {r : Resource} (hr : ⟨r, .change⟩ ∈ T)
    (m : Manner) : ⟨r, m⟩ ∉ U := h.not_mem_of_conflicts hr rfl

end GatedLog
