import GatedLog.Proofs.Machine.Returning

/-!
# Stricter gates deliver a subsequence

Two states stand in front of the same commands, each on a context of its own with a backend of its
own, and the one desk is stricter than the other. After any of the commands the gates are still in
that order, and what has been reported in the one run is a part of what has been reported in the
other, in the same order and word for word (`stricter_subsequence`). Which steps the two runs take
plays no part in it: each of them is led by its desk (`Fronts.arrives`), and the desks are compared.
-/

namespace GatedLog

namespace State

variable {p p' : Post} {d d' : Desk} {s s' : State} {os rest : List Command}

/-- The state stands in front of commands on a context that has a desk, all open messages, and a
discreet backend. -/
structure Fronts (s : State) (p : Post) (d : Desk) (os : List Command) : Prop where
  agenda : s.agenda = [.program (os.map (Command.op p.name))]
  condition : s.condition = .running
  lookUp : s.world.lookUp p.name = p.id
  installed : s.world.installed p.id = some ⟨d.gate, p.backend⟩
  held : s.world.held = d.held
  messages : s.world.messages = d.messages
  own : ∀ m ∈ d.held.values, m.context = p.id
  discreet : ∃ I, Discreet p I ∧ I s.world
  /-- If the context is asked for its name the backend tells it at once. -/
  named : .onGate .name ∈ os → World.nameOps p.backend.kind = []

/-- The commands `os` are left; the context has the gate `g`, and has handed the messages `ms` to its
backend, in their order. -/
structure Arrived (p : Post) (os : List Command) (g : Gate) (ms : List Message) (o : Outcome) :
    Prop where
  agenda : o.1.agenda = [.program (os.map (Command.op p.name))]
  condition : o.1.condition = .running
  installed : o.1.world.installed p.id = some ⟨g, p.backend⟩
  delivered : deliveredBy p.id o.2 = ms.map fun m => (p.backend, m)

theorem Fronts.manned (h : s.Fronts p d os) (hs : Disciplined s) : Manned p s.world d := by
  refine ⟨h.lookUp, (hs.granted_iff p.id).mpr ?_, h.installed, h.held, h.messages, h.own⟩
  rw [entered, h.agenda]
  exact List.not_mem_nil

/-- Commands are carried out at the desk. -/
theorem Fronts.arrives (h : s.Fronts p d (os ++ rest)) (hs : Disciplined s) :
    ∃ n ms e, Arrived p rest e.gate ms (run n s) ∧ d.Serves p.id os ms e := by
  obtain ⟨I, hp, hI⟩ := h.discreet
  obtain ⟨n, ms, e, hn, hserves⟩ :=
    hp.served_commands os rest (fun hos => h.named (List.mem_append_left rest hos)) hs h.condition
      h.agenda (h.manned hs) hI
  exact ⟨n, ms, e, ⟨hn.agenda, hn.condition, hn.manned.installed, hn.delivered⟩, hserves⟩

/-- The commands `os` have been carried out at the desks `d` and `d'`, the first of them the stricter
one; the gates are `g` and `g'` now, and the messages `ms` and `ms'` have been delivered. -/
structure Compared (d d' : Desk) (os : List Command) (g g' : Gate) (ms ms' : List Message) :
    Prop where
  /-- The gates are still in that order. -/
  gates : g.Stricter g'
  /-- What the first run reports is reported by the second, in the same order and word for word. -/
  sublist : (reported ms).Sublist (reported ms')
  /-- What is delivered is reported, unless a message is handed over explicitly. -/
  all : (∀ o ∈ os, o.isWrite = false) →
    reported ms = ms.map Message.captured ∧ reported ms' = ms'.map Message.captured
  /-- From equal gates, and with the same open messages, both runs agree. -/
  agree : d.gate = d'.gate → d.held = d'.held → g = g' ∧ reported ms = reported ms'

/-- Whatever commands two states stand in front of, at desks of which the first is the stricter one,
both runs come to the end of any of these commands. -/
def Ordered (s s' : State) : Prop :=
  ∀ p p' d d' os rest, s.Fronts p d (os ++ rest) → s'.Fronts p' d' (os ++ rest) → d.Stricter d' →
    ∃ n n' g g' ms ms', Arrived p rest g ms (run n s) ∧ Arrived p' rest g' ms' (run n' s') ∧
      Compared d d' os g g' ms ms'

theorem Disciplined.ordered (hs : Disciplined s) (hs' : Disciplined s') : Ordered s s' := by
  intro p p' d d' os rest h h' hd
  obtain ⟨n, ms, e, hn, hserves⟩ := h.arrives hs
  obtain ⟨n', ms', e', hn', hserves'⟩ := h'.arrives hs'
  obtain ⟨hend, hsublist⟩ := hserves.stricter hserves' hd
  refine ⟨n, n', e.gate, e'.gate, ms, ms', hn, hn', hend.gate, hsublist, fun hos => ?_,
    fun hgate hheld => ?_⟩
  · exact ⟨reported_eq_map (hserves.worth hos), reported_eq_map (hserves'.worth hos)⟩
  · obtain ⟨hend', hsublist'⟩ := hserves'.stricter hserves (.of_eq hgate.symm hheld.symm)
    exact ⟨hend.gate.antisymm hend'.gate, hsublist.antisymm hsublist'⟩

/-- **Stricter gates deliver a subsequence**, from all states that programs can reach. -/
theorem stricter_subsequence (program program' : Program) (n n' : Nat) :
    Ordered (run n (start program)).1 (run n' (start program')).1 :=
  (disciplined_run program n).ordered (disciplined_run program' n')

/-! ### Programs that make a context and log to it -/

variable (clock : Clock)

/-- A program that makes a context and goes on with commands on it. -/
def freshLog (name : String) (spec : BackendSpec) (g : Gate) (os : List Command) : State :=
  start ⟨.create name (some spec) g :: os.map (Command.op (.named name)), clock⟩

/-- The context that the program makes, with the backend of the specification. -/
def freshPost (name : String) (spec : BackendSpec) : Post :=
  ⟨.named name, 1, ((World.initial clock).make spec).1⟩

theorem callerScript_make (spec : BackendSpec) :
    ((World.initial clock).make spec).2.callerScript = [] := by
  cases spec with
  | memory handle storeAs => cases handle <;> rfl
  | _ => rfl

/-- Around a discreet backend the program stands in front of the commands as soon as the context has
been made. -/
theorem fronts_created {spec : BackendSpec} {name : String} {I : World → Prop}
    (hp : Discreet (freshPost clock name spec) I) (g : Gate) (os : List Command)
    (hI : I (run 3 (freshLog clock name spec g os)).1.world)
    (hn : .onGate .name ∈ os → World.nameOps ((World.initial clock).make spec).1.kind = []) :
    (run 3 (freshLog clock name spec g os)).1.Fronts (freshPost clock name spec) ⟨g, {}, 0⟩ os := by
  have hmanned := manned_created clock spec name g
  exact ⟨rfl, rfl, hmanned.lookUp, hmanned.installed, hmanned.held, hmanned.messages, hmanned.own,
    ⟨I, hp, hI⟩, hn⟩

theorem fronts_of_isIdle {spec : BackendSpec}
    (hs : ((World.initial clock).make spec).1.kind.IsIdle (World.initial clock)) (name : String) (g : Gate)
    (os : List Command) : (run 3 (freshLog clock name spec g os)).1.Fronts (freshPost clock name spec)
      ⟨g, {}, 0⟩ os :=
  fronts_created clock (discreet_of_isIdle _) g os
    ((BackendKind.isIdle_congr (callerScript_make clock spec) _).mpr hs) fun _ => hs.nameOps_eq

theorem Arrived.created {spec : BackendSpec} {name : String} {g h : Gate} {ms : List Message}
    {n : Nat} (ha : Arrived (freshPost clock name spec) rest h ms
      (run n (run 3 (freshLog clock name spec g os)).1)) :
    Arrived (freshPost clock name spec) rest h ms (run (3 + n) (freshLog clock name spec g os)) := by
  have hmade : (run 3 (freshLog clock name spec g os)).2 = [.answered .nothing] := rfl
  constructor <;> rw [run_add]
  · exact ha.agenda
  · exact ha.condition
  · exact ha.installed
  · rw [hmade]
    exact ha.delivered

/-- Two programs that differ in the gate, and perhaps in the backend, which is idle. -/
theorem created_compared {spec spec' : BackendSpec}
    (hs : ((World.initial clock).make spec).1.kind.IsIdle (World.initial clock))
    (hs' : ((World.initial clock).make spec').1.kind.IsIdle (World.initial clock)) (name : String) {g g' : Gate}
    (hg : g.Stricter g') (os rest : List Command) : ∃ n n' h h' ms ms',
      Arrived (freshPost clock name spec) rest h ms (run n (freshLog clock name spec g (os ++ rest))) ∧
      Arrived (freshPost clock name spec') rest h' ms' (run n' (freshLog clock name spec' g' (os ++ rest))) ∧
      Compared ⟨g, {}, 0⟩ ⟨g', {}, 0⟩ os h h' ms ms' := by
  have hd : Desk.Stricter ⟨g, {}, 0⟩ ⟨g', {}, 0⟩ := ⟨hg, fun _ _ => .none⟩
  obtain ⟨n, n', h, h', ms, ms', ha, ha', hc⟩ := Disciplined.ordered
    ((disciplined_start _).after 3) ((disciplined_start _).after 3) _ _ _ _ os rest
    (fronts_of_isIdle clock hs name g (os ++ rest)) (fronts_of_isIdle clock hs' name g' (os ++ rest)) hd
  exact ⟨3 + n, 3 + n', h, h', ms, ms', ha.created, ha'.created, hc⟩

-- an open message is delivered although its component has been disabled, behind both gates
example : [({ threshold := .warning } : Gate), {}].map (fun g =>
    (deliveredBy 1 (run 60 (freshLog .epoch "c" .tracing g [.log .info .rpc [.text "a"],
      .hold "m" .error .rpc [.text "b"], .onGate (.disable .rpc), .log .error .rpc [.text "c"],
      .finish "m"])).2).map (·.2.text)) = [["b"], ["a", "b"]] := by decide

end State

end GatedLog
