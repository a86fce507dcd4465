import Mathlib.Algebra.Group.Int.Defs
import GatedLog.Proofs.Mask
import GatedLog.Proofs.Machine.Agreement
import GatedLog.Proofs.Machine.Delivery
import GatedLog.Proofs.Machine.Unwinding

/-!
# Calls from outside

Three calls adjust the gate of the global context by a code, and a fourth one sets its callback. A
code that names nothing is answered by one, with a warning, and changes nothing; any other is
answered by zero and does what the operation on the context does. The callback comes behind the gate
that lets everything pass, and one that is absent silences the context. This holds in every state
that a program can reach (`foreign_calls`), except that a thread that is shut out of the context
changes nothing there.
-/

namespace GatedLog

/-- The calls that adjust the gate of the global context by a code. -/
inductive CodeCall where
  | enable
  | disable
  | level
  deriving DecidableEq, Repr

namespace CodeCall

/-- The call with a code, as an operation. -/
def op : CodeCall → Int32 → Op
  | enable, code => .enableCode code
  | disable, code => .disableCode code
  | level, code => .levelCode code

/-- The name of the function that is called. -/
def function : CodeCall → String
  | enable => "hdfsEnableLoggingForComponent"
  | disable => "hdfsDisableLoggingForComponent"
  | level => "hdfsSetLoggingLevel"

/-- The codes that name something. -/
def codes : CodeCall → List Int32
  | enable => [1, 2, 4, 8, 16]
  | disable => [1, 2, 4, 8, 16]
  | level => [0, 1, 2, 3, 4]

/-- What is wrong with any other code. -/
def rejection : CodeCall → Int32 → Rejection
  | enable, code => .componentCode code
  | disable, code => .componentCode code
  | level, code => .severityCode code

/-- The operation on a context that a call with a code stands for. -/
inductive Means : CodeCall → Int32 → ContextOp → Prop
  | enable (k : Component) : Means .enable k.code (.enable k)
  | disable (k : Component) : Means .disable k.code (.disable k)
  | level (s : Severity) : Means .level s.code (.setThreshold s)

/-- The bit that the code names becomes `on`, and nothing else changes. -/
structure Flipped (code : Int32) (on : Bool) (g g' : Gate) : Prop where
  threshold : g'.threshold = g.threshold
  bit : ∃ p < 32, code.toInt = 2 ^ p ∧ g'.mask.has p = on ∧ ∀ i, i ≠ p → g'.mask.has i = g.mask.has i

/-- The gate after a call with a code that names something. -/
def Retuned : CodeCall → Int32 → Gate → Gate → Prop
  | enable, code, g, g' => Flipped code true g g'
  | disable, code, g, g' => Flipped code false g g'
  | level, code, g, g' => g'.mask = g.mask ∧ g'.threshold.code = code

variable {call : CodeCall} {code : Int32} {o : ContextOp}

theorem toInt_code (k : Component) : k.code.toInt = 2 ^ k.position := by
  cases k <;> decide

theorem flipped_enable (k : Component) (g : Gate) : Flipped k.code true g (g.enable k) where
  threshold := rfl
  bit := by
    refine ⟨k.position, k.position_lt, toInt_code k, ?_, fun i hi => ?_⟩
    · rw [Gate.enable, ComponentMask.has_insert]
      simp
    · rw [Gate.enable, ComponentMask.has_insert]
      simp [hi]

theorem flipped_disable (k : Component) (g : Gate) : Flipped k.code false g (g.disable k) where
  threshold := rfl
  bit := by
    refine ⟨k.position, k.position_lt, toInt_code k, ?_, fun i hi => ?_⟩
    · rw [Gate.disable, ComponentMask.has_erase]
      simp
    · rw [Gate.disable, ComponentMask.has_erase]
      simp [hi]

/-- Whatever a code means, it adjusts the gate accordingly. -/
theorem Means.retuned (h : Means call code o) (g : Gate) : Retuned call code g (o.retune g) := by
  cases h with
  | enable k => exact flipped_enable k g
  | disable k => exact flipped_disable k g
  | level s => exact ⟨rfl, rfl⟩

theorem exists_component_code {n : Int32} (h : n ∈ [1, 2, 4, 8, 16]) :
    ∃ k : Component, k.code = n := by
  simp only [List.mem_cons, List.not_mem_nil, or_false] at h
  rcases h with rfl | rfl | rfl | rfl | rfl
  · exact ⟨.unknown, rfl⟩
  · exact ⟨.rpc, rfl⟩
  · exact ⟨.blockReader, rfl⟩
  · exact ⟨.fileHandle, rfl⟩
  · exact ⟨.fileSystem, rfl⟩

theorem exists_severity_code {n : Int32} (h : n ∈ [0, 1, 2, 3, 4]) : ∃ s : Severity, s.code = n := by
  simp only [List.mem_cons, List.not_mem_nil, or_false] at h
  rcases h with rfl | rfl | rfl | rfl | rfl
  · exact ⟨.trace, rfl⟩
  · exact ⟨.debug, rfl⟩
  · exact ⟨.info, rfl⟩
  · exact ⟨.warning, rfl⟩
  · exact ⟨.error, rfl⟩

/-- Every code on the list means something, and no other one does. -/
theorem exists_means_iff : (∃ o, Means call code o) ↔ code ∈ call.codes := by
  constructor
  · rintro ⟨o, h⟩
    cases h with
    | enable k => cases k <;> decide
    | disable k => cases k <;> decide
    | level s => cases s <;> decide
  · intro h
    cases call with
    | enable =>
      obtain ⟨k, rfl⟩ := exists_component_code h
      exact ⟨_, .enable k⟩
    | disable =>
      obtain ⟨k, rfl⟩ := exists_component_code h
      exact ⟨_, .disable k⟩
    | level =>
      obtain ⟨s, rfl⟩ := exists_severity_code h
      exact ⟨_, .level s⟩

end CodeCall

theorem Component.ofCode_of_ne {n : Int32} (h : ∀ k : Component, k.code ≠ n) :
    Component.ofCode n = .error (.componentCode n) := by
  unfold Component.ofCode
  cases hc : Component.ofCode? n with
  | none => rfl
  | some k => exact absurd (Component.ofCode?_eq_some.mp hc) (h k)

theorem Severity.ofCode_of_ne {n : Int32} (h : ∀ k : Severity, k.code ≠ n) :
    Severity.ofCode n = .error (.severityCode n) := by
  unfold Severity.ofCode
  cases hc : Severity.ofCode? n with
  | none => rfl
  | some k => exact absurd (Severity.ofCode?_eq_some.mp hc) (h k)

/-! ### Gates that are adjusted -/

namespace World

variable {w : World} {c : ContextId}

theorem modifyContext_congr {f g : Context → Context} (h : f (w.context c) = g (w.context c)) :
    w.modifyContext c f = w.modifyContext c g := by
  have hcontexts : w.contexts.modify c f = w.contexts.modify c g := by
    refine List.ext_getElem? fun i => ?_
    rw [List.getElem?_modify, List.getElem?_modify]
    by_cases hi : c = i
    · subst hi
      cases hx : w.contexts[c]? with
      | none => rfl
      | some x =>
        have hcontext : w.context c = x := by rw [context, hx, Option.getD_some]
        rw [hcontext] at h
        simp [h]
    · simp [hi]
  rw [modifyContext, modifyContext, hcontexts]

/-- Adjusting the gate of a backend changes the gate and nothing else. -/
theorem configure_of_installed {i : Installed} (hc : w.access c = .granted)
    (hi : w.installed c = some i) (f : Gate → Gate) :
    w.configure c f = w.replace c (some ⟨f i.gate, i.backend⟩) := by
  rw [installed] at hi
  rw [configure, if_pos hc, replace]
  apply modifyContext_congr
  rw [hi]
  rfl

theorem configure_of_empty (hi : w.installed c = none) (f : Gate → Gate) : w.configure c f = w := by
  unfold configure
  split
  · have hself : w.modifyContext c (fun x => x) = w := by
      rw [modifyContext, show (fun x : Context => x) = id from rfl, List.modify_id]
    refine Eq.trans (modifyContext_congr ?_) hself
    rw [installed] at hi
    rw [hi, Option.map_none, ← hi]
  · rfl

end World

namespace CodeCall.Means

variable {call : CodeCall} {code : Int32} {o : ContextOp}

theorem applyContext_eq (h : Means call code o) (w : World) (c : ContextId) :
    (w.applyContext c o).1 = w.configure c o.retune := by
  cases h <;> rfl

theorem asked_eq (h : Means call code o) (w : World) (c : ContextId) : w.asked c o = [] := by
  cases h <;> rfl

end CodeCall.Means

namespace State

variable {s : State} {c : ContextId} {call : CodeCall} {code : Int32} {o : ContextOp} {ts : List Task}

/-- A code that names nothing is rejected. -/
theorem begin_of_not_mem_codes (h : code ∉ call.codes) : s.begin (call.op code) =
    (s.respond (.status 1), [.emitted (.callRejected call.function (call.rejection code))]) := by
  have hmeans : ∀ o, ¬ CodeCall.Means call code o := fun o ho =>
    h (CodeCall.exists_means_iff.mp ⟨o, ho⟩)
  cases call with
  | enable =>
    have hcode : Component.ofCode code = .error (.componentCode code) := by
      apply Component.ofCode_of_ne
      rintro k rfl
      exact hmeans _ (.enable k)
    rw [CodeCall.op, State.begin, hcode]
    rfl
  | disable =>
    have hcode : Component.ofCode code = .error (.componentCode code) := by
      apply Component.ofCode_of_ne
      rintro k rfl
      exact hmeans _ (.disable k)
    rw [CodeCall.op, State.begin, hcode]
    rfl
  | level =>
    have hcode : Severity.ofCode code = .error (.severityCode code) := by
      apply Severity.ofCode_of_ne
      rintro k rfl
      exact hmeans _ (.level k)
    rw [CodeCall.op, State.begin, hcode]
    rfl

/-- A code that means an operation does what the operation does, and answers by zero. -/
theorem begin_of_means (h : CodeCall.Means call code o) :
    s.begin (call.op code) = s.onContext World.global o fun _ => .status 0 := by
  cases h with
  | enable k => simp [CodeCall.op, State.begin, Component.ofCode, Except.map, byCode]
  | disable k => simp [CodeCall.op, State.begin, Component.ofCode, Except.map, byCode]
  | level k => simp [CodeCall.op, State.begin, Severity.ofCode, Except.map, byCode]

/-! ### Statements that nobody hears -/

/-- A message ends on its way to the context, or is handed to it. -/
def Approaches (c : ContextId) : Task → Prop
  | .drop m => m.context = c
  | .write d _ => d = c
  | _ => False

/-- Whatever statement comes to the context next, nothing is put out until it is over: nothing is
captured or printed, no event is emitted and no callback called. -/
def Hushed (s : State) (c : ContextId) : Prop :=
  ∀ t ts, s.condition = .running → s.agenda = t :: ts → Approaches c t →
    ∃ n, (run n s).1.agenda = ts ∧ (run n s).1.world.output (run n s).2 = s.world.output []

/-- A backend without a callback does nothing with a message. -/
theorem receive_unhooked (w : World) (m : Message) :
    w.receive m (.forwarding none) = { world := w } := by
  show (if m.worth then w.record m (.forwarding none) else { world := w }) = _
  split <;> rfl

/-- Nothing comes of what is handed to a context with such a backend: the backend is entered and
left again, if the thread gets there at all. -/
theorem write_unhooked {i : Installed} (hr : s.condition = .running)
    (hi : s.world.installed c = some i) (hk : i.backend.kind = .forwarding none) (m : Message) :
    (∀ w : World, w.output (s.write c m).2 = w.output []) ∧
      ∃ n, (run n (s.write c m).1).1.agenda = s.agenda ∧
        (run n (s.write c m).1).1.world = s.world ∧ (run n (s.write c m).1).2 = [] := by
  cases hc : s.world.access c with
  | refused =>
    have hwrite : s.write c m = s.quietly := by simp only [State.write, accessing, hc]
    rw [hwrite]
    exact ⟨fun w => rfl, 0, rfl, rfl, rfl⟩
  | blocked =>
    have hwrite : s.write c m = ({ s with condition := .blocked }, []) := by
      simp only [State.write, accessing, hc]
    rw [hwrite]
    exact ⟨fun w => rfl, 0, rfl, rfl, rfl⟩
  | granted =>
    have hwrite : s.write c m =
        s.running c (.delivered c i.backend m) { world := s.world.enter c } := by
      simp only [State.write, accessing, hc, hi, hk, receive_unhooked, register_running]
    have hagenda : (s.write c m).1.agenda =
        .script [] :: .leave c s.world.thread.tracking :: s.agenda := by rw [hwrite]; rfl
    have hleft := run_left hagenda (by rw [hwrite]; exact hr)
    refine ⟨fun w => by rw [hwrite]; rfl, 2, ?_⟩
    rw [hleft]
    refine ⟨rfl, ?_, rfl⟩
    have hworld : (s.write c m).1.world = s.world.enter c := by rw [hwrite]; rfl
    rw [hworld]
    exact World.leave_enter (World.not_locked_of_granted hc)

theorem hushed_of_unhooked {i : Installed} (hi : s.world.installed c = some i)
    (hk : i.backend.kind = .forwarding none) : s.Hushed c := by
  intro t ts hr ha happ
  have hperform := step_of_running hr ha
  cases t with
  | write d m =>
    obtain rfl : d = c := happ
    obtain ⟨hout, n, hagenda, hworld, hquiet⟩ :=
      write_unhooked (s := { s with agenda := ts }) hr hi hk m
    have hstep : s.step = ({ s with agenda := ts } : State).write d m := hperform
    refine ⟨n + 1, ?_⟩
    rw [run_succ, hstep]
    refine ⟨hagenda, ?_⟩
    rw [hworld, hquiet, List.append_nil]
    exact hout _
  | drop m =>
    obtain rfl : m.context = c := happ
    have hdrop : s.step = ({ s with agenda := ts } : State).drop m := hperform
    cases hw : m.worth with
    | false =>
      have hstep : s.step = ({ s with agenda := ts }, [.dropped m]) := by
        rw [hdrop, State.drop, hw]
        rfl
      refine ⟨1, ?_⟩
      rw [run_succ, run_zero, hstep]
      exact ⟨rfl, rfl⟩
    | true =>
      obtain ⟨hout, n, hagenda, hworld, hquiet⟩ :=
        write_unhooked (s := { s with agenda := ts }) hr hi hk m
      have hstep : s.step = ((({ s with agenda := ts } : State).write m.context m).1,
          .dropped m :: (({ s with agenda := ts } : State).write m.context m).2) := by
        rw [hdrop, State.drop, hw]
        rfl
      refine ⟨n + 1, ?_⟩
      rw [run_succ, hstep]
      refine ⟨hagenda, ?_⟩
      rw [hworld, hquiet, List.append_nil]
      exact hout _
  | _ => exact happ.elim

/-! ### The calls -/

/-- What a call with a code comes to, with the tasks `ts` after it. -/
structure Governs (s : State) (call : CodeCall) (code : Int32) (ts : List Task) : Prop where
  /-- A code that names nothing is answered by one, and nothing comes of it but a warning. -/
  rejected : code ∉ call.codes → s.step =
    ({ s with agenda := ts, answer := .status 1 },
      [.emitted (.callRejected call.function (call.rejection code))])
  /-- Any other is answered by zero, without a word. -/
  accepted : code ∈ call.codes → ¬ s.HeldUp World.global →
    ∃ u w, (u = s ∨ u = s.register) ∧
      s.step = ({ u with agenda := ts, answer := .status 0, world := w }, []) ∧
      -- it is an operation on the context
      (∃ o, CodeCall.Means call code o ∧ w = (s.world.applyContext World.global o).1) ∧
      -- which adjusts the gate of the backend, if there is one that the thread gets at
      (∀ i, ¬ s.ShutOut World.global → s.world.installed World.global = some i →
        ∃ g, call.Retuned code i.gate g ∧
          w = s.world.replace World.global (some ⟨g, i.backend⟩)) ∧
      (s.ShutOut World.global ∨ s.world.installed World.global = none → w = s.world)
  /-- A thread that waits for a thread that waits for it stops for good. -/
  waiting : code ∈ call.codes → s.HeldUp World.global →
    s.step = ({ s with agenda := ts, condition := .blocked }, [])

/-- What setting a callback comes to, with the tasks `ts` after it. -/
structure Hooks (s : State) (hook : Option Hook) (ts : List Task) : Prop where
  /-- A backend with the callback takes the place of what is installed. -/
  world : (run 2 s).1.world = World.replace { s.world with backends := s.world.backends + 1 }
    World.global (some ⟨Gate.unrestricted, ⟨s.world.backends, .forwarding hook⟩⟩)
  installed : (run 2 s).1.world.installed World.global =
    some ⟨Gate.unrestricted, ⟨s.world.backends, .forwarding hook⟩⟩
  /-- What was installed is destroyed after that, and then the news goes out. -/
  agenda : (run 2 s).1.agenda =
    destroying ((s.world.installed World.global).map (·.backend)) ++
      [.emit (.installed "forwarding"), .respond .nothing] ++ ts
  quiet : (run 2 s).2 = []
  /-- Without a callback the context is silent from then on, until something else is put there. -/
  silenced : hook = none → ∀ n,
    (∀ k < n, ¬ Replaces (run k (run 2 s).1).1 World.global) →
      Hushed (run n (run 2 s).1).1 World.global

/-- The calls from outside that a state can be in front of. -/
structure AnswersOutside (s : State) : Prop where
  byCode : ∀ call code ts, s.condition = .running → s.agenda = .begin (CodeCall.op call code) :: ts →
    s.Governs call code ts
  hooked : ∀ hook ts, s.condition = .running → s.agenda = .begin (.setFunction hook) :: ts →
    ¬ s.ShutOut World.global → ¬ s.HeldUp World.global → s.Hooks hook ts

theorem Disciplined.governs (h : Disciplined s) (hr : s.condition = .running)
    (ha : s.agenda = .begin (call.op code) :: ts) : s.Governs call code ts := by
  have hstep : s.step = ({ s with agenda := ts } : State).begin (call.op code) :=
    step_of_running hr ha
  constructor
  · intro hcode
    rw [hstep, begin_of_not_mem_codes hcode]
    rfl
  · intro hcode hwaits
    obtain ⟨o, ho⟩ := CodeCall.exists_means_iff.mpr hcode
    have hfree : s.world.access World.global ≠ .blocked := fun hb =>
      hwaits ((h.blocked_iff _).mp hb)
    have hdone : ∃ u, (u = s ∨ u = s.register) ∧ s.step = ({ u with
        agenda := ts
        answer := .status 0
        world := (s.world.applyContext World.global o).1 }, []) := by
      rw [hstep, begin_of_means ho, onContext, accessing, ho.asked_eq]
      cases hc : s.world.access World.global with
      | granted => exact ⟨_, .inr rfl, rfl⟩
      | refused => exact ⟨_, .inl rfl, rfl⟩
      | blocked => exact absurd hc hfree
    obtain ⟨u, hu, hdone⟩ := hdone
    refine ⟨u, (s.world.applyContext World.global o).1, hu, hdone, ⟨o, ho, rfl⟩, fun i hs hi => ?_,
      fun hnone => ?_⟩
    · have hg := h.granted hs hwaits
      refine ⟨o.retune i.gate, ho.retuned i.gate, ?_⟩
      rw [ho.applyContext_eq, World.configure_of_installed hg hi]
    · rw [ho.applyContext_eq]
      rcases hnone with hs | hi
      · refine World.configure_of_not_granted (fun hg => ?_) _
        rw [(h.refused_iff _).mpr hs] at hg
        cases hg
      · exact World.configure_of_empty hi _
  · intro hcode hwaits
    obtain ⟨o, ho⟩ := CodeCall.exists_means_iff.mpr hcode
    have hb := (h.blocked_iff _).mpr hwaits
    rw [hstep, begin_of_means ho, onContext, accessing]
    simp only [hb]

theorem Disciplined.hooks (h : Disciplined s) (hl : World.global < s.world.contexts.length)
    {hook : Option Hook} (hr : s.condition = .running)
    (ha : s.agenda = .begin (.setFunction hook) :: ts) (hs : ¬ s.ShutOut World.global)
    (hw : ¬ s.HeldUp World.global) : s.Hooks hook ts := by
  have hg : World.access { s.world with backends := s.world.backends + 1 } World.global = .granted :=
    h.granted hs hw
  -- the backend is made in one step, and swapped in in the next
  obtain ⟨u, hu⟩ : ∃ u : State, u = { s with
      world := { s.world with backends := s.world.backends + 1 }
      agenda := .swap World.global
        (some ⟨Gate.unrestricted, ⟨s.world.backends, .forwarding hook⟩⟩) :: .respond .nothing :: ts } :=
    ⟨_, rfl⟩
  have hmade : s.step = (u, []) := by
    rw [hu]
    exact step_of_running hr ha
  have hswapped : u.step = ({ s.register with
      world := World.replace { s.world with backends := s.world.backends + 1 } World.global
        (some ⟨Gate.unrestricted, ⟨s.world.backends, .forwarding hook⟩⟩)
      agenda := destroying ((s.world.installed World.global).map (·.backend)) ++
        [.emit (.installed "forwarding")] ++ .respond .nothing :: ts }, []) := by
    have hstep := step_of_running (s := u) (by rw [hu]; exact hr) (by rw [hu])
    rw [hstep, hu]
    simp only [perform, swap, accessing, hg]
    rfl
  have hrun : run 2 s = ({ s.register with
      world := World.replace { s.world with backends := s.world.backends + 1 } World.global
        (some ⟨Gate.unrestricted, ⟨s.world.backends, .forwarding hook⟩⟩)
      agenda := destroying ((s.world.installed World.global).map (·.backend)) ++
        [.emit (.installed "forwarding")] ++ .respond .nothing :: ts }, []) := by
    rw [run_succ, hmade, run_succ, hswapped]
    rfl
  have hinstalled : (run 2 s).1.world.installed World.global =
      some ⟨Gate.unrestricted, ⟨s.world.backends, .forwarding hook⟩⟩ := by
    rw [hrun]
    exact World.installed_replace (w := { s.world with backends := s.world.backends + 1 }) hl _
  have hlength : World.global < (run 2 s).1.world.contexts.length :=
    World.lt_length_of_installed hinstalled
  refine ⟨by rw [hrun], hinstalled, by rw [hrun]; simp, by rw [hrun], ?_⟩
  rintro rfl n hquiet
  have hkeeps := (installed_run hlength hquiet).1
  rw [hinstalled] at hkeeps
  obtain ⟨i, hi, hb⟩ := Option.map_eq_some_iff.mp hkeeps
  exact hushed_of_unhooked hi (by rw [hb])

/-- **Calls from outside**, in every state that a program can reach. -/
theorem foreign_calls (program : Program) (n : Nat) :
    AnswersOutside (run n (start program)).1 := by
  have h := disciplined_run program n
  have hl := (addressed_run program n).nonempty
  exact ⟨fun call code ts hr ha => h.governs hr ha,
    fun hook ts hr ha hs hw => h.hooks hl hr ha hs hw⟩

/-- While the backend of the global context runs, a thread that has got at another context is ending,
and silences it. -/
def silencing : Program where
  ops := [.create "d" none Gate.unrestricted,
    .install .global (.scripted "s"
      [.threadExit [.onContext (.named "d") .gate] [.setFunction none]] [] []) Gate.unrestricted,
    .log .global .error .rpc []]

/-- The state in front of that call. -/
def silenceable : State := (run 23 (start silencing)).1

/-- The thread does not run the backend itself, but it is refused the context, and the backend
stays there. -/
theorem refused_callback_unset :
    ∃ ts, silenceable.condition = .running ∧ World.global ∉ silenceable.stack ∧
      silenceable.agenda = .begin (.setFunction none) :: ts ∧
      (run 6 silenceable).1.agenda = ts ∧ (run 6 silenceable).1.answer = .nothing ∧
      ((run 6 silenceable).1.world.installed World.global).map (·.backend.name) = some "s" ∧
      ∀ b, (run 6 silenceable).1.world.installed World.global = some ⟨Gate.unrestricted, b⟩ →
        b.kind ≠ .forwarding none := by
  have hname : ((run 6 silenceable).1.world.installed World.global).map (·.backend.name) =
      some "s" := by decide
  refine ⟨_, rfl, by decide, rfl, rfl, rfl, hname, fun b hb hk => ?_⟩
  rw [hb, Option.map_some, Backend.name, hk] at hname
  exact absurd hname (by decide)

end State

end GatedLog
