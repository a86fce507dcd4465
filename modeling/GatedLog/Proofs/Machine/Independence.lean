import GatedLog.Proofs.Machine.Lockstep
import GatedLog.Proofs.Machine.Registration
import GatedLog.Proofs.Machine.Reports

/-!
# Independence

Several parties share a run: their operations come in any order, but nothing that one of them uses
gets in the way of another. Then every party sees what it would see if it ran alone: the same
reports, the same records in its handles, the same octets in its buffers, the same calls of its
callbacks (`parties_independent`). The shared run is compared with all the runs of single parties
at once. Each of them waits until the next operation is its own, and then the two go in lockstep to
the end of the operation, which leaves the twins of the other parties alone.
-/

namespace GatedLog

variable {ι : Type} [DecidableEq ι] {p q : ι} {o : Op}

/-- The operations of one party. -/
def share (p : ι) (l : List (ι × Op)) : List Op := (l.filter (·.1 = p)).map (·.2)

/-- The reports on the operations of one party. -/
def reportsTo (p : ι) (l : List (ι × Op)) (rs : List Report) : List Report :=
  ((l.zip rs).filter (·.1.1 = p)).map (·.2)

theorem share_cons_self (p : ι) (o : Op) (l : List (ι × Op)) :
    share p ((p, o) :: l) = o :: share p l := by
  simp [share]

theorem share_cons_of_ne (h : p ≠ q) (o : Op) (l : List (ι × Op)) :
    share p ((q, o) :: l) = share p l := by
  simp [share, h.symm]

theorem reportsTo_append {l : List (ι × Op)} {rs : List Report} (h : rs.length = l.length)
    (p q : ι) (o : Op) (r : Report) :
    reportsTo p (l ++ [(q, o)]) (rs ++ [r]) = reportsTo p l rs ++ if q = p then [r] else [] := by
  unfold reportsTo
  rw [List.zip_append h.symm, List.filter_append, List.map_append]
  split
  · next hq => simp [hq]
  · next hq => simp [hq]

theorem reportsTo_append_left {l l' : List (ι × Op)} {rs : List Report}
    (h : rs.length = l.length) (p : ι) : reportsTo p (l ++ l') rs = reportsTo p l rs := by
  have hzip : (l ++ l').zip (rs ++ []) = l.zip rs ++ l'.zip [] := List.zip_append h.symm
  rw [List.append_nil, List.zip_nil_right, List.append_nil] at hzip
  rw [reportsTo, hzip, reportsTo]

namespace World

/-- What a handle holds, if there is one of that name. -/
def recordsOf (w : World) (name : String) : Option (List Captured) :=
  (w.handles.get? name).map w.captured

/-! ### What the others do -/

variable {T U : Set Use} {σ ρ : Link} {w w₁ v : World} {t : Thread}

/-- What others do who use nothing of the set, and have contexts and handles of their own, leaves
twins. -/
theorem Twin.of_spares (h : Twin T σ (w.resumeThread t) v) (hs : Spares U ρ w w₁) (hTU : Apart T U)
    (hcl : ∀ {a b}, σ.contexts.rel a b → a < w.contexts.length)
    (hcd : ∀ {a b d}, σ.contexts.rel a b → ¬ ρ.contexts.rel a d)
    (hhl : ∀ {a b}, σ.handles.rel a b → a < w.captures.length)
    (hhd : ∀ {a b d}, σ.handles.rel a b → ¬ ρ.handles.rel a d) :
    Twin T σ (w₁.resumeThread t) v := by
  have keys : ∀ {kind : String → Resource} (k : String), Keys T kind k → ¬ Keys U kind k :=
    fun k hk => hTU.not_mem hk _
  have colors : Looks T → ¬ Owns U .surroundings := fun ⟨m, _, hm⟩ hU => hTU.symm.not_mem hU m hm
  have threads : Looks T → .fork ∉ U := fun ⟨m, hadd, hm⟩ =>
    hTU.not_mem_of_conflicts hm (by cases m <;> first | rfl | exact absurd rfl hadd)
  exact {
    contexts := h.contexts.of_spared hs.contexts hcl hcd
    global := h.global
    names := h.names.of_spared hs.names keys
    thread := h.thread
    threads := fun hl => (hs.threads (threads hl)).trans (h.threads hl)
    held := h.held.of_spared hs.held keys
    handles := h.handles.of_spared hs.handles keys
    captures := h.captures.of_spared hs.captures hhl hhd
    buffers := h.buffers.of_spared hs.buffers keys
    foreign := h.foreign.of_spared hs.foreign keys
    copies := fun hk => (hs.copies (hTU.not_mem hk _)).trans (h.copies hk)
    forwarders := h.forwarders.of_spared hs.forwarders keys
    callerScript := fun hk => (hs.callerScript (hTU.not_mem hk _)).trans (h.callerScript hk)
    colors := fun hl => (hs.colors (colors hl)).trans (h.colors hl)
    clock := hs.clock.trans h.clock }

theorem Twin.recordsOf (h : Twin T σ w v) {name : String} (hT : Keys T .handle name) :
    w.recordsOf name = v.recordsOf name := by
  have hrel := h.handles name hT
  unfold World.recordsOf
  generalize w.handles.get? name = x at hrel ⊢
  generalize v.handles.get? name = y at hrel ⊢
  cases hrel with
  | none => rfl
  | some hh => exact congrArg some (h.captured hh)

end World

/-! ### At the start -/

/-- At first there is only the global context. -/
def Link.initial (T : Set Use) : Link where
  contexts :=
    { rel := fun a b => a = World.global ∧ b = World.global ∧ Owns T (.context .global)
      inj := fun ⟨ha, hb, _⟩ ⟨hc, hd, _⟩ => by rw [ha, hb, hc, hd] }
  handles := { rel := fun _ _ => False, inj := fun h => h.elim }

theorem World.twin_initial {T : Set Use} (hT : Owns T (.context .global) → Looks T)
    (clock : Clock) : World.Twin T (.initial T) (.initial clock) (.initial clock) where
  contexts :=
    { spans := by
        rintro a b ⟨rfl, rfl, -⟩
        exact .inl ⟨Nat.zero_lt_one, Nat.zero_lt_one⟩
      rel := by
        rintro a b ⟨rfl, rfl, hg⟩
        exact .some ⟨.some ⟨rfl, ⟨.console _ _ (hT hg) fun _ hid => nomatch hid⟩⟩, rfl⟩ }
  global hg := ⟨rfl, rfl, hg⟩
  names _ _ := .none
  thread := ⟨.nil, rfl, fun _ => rfl⟩
  threads _ := rfl
  held _ _ := .none
  handles _ _ := .none
  captures := { spans := fun _ _ h => h.elim, rel := fun h => h.elim }
  buffers _ _ := .none
  foreign _ _ := .none
  copies _ := rfl
  forwarders _ _ := .none
  callerScript _ := rfl
  colors _ := rfl
  clock := rfl

namespace State

/-! ### Runs side by side -/

/-- The run of all parties. -/
def together (clock : Clock) (l : List (ι × Op)) (n : Nat) : Outcome :=
  run n (start ⟨l.map (·.2), clock⟩)

/-- The run of one party alone. -/
def alone (clock : Clock) (p : ι) (l : List (ι × Op)) (n : Nat) : Outcome :=
  run n (start ⟨share p l, clock⟩)

/-- One step more. -/
def next (o : Outcome) : Outcome := (o.1.step.1, o.2 ++ o.1.step.2)

/-- The thread of the program. -/
def home : Thread := { number := 1 }

/-- The reports on the operations that are done are those of the parties' own runs. What has happened
since is `now`, and `own p` in the run of a party. -/
def Reported (done : List (ι × Op)) (hs now : List Happening) (his own : ι → List Happening) : Prop :=
  ∃ rs, Tells hs rs now ∧ rs.length = done.length ∧ ∀ p, ∃ rs', Tells (his p) rs' (own p) ∧
    (reportsTo p done rs).map Report.plain = rs'.map Report.plain

section

variable {done : List (ι × Op)} {hs es es' now : List Happening} {his own : ι → List Happening}

theorem Reported.more (h : Reported done hs now his own) (q : ι)
    (hes : ∀ e ∈ es, ∀ a, e ≠ .answered a) (hes' : ∀ e ∈ es', ∀ a, e ≠ .answered a) :
    Reported done (hs ++ es) (now ++ es) (Function.update his q (his q ++ es'))
      (Function.update own q (own q ++ es')) := by
  obtain ⟨rs, htells, hlength, hown⟩ := h
  refine ⟨rs, htells.more hes, hlength, fun p => ?_⟩
  obtain ⟨rs', htells', heq⟩ := hown p
  refine ⟨rs', ?_, heq⟩
  by_cases hp : p = q
  · subst hp
    simpa using htells'.more hes'
  · simpa [hp] using htells'

theorem Reported.answered (h : Reported done hs now his own) (q : ι) (o : Op) {a a' : Answer}
    (hown : ∀ p, p ≠ q → own p = []) (hr : (Report.of now a).plain = (Report.of (own q) a').plain) :
    Reported (done ++ [(q, o)]) (hs ++ [.answered a]) []
      (Function.update his q (his q ++ [.answered a'])) fun _ => [] := by
  obtain ⟨rs, htells, hlength, hreports⟩ := h
  refine ⟨_, htells.answered a, by simp [hlength], fun p => ?_⟩
  obtain ⟨rs', htells', heq⟩ := hreports p
  rw [reportsTo_append hlength, List.map_append, heq]
  by_cases hp : p = q
  · subst hp
    exact ⟨_, by simpa using htells'.answered a', by simp [hr]⟩
  · rw [hown p hp] at htells'
    exact ⟨rs', by simpa [hp] using htells', by simp [Ne.symm hp]⟩

end

/-- The shared run and the parties' own runs: every party has contexts and handles of its own, and
its reports and calls are those of its own run. -/
structure Parallel (T : ι → Set Use) (σ : ι → Link) (done : List (ι × Op)) (now : List Happening)
    (own : ι → List Happening) (o : Outcome) (x : ι → Outcome) : Prop where
  contexts : Pairing.Partition (fun p => (σ p).contexts) o.1.world.contexts.length
  handles : Pairing.Partition (fun p => (σ p).handles) o.1.world.captures.length
  reported : Reported done o.2 now (fun p => (x p).2) own
  calls : ∀ p hook, Owns (T p) (.hook hook) → callsTo hook o.2 = callsTo hook (x p).2

/-- The party's own run waits for the next of its operations. -/
structure Waits (T : Set Use) (σ : Link) (ops : List Op) (s x : State) : Prop where
  agenda : x.agenda = [.program ops]
  condition : x.condition = .running
  registered : x.registered = []
  world : World.Twin T σ (s.world.resumeThread home) x.world

/-- An operation has ended, and the operations `rest` are still to come. -/
structure Between (T : ι → Set Use) (σ : ι → Link) (done rest : List (ι × Op)) (o : Outcome)
    (x : ι → Outcome) : Prop extends Parallel T σ done [] (fun _ => []) o x where
  agenda : o.1.agenda = [.program (rest.map (·.2))]
  condition : o.1.condition = .running
  registered : o.1.registered = []
  thread : o.1.world.thread = home
  waits : ∀ p, Waits (T p) (σ p) (share p rest) o.1 (x p).1

/-- An operation of the party `q` is on its way, in the shared run and in the own one: the tasks `xs`
and `xs'` are left of it. -/
structure Within (T : ι → Set Use) (σ : ι → Link) (done : List (ι × Op)) (q : ι)
    (rest : List (ι × Op)) (xs xs' : List Task) (now : List Happening) (own : ι → List Happening)
    (o : Outcome) (x : ι → Outcome) : Prop extends Parallel T σ done now own o x where
  agenda : o.1.agenda = xs ++ [.report, .program (rest.map (·.2))]
  agenda' : (x q).1.agenda = xs' ++ [.report, .program (share q rest)]
  tasks : List.Forall₂ (Task.Twin (T q) (σ q)) xs xs'
  fits : Fits o.1.world.thread xs home
  enrolled : Enrolled o.1.world.thread xs o.1.registered
  level : Level (T q) (σ q) o.1 (x q).1
  heard : Heard o.1 (x q).1
  happenings : List.Forall₂ (Happening.Twin (T q) (σ q)) now (own q)
  others : ∀ p, p ≠ q → own p = [] ∧ Waits (T p) (σ p) (share p rest) o.1 (x p).1

/-- All operations have ended. -/
structure Over (T : ι → Set Use) (σ : ι → Link) (done : List (ι × Op)) (o : Outcome)
    (x : ι → Outcome) : Prop extends Parallel T σ done [] (fun _ => []) o x where
  agenda : o.1.agenda = []
  ends : ∀ p, (x p).1.agenda = []
  world : ∀ p, World.Twin (T p) (σ p) (o.1.world.resumeThread home) (x p).1.world

section

variable {T : ι → Set Use} {σ : ι → Link} {τ : Link} {done rest : List (ι × Op)} {now : List Happening}
  {own : ι → List Happening} {o : Outcome} {x : ι → Outcome}

theorem happenings_update (x : ι → Outcome) (q : ι) (y : Outcome) :
    (fun p => (Function.update x q y p).2) = Function.update (fun p => (x p).2) q y.2 :=
  funext fun p => Function.apply_update (fun _ => Prod.snd) x q y p

/-- One party makes a step. -/
theorem Parallel.more (h : Parallel T σ done now own o x) (hT : Pairwise fun p q => Apart (T p) (T q))
    (hj : World.Joint (T q) (σ q) o.1.world (x q).1.world τ o.1.step.1.world (x q).1.step.1.world)
    (hes : List.Forall₂ (Happening.Twin (T q) τ) o.1.step.2 (x q).1.step.2) :
    Parallel T (Function.update σ q τ) done (now ++ o.1.step.2)
      (Function.update own q (own q ++ (x q).1.step.2)) (next o)
      (Function.update x q (next (x q))) where
  contexts := h.contexts.grow (q := q) (by simpa [next] using hj.grows.contexts)
    (fun p hp => by simp [hp]) hj.spares.contexts.length_le
  handles := h.handles.grow (q := q) (by simpa [next] using hj.grows.handles)
    (fun p hp => by simp [hp]) hj.spares.captures.length_le
  reported := by
    have hsilent := not_answered_twin hes
    rw [happenings_update]
    exact h.reported.more q hsilent.1 hsilent.2
  calls p hook hp := by
    have hcalls := h.calls p hook hp
    rw [next, callsTo_append]
    by_cases hpq : p = q
    · subst hpq
      rw [Function.update_self, next, callsTo_append, hcalls, callsTo_twin hes]
    · rw [Function.update_of_ne hpq, callsTo_eq_nil hes ((hT hpq).not_mem hp _), hcalls,
        List.append_nil]

/-- The other parties' own runs go on waiting. -/
theorem Parallel.waits (h : Parallel T σ done now own o x)
    (hT : Pairwise fun p q => Apart (T p) (T q)) (hpq : p ≠ q) {s : State}
    (hs : World.Spares (T q) (σ q) o.1.world s.world) {ops : List Op}
    (hw : Waits (T p) (σ p) ops o.1 (x p).1) : Waits (T p) (σ p) ops s (x p).1 where
  agenda := hw.agenda
  condition := hw.condition
  registered := hw.registered
  world := hw.world.of_spares hs (hT hpq) h.contexts.lt (h.contexts.disjoint hpq) h.handles.lt
    (h.handles.disjoint hpq)

theorem resumeThread_self {w : World} {t : Thread} (h : w.thread = t) : w.resumeThread t = w := by
  subst h
  rfl

theorem step_of_program_cons {s : State} {o : Op} {os : List Op} (hr : s.condition = .running)
    (ha : s.agenda = [.program (o :: os)]) :
    s.step = ({ s with agenda := [.begin o, .report, .program os] }, []) :=
  step_of_running hr ha

/-- The next operation begins. -/
theorem Between.begins {op : Op} (h : Between T σ done ((q, op) :: rest) o x)
    (hT : Pairwise fun p q => Apart (T p) (T q)) :
    ∃ own, Within T σ done q rest [.begin op] [.begin op] [] own (next o)
      (Function.update x q (next (x q))) := by
  have hwaits := h.waits q
  have hs := step_of_program_cons h.condition h.agenda
  have hs' := step_of_program_cons hwaits.condition (share_cons_self q op rest ▸ hwaits.agenda)
  have htwin : World.Twin (T q) (σ q) o.1.world (x q).1.world :=
    resumeThread_self h.thread ▸ hwaits.world
  have hjoint : World.Joint (T q) (σ q) o.1.world (x q).1.world (σ q) o.1.step.1.world
      (x q).1.step.1.world := by
    rw [hs, hs']
    exact htwin.joint
  have hmore := h.toParallel.more hT hjoint (by rw [hs, hs']; exact .nil)
  rw [Function.update_eq_self, hs, List.append_nil] at hmore
  refine ⟨_, { hmore with
    agenda := ?_
    agenda' := ?_
    tasks := .cons (.begin op) .nil
    fits := ?_
    enrolled := ?_
    level := ?_
    heard := ?_
    happenings := ?_
    others := ?_ }⟩
  · rw [next, hs]
    rfl
  · rw [Function.update_self, next, hs']
    rfl
  · rw [next, hs]
    exact h.thread
  · rw [next, hs]
    exact h.registered
  · rw [Function.update_self, next, next, hs, hs']
    exact ⟨htwin, h.condition.trans hwaits.condition.symm,
      h.registered.trans hwaits.registered.symm⟩
  · rw [next, hs]
    exact fun _ => .inr rfl
  · rw [Function.update_self, hs']
    exact .nil
  · intro p hp
    rw [Function.update_of_ne hp, Function.update_of_ne hp]
    have hw := h.waits p
    rw [share_cons_of_ne hp] at hw
    exact ⟨rfl, h.toParallel.waits hT hp hjoint.spares hw⟩

/-- At the report of an operation its answer is given, or the panic that ended it. -/
theorem step_of_report {s : State} {ts : List Task} (ha : s.agenda = .report :: ts)
    (hb : s.condition ≠ .blocked) (hx : s.condition ≠ .aborted) :
    ∃ a, s.step = ({ s with agenda := ts, condition := .running }, [.answered a]) ∧
      (s.condition = .running → a = s.answer) ∧
      ∀ text, s.condition = .unwinding text → a = .panicked text := by
  obtain ⟨w, agenda, answer, condition⟩ := s
  obtain rfl : agenda = .report :: ts := ha
  cases condition with
  | running => exact ⟨answer, rfl, fun _ => rfl, fun _ h => Condition.noConfusion h⟩
  | unwinding text =>
    refine ⟨.panicked text, rfl, fun h => Condition.noConfusion h, fun text' h => ?_⟩
    rw [Condition.unwinding.inj h]
  | blocked => exact absurd rfl hb
  | aborted => exact absurd rfl hx

/-- Both sides report the same answer. -/
theorem Within.reports (h : Within T σ done q rest [] [] now own o x)
    (hb : o.1.condition ≠ .blocked) (hx : o.1.condition ≠ .aborted) :
    ∃ a a', a.plain = a'.plain ∧
      o.1.step = ({ o.1 with agenda := [.program (rest.map (·.2))], condition := .running },
        [.answered a]) ∧
      (x q).1.step = ({ (x q).1 with agenda := [.program (share q rest)], condition := .running },
        [.answered a']) := by
  have hcondition := h.level.condition
  obtain ⟨a, hs, hrun, hunwind⟩ := step_of_report h.agenda hb hx
  obtain ⟨a', hs', hrun', hunwind'⟩ := step_of_report h.agenda' (hcondition ▸ hb) (hcondition ▸ hx)
  refine ⟨a, a', ?_, hs, hs'⟩
  cases hc : o.1.condition with
  | running =>
    rw [hrun hc, hrun' (hcondition.symm.trans hc)]
    rcases h.heard hc with hsame | hset
    · exact hsame
    · rw [h.agenda] at hset
      exact Bool.noConfusion hset
  | unwinding text => rw [hunwind text hc, hunwind' text (hcondition.symm.trans hc)]
  | blocked => exact absurd hc hb
  | aborted => exact absurd hc hx

/-- The operation ends, with the same answer on both sides. -/
theorem Within.answers {xs' : List Task} (h : Within T σ done q rest [] xs' now own o x) (op : Op)
    (hb : o.1.condition ≠ .blocked) (hx : o.1.condition ≠ .aborted) :
    Between T σ (done ++ [(q, op)]) rest (next o) (Function.update x q (next (x q))) := by
  obtain rfl := List.forall₂_nil_left_iff.mp h.tasks
  obtain ⟨a, a', ha, hs, hs'⟩ := h.reports hb hx
  have hthread : o.1.world.thread = home := h.fits
  have hregistered : o.1.registered = [] := h.enrolled
  have ho : next o = (({ o.1 with agenda := [.program (rest.map (·.2))], condition := .running } :
      State), o.2 ++ [.answered a]) := by
    rw [next, hs]
  have hq : next (x q) = (({ (x q).1 with
      agenda := [.program (share q rest)], condition := .running } : State),
      (x q).2 ++ [.answered a']) := by
    rw [next, hs']
  rw [ho, hq]
  exact {
    contexts := h.contexts
    handles := h.handles
    reported := by
      rw [happenings_update]
      exact h.reported.answered q op (fun p hp => (h.others p hp).1)
        (Report.of_twin h.happenings ha)
    calls := fun p hook hp => by
      have hcalls := h.calls p hook hp
      have hnone : ∀ a, callsTo hook [.answered a] = [] := fun _ => rfl
      rw [callsTo_append, hnone, List.append_nil]
      by_cases hpq : p = q
      · subst hpq
        rw [Function.update_self, callsTo_append, hnone, List.append_nil, hcalls]
      · rw [Function.update_of_ne hpq, hcalls]
    agenda := rfl
    condition := rfl
    registered := hregistered
    thread := hthread
    waits := fun p => by
      by_cases hpq : p = q
      · subst hpq
        rw [Function.update_self]
        exact ⟨rfl, rfl, h.level.registered.symm.trans hregistered,
          (resumeThread_self hthread).symm ▸ h.level.world⟩
      · rw [Function.update_of_ne hpq]
        have hw := (h.others p hpq).2
        exact ⟨hw.agenda, hw.condition, hw.registered, hw.world⟩ }

/-- The operation goes on, in lockstep. -/
theorem Within.goes {t : Task} {ts xs' : List Task}
    (h : Within T σ done q rest (t :: ts) xs' now own o x)
    (hT : Pairwise fun p q => Apart (T p) (T q)) (hu : ∀ u ∈ (x q).1.uses, u ∈ T q)
    (hb : o.1.condition ≠ .blocked) (hx : o.1.condition ≠ .aborted) :
    ∃ τ ys ys', Within T (Function.update σ q τ) done q rest ys ys' (now ++ o.1.step.2)
      (Function.update own q (own q ++ (x q).1.step.2)) (next o)
      (Function.update x q (next (x q))) := by
  obtain ⟨t', ts', ht, hts, rfl⟩ := List.forall₂_cons_left_iff.mp h.tasks
  obtain ⟨hpaired, hheard⟩ := step_paired h.level h.agenda h.agenda' ht hu h.heard hb hx
  obtain ⟨τ, ps, ps', hjoint, hps, hps', htasks, hcond, hlist, hes, -, -⟩ := hpaired
  have hmore := h.toParallel.more hT hjoint hes
  obtain ⟨ys, hys, hfits⟩ := fits_step (t :: ts) _ h.agenda (by simp) h.fits
  obtain ⟨zs, hzs, henrolled⟩ := enrolled_step (t :: ts) _ h.agenda (by simp) h.enrolled
  obtain rfl : zs = ys := List.append_cancel_right (hzs.symm.trans hys)
  have hagenda : o.1.step.1.agenda = ps ++ ts ++ [.report, .program (rest.map (·.2))] := by
    rw [hps, List.append_assoc]
    rfl
  obtain rfl : zs = ps ++ ts := List.append_cancel_right (hys.symm.trans hagenda)
  refine ⟨τ, ps ++ ts, ps' ++ ts', { hmore with
    agenda := hagenda
    agenda' := ?_
    tasks := ?_
    fits := hfits
    enrolled := henrolled
    level := ?_
    heard := ?_
    happenings := ?_
    others := ?_ }⟩
  · rw [Function.update_self, next, hps', List.append_assoc]
    rfl
  · rw [Function.update_self]
    exact List.rel_append htasks (hts.imp fun _ _ ht => ht.mono hjoint.grows)
  · rw [Function.update_self, Function.update_self]
    exact ⟨hjoint.twin, hcond, hlist⟩
  · rw [Function.update_self]
    exact hheard
  · rw [Function.update_self, Function.update_self]
    exact List.rel_append (h.happenings.imp fun _ _ he => he.mono hjoint.grows) hes
  · intro p hp
    rw [Function.update_of_ne hp, Function.update_of_ne hp, Function.update_of_ne hp]
    obtain ⟨hown, hw⟩ := h.others p hp
    exact ⟨hown, h.toParallel.waits hT hp hjoint.spares hw⟩

/-- There is no operation left. -/
theorem Between.ends (h : Between T σ done [] o x) : Over T σ done (next o) fun p => next (x p) := by
  have hs : ∀ {s : State}, s.condition = .running → s.agenda = [.program []] →
      s.step = ({ s with agenda := [] }, []) := fun hr ha => step_of_running hr ha
  have ho := hs h.condition h.agenda
  have hx := fun p => hs (h.waits p).condition (h.waits p).agenda
  have hstill : ∀ p, next (x p) = (({ (x p).1 with agenda := [] } : State), (x p).2) := fun p => by
    rw [next, hx, List.append_nil]
  have hown : (fun p => next (x p)) = fun p => (({ (x p).1 with agenda := [] } : State), (x p).2) :=
    funext hstill
  rw [hown, next, ho, List.append_nil]
  exact {
    contexts := h.contexts
    handles := h.handles
    reported := h.reported
    calls := h.calls
    agenda := rfl
    ends := fun _ => rfl
    world := fun p => (h.waits p).world }

end

/-! ### The shared run and the runs of single parties -/

variable {clock : Clock} {l : List (ι × Op)}

/-- What a party uses when it runs alone. -/
def usedBy (clock : Clock) (l : List (ι × Op)) (p : ι) : Set Use := used ⟨share p l, clock⟩

/-- What a party sees of a shared run is what it sees when it runs alone. -/
structure Indistinct (clock : Clock) (l : List (ι × Op)) (p : ι) (o x : Outcome) : Prop where
  reports : (reportsTo p l (Report.split [] o.2)).map Report.plain =
    (Report.split [] x.2).map Report.plain
  records : ∀ name, Owns (usedBy clock l p) (.handle name) →
    o.1.world.recordsOf name = x.1.world.recordsOf name
  octets : ∀ id, Owns (usedBy clock l p) (.buffer id) →
    o.1.world.buffers.get? id = x.1.world.buffers.get? id
  calls : ∀ hook, Owns (usedBy clock l p) (.hook hook) → callsTo hook o.2 = callsTo hook x.2
  ends : o.1.agenda = [] → x.1.agenda = []

/-- No party notices the others. -/
structure Independent (clock : Clock) (l : List (ι × Op)) : Prop where
  /-- At any time the party has seen what it sees when it runs alone up to some time. -/
  sees : ∀ n p, ∃ m, Indistinct clock l p (together clock l n) (alone clock p l m)
  /-- The shared run ends if those of the parties do. -/
  ends : (∀ p, ∃ m, (alone clock p l m).1.agenda = []) → ∃ n, (together clock l n).1.agenda = []

/-- Runs of the parties, each up to some time. -/
def Alone (clock : Clock) (l : List (ι × Op)) (x : ι → Outcome) : Prop := ∀ p, ∃ m, x p = alone clock p l m

theorem Alone.uses {x : ι → Outcome} (h : Alone clock l x) (q : ι) : ∀ u ∈ (x q).1.uses, u ∈ usedBy clock l q := by
  intro u hu
  obtain ⟨m, hm⟩ := h q
  rw [hm] at hu
  exact ⟨m, hu⟩

theorem alone_succ (clock : Clock) (p : ι) (l : List (ι × Op)) (m : Nat) : alone clock p l (m + 1) = next (alone clock p l m) :=
  run_next m _

theorem together_succ {ι : Type} (clock : Clock) (l : List (ι × Op)) (n : Nat) :
    together clock l (n + 1) = next (together clock l n) :=
  run_next n _

theorem Alone.next {x : ι → Outcome} (h : Alone clock l x) (q : ι) :
    Alone clock l (Function.update x q (next (x q))) := by
  intro p
  obtain ⟨m, hm⟩ := h p
  by_cases hp : p = q
  · subst hp
    exact ⟨m + 1, by rw [Function.update_self, hm, alone_succ]⟩
  · exact ⟨m, by rw [Function.update_of_ne hp, hm]⟩

/-- Where the shared run is. -/
inductive Stage (clock : Clock) (l : List (ι × Op)) (o : Outcome) (x : ι → Outcome) : Prop
  | between (σ : ι → Link) (done rest : List (ι × Op)) (split : l = done ++ rest)
    (h : Between (usedBy clock l) σ done rest o x)
  | within (σ : ι → Link) (done : List (ι × Op)) (q : ι) (op : Op) (rest : List (ι × Op))
    (xs xs' : List Task) (now : List Happening) (own : ι → List Happening)
    (split : l = done ++ (q, op) :: rest) (h : Within (usedBy clock l) σ done q rest xs xs' now own o x)
  | ended (σ : ι → Link) (h : Over (usedBy clock l) σ l o x)

section

variable {o : Outcome} {x : ι → Outcome}

theorem between_start (hT : Pairwise fun p q => Apart (usedBy clock l p) (usedBy clock l q)) :
    Between (usedBy clock l) (fun p => .initial (usedBy clock l p)) [] l (together clock l 0) fun p => alone clock p l 0 := by
  have hlook : ∀ p, Owns (usedBy clock l p) (.context .global) → Looks (usedBy clock l p) := fun p ⟨n, hn⟩ => by
    refine ⟨.look, nofun, n, ?_⟩
    unfold uses at hn ⊢
    split at hn
    · exact Op.look_of_global hn
    · cases hn
  refine {
    contexts := ⟨?_, ?_⟩
    handles := ⟨fun h => h.elim, fun _ _ _ _ h => h.elim⟩
    reported := ⟨[], .nil, rfl, fun _ => ⟨[], .nil, rfl⟩⟩
    calls := fun _ _ _ => rfl
    agenda := rfl
    condition := rfl
    registered := rfl
    thread := rfl
    waits := fun p => ⟨rfl, rfl, rfl, World.twin_initial (hlook p) clock⟩ }
  · rintro p a b ⟨rfl, -⟩
    exact Nat.zero_lt_one
  · -- only one party uses the global context
    rintro p q hpq a b d ⟨-, -, hp⟩ ⟨-, -, hq⟩
    exact (hT hpq).not_mem hp _ hq

theorem Parallel.indistinct {σ : ι → Link} {done rest : List (ι × Op)} {now : List Happening}
    {own : ι → List Happening} (h : Parallel (usedBy clock l) σ done now own o x) (hl : l = done ++ rest)
    {p : ι} {t : Thread}
    (hw : World.Twin (usedBy clock l p) (σ p) (o.1.world.resumeThread t) (x p).1.world)
    (hends : o.1.agenda = [] → (x p).1.agenda = []) : Indistinct clock l p o (x p) where
  reports := by
    obtain ⟨rs, htells, hlength, hown⟩ := h.reported
    obtain ⟨rs', htells', heq⟩ := hown p
    rw [htells.split_eq, htells'.split_eq, hl, reportsTo_append_left hlength, heq]
  records name hname := hw.recordsOf hname
  octets id hid := optionRel_eq (hw.buffers id hid)
  calls := h.calls p
  ends := hends

theorem Stage.indistinct (h : Stage clock l o x) (p : ι) : Indistinct clock l p o (x p) := by
  cases h with
  | between σ done rest hl h =>
    refine h.toParallel.indistinct hl (h.waits p).world fun ha => ?_
    rw [h.agenda] at ha
    cases ha
  | within σ done q op rest xs xs' now own hl h =>
    have hends : o.1.agenda = [] → (x p).1.agenda = [] := fun ha => by
      rw [h.agenda] at ha
      simp at ha
    by_cases hp : p = q
    · subst hp
      exact h.toParallel.indistinct hl (t := o.1.world.thread) h.level.world hends
    · exact h.toParallel.indistinct hl (h.others p hp).2.world hends
  | ended σ h =>
    exact h.toParallel.indistinct (List.append_nil l).symm (h.world p) fun _ => h.ends p

theorem next_of_halted (h : o.1.halted = true) : next o = o := by
  rw [next, step_of_halted h, List.append_nil]

/-- A step of the shared run is a step of the party whose turn it is, if of anyone. -/
theorem Stage.next (h : Stage clock l o x) (hT : Pairwise fun p q => Apart (usedBy clock l p) (usedBy clock l q))
    (hx : Alone clock l x) : ∃ x', Alone clock l x' ∧ Stage clock l (next o) x' := by
  cases h with
  | between σ done rest hl h =>
    cases rest with
    | nil =>
      obtain rfl : l = done := hl.trans (List.append_nil done)
      refine ⟨_, fun p => ?_, .ended σ h.ends⟩
      obtain ⟨m, hm⟩ := hx p
      exact ⟨m + 1, by rw [hm, alone_succ]⟩
    | cons e rest =>
      obtain ⟨q, op⟩ := e
      obtain ⟨own, h⟩ := h.begins hT
      exact ⟨_, hx.next q, .within σ done q op rest _ _ _ own hl h⟩
  | within σ done q op rest xs xs' now own hl h =>
    by_cases hstop : o.1.condition = .blocked ∨ o.1.condition = .aborted
    · rw [next_of_halted (halted_of_condition hstop)]
      exact ⟨x, hx, .within σ done q op rest xs xs' now own hl h⟩
    · obtain ⟨hb, ha⟩ := not_or.mp hstop
      cases xs with
      | nil =>
        refine ⟨_, hx.next q, .between σ (done ++ [(q, op)]) rest ?_ (h.answers op hb ha)⟩
        rw [hl, List.append_assoc, List.singleton_append]
      | cons t ts =>
        obtain ⟨τ, ys, ys', h⟩ := h.goes hT (hx.uses q) hb ha
        exact ⟨_, hx.next q, .within _ done q op rest ys ys' _ _ hl h⟩
  | ended σ h =>
    rw [next_of_halted (halted_of_agenda h.agenda)]
    exact ⟨x, hx, .ended σ h⟩

theorem exists_stage (hT : Pairwise fun p q => Apart (usedBy clock l p) (usedBy clock l q)) (n : Nat) :
    ∃ x, Alone clock l x ∧ Stage clock l (together clock l n) x := by
  induction n with
  | zero => exact ⟨_, fun p => ⟨0, rfl⟩, .between _ [] l rfl (between_start hT)⟩
  | succ n ih =>
    obtain ⟨x, hx, h⟩ := ih
    rw [together_succ]
    exact h.next hT hx

/-! ### The shared run ends -/

/-- A run that ends has not stopped before. -/
theorem going_of_ends {s : State} {d : Nat} (h : s.agenda ≠ []) (hd : (run d s).1.agenda = []) :
    s.condition ≠ .blocked ∧ s.condition ≠ .aborted := by
  refine not_or.mp fun hstop => h ?_
  rwa [run_of_halted (halted_of_condition hstop)] at hd

theorem agenda_of_ends {s : State} {d : Nat} (h : (run d s).1.agenda = []) (m : Nat) :
    (run (m + d) s).1.agenda = [] := by
  rw [Nat.add_comm, run_add, run_of_halted (halted_of_agenda h)]
  exact h

/-- An operation ends that ends when its party runs alone. -/
theorem Within.finishes {σ : ι → Link} {done rest : List (ι × Op)} {xs xs' : List Task}
    {now : List Happening} {own : ι → List Happening} {n m d : Nat}
    (h : Within (usedBy clock l) σ done q rest xs xs' now own (together clock l n) x) (op : Op)
    (hT : Pairwise fun p q => Apart (usedBy clock l p) (usedBy clock l q)) (hx : Alone clock l x)
    (hm : x q = alone clock q l m) (hd : (alone clock q l (m + d)).1.agenda = []) :
    ∃ n' σ' x', Alone clock l x' ∧
      Between (usedBy clock l) σ' (done ++ [(q, op)]) rest (together clock l n') x' := by
  have hne : (x q).1.agenda ≠ [] := by
    rw [h.agenda']
    simp
  induction d generalizing σ xs xs' now own n m x with
  | zero => exact absurd (hm ▸ hd) hne
  | succ d ih =>
    have hgoing : (run (d + 1) (x q).1).1.agenda = [] := by
      rw [hm]
      rwa [alone, run_add] at hd
    obtain ⟨hb, ha⟩ := going_of_ends hne hgoing
    rw [← h.level.condition] at hb ha
    cases xs with
    | nil => exact ⟨n + 1, σ, _, hx.next q, together_succ clock l n ▸ h.answers op hb ha⟩
    | cons t ts =>
      obtain ⟨τ, ys, ys', h⟩ := h.goes hT (hx.uses q) hb ha
      rw [← together_succ] at h
      refine ih h (hx.next q) (m := m + 1) ?_ ?_ ?_
      · rw [Function.update_self, hm, alone_succ]
      · rwa [Nat.add_right_comm, Nat.add_assoc]
      · rw [h.agenda']
        simp

theorem Between.finishes {σ : ι → Link} {done rest : List (ι × Op)} {n : Nat}
    (h : Between (usedBy clock l) σ done rest (together clock l n) x)
    (hT : Pairwise fun p q => Apart (usedBy clock l p) (usedBy clock l q)) (hx : Alone clock l x)
    (hends : ∀ p, ∃ m, (alone clock p l m).1.agenda = []) : ∃ n', (together clock l n').1.agenda = [] := by
  induction rest generalizing σ done n x with
  | nil => exact ⟨n + 1, together_succ clock l n ▸ h.ends.agenda⟩
  | cons e rest ih =>
    obtain ⟨q, op⟩ := e
    obtain ⟨own, hwithin⟩ := h.begins hT
    rw [← together_succ] at hwithin
    obtain ⟨m, hm⟩ := hx.next q q
    obtain ⟨d, hd⟩ := hends q
    obtain ⟨n', σ', x', hx', h⟩ := hwithin.finishes op hT (hx.next q) hm (agenda_of_ends hd m)
    exact ih h hx'

end

/-- **Independence**: parties that do not use what another one uses do not notice each other, in
whatever order their operations come. -/
theorem parties_independent (clock : Clock) (l : List (ι × Op))
    (h : Pairwise fun p q => Apart (usedBy clock l p) (usedBy clock l q)) : Independent clock l where
  sees n p := by
    obtain ⟨x, hx, hstage⟩ := exists_stage h n
    obtain ⟨m, hm⟩ := hx p
    exact ⟨m, hm ▸ hstage.indistinct p⟩
  ends hends := by
    exact (between_start h).finishes h (fun p => ⟨0, rfl⟩) hends

/-- One party logs to a context of its own, another one to the global context. -/
def duet : List (Bool × Op) :=
  [(true, .create "c" (some (.memory (some "h") none)) Gate.unrestricted),
    (false, .setFunction (some .firstListener)),
    (true, .log (.named "c") .info .rpc [.text "a"]),
    (false, .log .global .warning .rpc [.text "b"]),
    (true, .onStore (.records "h"))]

theorem duet_independent :
    (Pairwise fun p q => Apart (usedBy .epoch duet p) (usedBy .epoch duet q)) ∧ Independent .epoch duet := by
  have own : ∀ u ∈ usedBy .epoch duet true, u ∈ [⟨.context (.named "c"), .change⟩, ⟨.handle "h", .change⟩] :=
    fun u ⟨k, hk⟩ => mem_of_mem_uses (n := 14) (by decide) (by decide) k u hk
  have shared : ∀ u ∈ usedBy .epoch duet false,
      u ∈ [⟨.context .global, .change⟩, .look, ⟨.hook .firstListener, .change⟩] :=
    fun u ⟨k, hk⟩ => mem_of_mem_uses (n := 16) (by decide) (by decide) k u hk
  have apart : Apart (usedBy .epoch duet true) (usedBy .epoch duet false) := fun u hu v hv => by
    have hall : ∀ u ∈ [⟨.context (.named "c"), .change⟩, ⟨.handle "h", .change⟩],
        ∀ v ∈ [⟨.context .global, .change⟩, Use.look, ⟨.hook .firstListener, .change⟩],
        Use.conflicts u v = false := by decide
    exact hall u (own u hu) v (shared v hv)
  have h : Pairwise fun p q => Apart (usedBy .epoch duet p) (usedBy .epoch duet q) := by
    intro p q hpq
    cases p <;> cases q
    · exact absurd rfl hpq
    · exact apart.symm
    · exact apart
    · exact absurd rfl hpq
  exact ⟨h, parties_independent .epoch duet h⟩

end State

end GatedLog
