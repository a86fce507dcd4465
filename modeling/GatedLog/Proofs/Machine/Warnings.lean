import GatedLog.Proofs.Machine.Announcements
import GatedLog.Proofs.Machine.ForeignCalls
import GatedLog.Proofs.Machine.Happenings
import GatedLog.Proofs.Reading.Literals
import GatedLog.Proofs.Rejections

/-!
# Warnings about codes

A code that names nothing is rejected, whether it is converted in the library or comes with a call from
outside. Such a call gives one warning, and every warning of a run comes from such a call
(`State.exists_code_of_warning`). The warning has the text of the error, which shows the code, so that
the code can be read back from it, and different codes give different texts (`State.codes_traceable`).
-/

namespace GatedLog

/-! ### Codes that are rejected -/

theorem Component.ofCode_eq_error_iff {n : Int32} {why : Rejection} :
    ofCode n = .error why ↔ (∀ k : Component, k.code ≠ n) ∧ why = .componentCode n := by
  constructor
  · intro h
    have hne : ∀ k : Component, k.code ≠ n := fun k hk => by
      rw [ofCode_eq_ok_iff.mpr hk] at h
      cases h
    rw [ofCode_of_ne hne] at h
    exact ⟨hne, (Except.error.inj h).symm⟩
  · rintro ⟨hne, rfl⟩
    exact ofCode_of_ne hne

theorem Severity.ofCode_eq_error_iff {n : Int32} {why : Rejection} :
    ofCode n = .error why ↔ (∀ s : Severity, s.code ≠ n) ∧ why = .severityCode n := by
  constructor
  · intro h
    have hne : ∀ s : Severity, s.code ≠ n := fun s hs => by
      rw [ofCode_eq_ok_iff.mpr hs] at h
      cases h
    rw [ofCode_of_ne hne] at h
    exact ⟨hne, (Except.error.inj h).symm⟩
  · rintro ⟨hne, rfl⟩
    exact ofCode_of_ne hne

namespace CodeCall

/-- The conversion of the code of a call gives an error. -/
inductive Fails : CodeCall → Int32 → Rejection → Prop
  | enable {n : Int32} {why : Rejection} (h : Component.ofCode n = .error why) : Fails .enable n why
  | disable {n : Int32} {why : Rejection} (h : Component.ofCode n = .error why) :
    Fails .disable n why
  | level {n : Int32} {why : Rejection} (h : Severity.ofCode n = .error why) : Fails .level n why

variable {call call' : CodeCall} {m n : Int32} {why why' : Rejection} {o : ContextOp}

theorem Fails.why_eq (h : Fails call n why) : why = call.rejection n := by
  cases h with
  | enable h => exact (Component.ofCode_eq_error_iff.mp h).2
  | disable h => exact (Component.ofCode_eq_error_iff.mp h).2
  | level h => exact (Severity.ofCode_eq_error_iff.mp h).2

/-- What means something is not rejected. -/
theorem Means.not_fails (h : Means call n o) : ¬ Fails call n why := by
  intro hfails
  cases h with
  | enable k =>
    obtain ⟨hk⟩ := hfails
    exact (Component.ofCode_eq_error_iff.mp hk).1 k rfl
  | disable k =>
    obtain _ | ⟨hk⟩ := hfails
    exact (Component.ofCode_eq_error_iff.mp hk).1 k rfl
  | level s =>
    obtain _ | _ | ⟨hs⟩ := hfails
    exact (Severity.ofCode_eq_error_iff.mp hs).1 s rfl

theorem Fails.not_mem_codes (h : Fails call n why) : n ∉ call.codes := fun hn => by
  obtain ⟨o, ho⟩ := exists_means_iff.mpr hn
  exact ho.not_fails h

theorem fails_of_not_mem (h : n ∉ call.codes) : Fails call n (call.rejection n) := by
  have hmeans : ∀ o, ¬ Means call n o := fun o ho => h (exists_means_iff.mp ⟨o, ho⟩)
  cases call with
  | enable =>
    refine .enable (Component.ofCode_eq_error_iff.mpr ⟨?_, rfl⟩)
    rintro k rfl
    exact hmeans _ (.enable k)
  | disable =>
    refine .disable (Component.ofCode_eq_error_iff.mpr ⟨?_, rfl⟩)
    rintro k rfl
    exact hmeans _ (.disable k)
  | level =>
    refine .level (Severity.ofCode_eq_error_iff.mpr ⟨?_, rfl⟩)
    rintro s rfl
    exact hmeans _ (.level s)

/-- Errors with the same text blame the same code, whatever call it came with. -/
theorem Fails.code_eq (h : Fails call m why) (h' : Fails call' n why')
    (ht : why.message = why'.message) : m = n := by
  have hwhy := Rejection.message_injective ht
  rw [h.why_eq, h'.why_eq] at hwhy
  cases call <;> cases call' <;> cases hwhy <;> rfl

end CodeCall

namespace Event

/-- The text in the field `error`. -/
def errorText? (e : Event) : Option String :=
  match e.fields.lookup "error" with
  | some (.text t) => some t
  | _ => none

/-- The event warns of a code that was rejected. -/
def Warns (e : Event) (n : Int32) : Prop :=
  ∃ call why, CodeCall.Fails call n why ∧ e = .callRejected call.function why

/-- The event is about a call from outside. -/
def isWarning : Event → Bool
  | callRejected _ _ => true
  | _ => false

variable {e e' : Event} {m n : Int32}

theorem errorText?_callRejected (f : String) (why : Rejection) :
    (callRejected f why).errorText? = some why.message := rfl

theorem isWarning_of_target (h : e.target = "hdfspp_log::ffi") : e.isWarning = true := by
  cases e with
  | callRejected f why => rfl
  | _ => simp [target] at h

/-- Warnings with the same text are about the same code. -/
theorem Warns.code_eq (h : e.Warns m) (h' : e'.Warns n) (ht : e.errorText? = e'.errorText?) :
    m = n := by
  obtain ⟨call, why, hfails, rfl⟩ := h
  obtain ⟨call', why', hfails', rfl⟩ := h'
  rw [errorText?_callRejected, errorText?_callRejected] at ht
  exact hfails.code_eq hfails' (Option.some.inj ht)

end Event

/-! ### Where warnings come from -/

/-- No warning about a call from outside. -/
def Happening.isCalm : Happening → Bool
  | emitted e => !e.isWarning
  | _ => true

namespace State

variable {s : State} {e : Event} {n : Int32}

theorem commonplace_calm : Commonplace fun x => x.isCalm = true where
  made _ := rfl
  added _ _ := rfl
  rendered _ _ := rfl
  configured _ := rfl
  flushed _ _ := rfl
  bufferFlushed _ := rfl
  destroyed _ := rfl
  noted _ := rfl
  answered _ := rfl

theorem calm_of_outward {x : Happening} (h : x.isOutward = true) : x.isCalm = true := by
  cases x with
  | emitted e => cases e <;> first | rfl | cases h
  | _ => rfl

/-- What operations by code come to begin with. -/
theorem exists_call_of_isByCode {o : Op} (h : o.isByCode = true) :
    ∃ (call : CodeCall) (code : Int32), o = call.op code := by
  cases o with
  | enableCode code => exact ⟨.enable, code, rfl⟩
  | disableCode code => exact ⟨.disable, code, rfl⟩
  | levelCode code => exact ⟨.level, code, rfl⟩
  | _ => cases h

theorem begin_of_fails {call : CodeCall} {why : Rejection} (h : call.Fails n why) :
    s.begin (call.op n) = (s.respond (.status 1), [.emitted (.callRejected call.function why)]) := by
  rw [begin_of_not_mem_codes h.not_mem_codes, h.why_eq]

/-- A warning in a step comes from a call, unless it was on the agenda. -/
theorem warns_step (h : .emitted e ∈ s.step.2) (hw : e.isWarning = true) :
    (∃ ts, s.agenda = .emit e :: ts) ∨
      ∃ (call : CodeCall) (code : Int32) (ts : List Task),
        s.agenda = .begin (call.op code) :: ts ∧ e.Warns code := by
  have calm : ¬ Only (fun x => x.isCalm = true) s.step := fun hcalm => by
    have he : (!e.isWarning) = true := hcalm _ h
    rw [hw] at he
    cases he
  rcases s.step_only commonplace_calm with hcalm | ⟨t, ts, hr, ha, ht⟩
  · exact absurd hcalm calm
  have hstep : s.step = ({ s with agenda := ts } : State).perform t := step_of_running hr ha
  rw [hstep] at h calm
  cases t with
  | drop m =>
    exact absurd (drop_only (fun _ => rfl) (fun _ _ _ => rfl) (fun _ => calm_of_outward) _ m) calm
  | write c m => exact absurd (write_only (fun _ _ _ => rfl) (fun _ => calm_of_outward) _ c m) calm
  | forward b m =>
    have houtward := (s.world.outward_receive m b.kind).happenings
    exact absurd (fun x hx => calm_of_outward (houtward x hx)) calm
  | emit e' =>
    obtain rfl : e = e' := Happening.emitted.inj (List.mem_singleton.mp h)
    exact .inl ⟨ts, ha⟩
  | «begin» o =>
    have ho : o.isByCode = true := by simpa [Task.isCommon] using ht
    obtain ⟨call, code, rfl⟩ := exists_call_of_isByCode ho
    refine .inr ⟨call, code, ts, ha, ?_⟩
    by_cases hcode : code ∈ call.codes
    · obtain ⟨o, ho⟩ := CodeCall.exists_means_iff.mpr hcode
      rw [perform, begin_of_means ho] at calm
      exact absurd (Only.onContext _ o _) calm
    · have hfails := CodeCall.fails_of_not_mem hcode
      rw [perform, begin_of_fails hfails] at h
      exact ⟨call, _, hfails, Happening.emitted.inj (List.mem_singleton.mp h)⟩
  | _ => cases ht

/-- The news on the agenda of a run is about swaps. -/
theorem not_isWarning_of_emit {program : Program} {k : Nat} {ts : List Task}
    (ha : (run k (start program)).1.agenda = .emit e :: ts) : e.isWarning = false := by
  rcases exists_pending [] ha with ⟨ys, hys⟩ | ⟨j, c, next, hpending⟩
  · -- at first there is only the program
    obtain ⟨-, hnil⟩ | ⟨zs, -, hnil⟩ := List.cons_eq_append_iff.mp hys
    · cases hnil
    · cases zs <;> cases hnil
  · obtain ⟨-, rfl⟩ | ⟨-, rfl⟩ := hpending.access <;> cases next <;> rfl

/-- A warning in a run comes from a call whose code was rejected. -/
theorem exists_code_of_warning {program : Program} {i : Nat}
    (h : .emitted e ∈ (run i (start program)).2) (hw : e.isWarning = true) : ∃ code, e.Warns code := by
  obtain ⟨k, -, hk⟩ := mem_run h
  rcases warns_step hk hw with ⟨ts, ha⟩ | ⟨call, code, ts, -, hwarns⟩
  · rw [not_isWarning_of_emit ha] at hw
    cases hw
  · exact ⟨code, hwarns⟩

/-! ### The rule -/

/-- How a code that names nothing can be traced back from what is said about it. -/
structure CodesTraceable : Prop where
  /-- The error of a code that names no component shows its word in hexadecimal, -/
  component {n : Int32} (h : ∀ k : Component, k.code ≠ n) :
    ∃ why ds, Component.ofCode n = .error why ∧ Rejection.ShowsWord why.message n ds
  /-- and that of a code that is out of the range of severities shows the integer in decimal. -/
  severity {n : Int32} (h : n.toInt < 0 ∨ 4 < n.toInt) :
    ∃ why ds, Severity.ofCode n = .error why ∧ Rejection.ShowsInteger why.message n ds
  /-- Different codes have errors with different texts, -/
  distinct {call call' : CodeCall} {m n : Int32} {why why' : Rejection}
    (h : call.Fails m why) (h' : call'.Fails n why') (hne : m ≠ n) : why.message ≠ why'.message
  /-- which a call from outside that comes with the code puts into one warning. -/
  warned {s : State} {call : CodeCall} {n : Int32} {why : Rejection} {ts : List Task}
    (h : call.Fails n why) (hr : s.condition = .running)
    (ha : s.agenda = .begin (call.op n) :: ts) :
    ∃ e, s.step.2 = [.emitted e] ∧ e.Warns n ∧ e.errorText? = some why.message
  /-- The warnings of a run all come from such calls. -/
  traced {program : Program} {i : Nat} {e : Event} (h : .emitted e ∈ (run i (start program)).2)
    (ht : e.target = "hdfspp_log::ffi") : ∃ n, e.Warns n
  /-- Those of different codes have different texts. -/
  told {e e' : Event} {m n : Int32} (h : e.Warns m) (h' : e'.Warns n) (hne : m ≠ n) :
    e.errorText? ≠ e'.errorText?

/-- **A rejected code can be traced back** from the text of its error, and from that of the warning
about a call from outside. -/
theorem codes_traceable : CodesTraceable where
  component h :=
    ⟨_, _, Component.ofCode_of_ne h, Rejection.componentCode_shows _⟩
  severity {n} h := by
    have hne : ∀ s : Severity, s.code ≠ n := fun s hs => by
      have hnone := Severity.ofCode?_eq_none_iff.mpr h
      rw [Severity.ofCode?_eq_some.mpr hs] at hnone
      cases hnone
    exact ⟨_, _, Severity.ofCode_of_ne hne, Rejection.severityCode_shows n⟩
  distinct h h' hne ht := hne (h.code_eq h' ht)
  warned h hr ha := by
    refine ⟨_, ?_, ⟨_, _, h, rfl⟩, Event.errorText?_callRejected ..⟩
    rw [step_of_running hr ha, perform, begin_of_fails h]
  traced h ht := exists_code_of_warning h (Event.isWarning_of_target ht)
  told h h' hne ht := hne (h.code_eq h' ht)

end State

end GatedLog
