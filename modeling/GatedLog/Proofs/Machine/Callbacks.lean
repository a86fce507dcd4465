import GatedLog.Proofs.Machine.Admission
import GatedLog.Proofs.Machine.Happenings
import GatedLog.Proofs.Machine.Outlets

/-!
# Calls back

A forwarding backend with a callback tells it of every message that it is handed and that is worth
reporting, once and at once, and nobody else calls it (`calls_back`). The record says which severity
and which component the message has, and gives its text up to the first NUL.
-/

namespace GatedLog

/-- The calls back among some happenings. -/
def calls (hs : List Happening) : List (Hook × ForeignRecord) := hs.filterMap Happening.call?

theorem calls_append (hs is : List Happening) : calls (hs ++ is) = calls hs ++ calls is :=
  List.filterMap_append

/-- Nothing is handed to a backend, and no callback is called. -/
def Happening.isAside : Happening → Bool
  | delivered _ _ _ => false
  | called _ _ => false
  | _ => true

section Asides

variable {hs : List Happening}

theorem calls_of_aside (h : ∀ e ∈ hs, e.isAside = true) : calls hs = [] := by
  refine List.filterMap_eq_nil_iff.mpr fun e he => ?_
  have hside := h e he
  cases e <;> first | rfl | cases hside

theorem deliveries_of_aside (h : ∀ e ∈ hs, e.isAside = true) : deliveries hs = [] := by
  refine List.filterMap_eq_nil_iff.mpr fun e he => ?_
  have hside := h e he
  cases e <;> first | rfl | cases hside

end Asides

/-! ### What a callback is told -/

/-- What a backend tells its callback of a message, if it has one. -/
def BackendKind.told (m : Message) : BackendKind → List (Hook × ForeignRecord)
  | forwarding (some hook) => if m.worth then [(hook, World.recordOf m)] else []
  | _ => []

namespace World

theorem calls_record (w : World) (m : Message) (k : BackendKind) (hw : m.worth = true) :
    calls (w.record m k).happenings = k.told m := by
  cases k with
  | forwarding hook =>
    cases hook with
    | none => rfl
    | some hook =>
      rw [BackendKind.told, if_pos hw]
      rfl
  | console layout buffer => cases buffer <;> rfl
  | _ => rfl

/-- Whatever a backend does with a message, it tells its callback of it. -/
theorem calls_receive (w : World) (m : Message) (k : BackendKind) :
    calls (w.receive m k).happenings = k.told m := by
  cases hw : m.worth with
  | false =>
    rw [receive_of_not_worth hw]
    cases k with
    | forwarding hook => cases hook <;> simp [BackendKind.told, calls, hw]
    | _ => rfl
  | true =>
    cases k with
    | custom tag onWrite onFlush onDestroy onName => rfl
    | _ =>
      have hrecord := calls_record w m
      simp only [receive, hw, if_true]
      exact hrecord _ hw

end World

namespace ForeignRecord

/-- What a record says of a message. -/
structure Tells (r : ForeignRecord) (m : Message) : Prop where
  severity : Severity.ofCode? r.level = some m.severity
  component : Component.ofCode? r.component = some m.component
  /-- The octets of the text in front of its first NUL. -/
  text : r.text = some (Text.Utf8.encode (Text.untilNul m.text))
  /-- They make a foreign text, and nothing has to be put in its place. -/
  made : terminated? (Text.Utf8.encode (Text.untilNul m.text)) = r.text
  /-- They are what is in front of the first zero among all octets of the text. -/
  cut : r.text = some (visible (Text.Utf8.encode m.text))
  whole : '\x00' ∉ m.text.toList → r.text = some (Text.Utf8.encode m.text)
  empty : m.text.toList.head? = some '\x00' → r.text = some []
  nonzero : ∀ octets ∈ r.text, 0 ∉ octets
  /-- A reader that stops at the first zero octet sees all of the text. -/
  seen : r.message = r.text

theorem untilNul_of_not_mem {s : String} (h : '\x00' ∉ s.toList) : Text.untilNul s = s := by
  have hall : ∀ c ∈ s.toList, (c != '\x00') = true := fun c hc => by
    rw [bne_iff_ne]
    rintro rfl
    exact h hc
  rw [Text.untilNul, List.takeWhile_eq_self_iff.mpr hall, String.ofList_toList]

theorem untilNul_of_head {s : String} (h : s.toList.head? = some '\x00') : Text.untilNul s = "" := by
  obtain ⟨rest, hs⟩ := List.head?_eq_some_iff.mp h
  rw [Text.untilNul, hs]
  rfl

/-- A callback gets to know what there is to be known of a message. -/
theorem recordOf_tells (m : Message) : (World.recordOf m).Tells m := by
  have htext : (World.recordOf m).text = some (Text.Utf8.encode (Text.untilNul m.text)) := by
    rw [World.recordOf_eq, Message.foreign]
  have hmade := terminated?_untilNul m.text
  refine ⟨?_, ?_, htext, hmade.trans htext.symm, ?_, fun h => ?_, fun h => ?_, fun os ho => ?_, ?_⟩
  · exact Severity.ofCode?_eq_some.mpr rfl
  · exact Component.ofCode?_eq_some.mpr rfl
  · rw [htext, visible_encode]
  · rw [htext, untilNul_of_not_mem h]
  · rw [htext, untilNul_of_head h]
    rfl
  · rw [htext] at ho
    obtain rfl := Option.some.inj ho
    rw [← visible_encode]
    intro hzero
    simpa using List.mem_takeWhile_imp hzero
  · rw [message, htext, Option.map_some, ← visible_encode, visible_visible]

end ForeignRecord

namespace State

variable {s : State} {c : ContextId} {m : Message}

/-! ### Steps in which nothing is handed over -/

/-- Nothing is handed to a backend in a step, and no callback is called. -/
def Aside (o : Outcome) : Prop := ∀ e ∈ o.2, e.isAside = true

theorem commonplace_aside : Commonplace fun e => e.isAside = true where
  made _ := rfl
  added _ _ := rfl
  rendered _ _ := rfl
  configured _ := rfl
  flushed _ _ := rfl
  bufferFlushed _ := rfl
  destroyed _ := rfl
  noted _ := rfl
  answered _ := rfl

theorem byCode_aside (s : State) (function : String) (o : Except Rejection ContextOp) :
    Aside (s.byCode function o) := by
  cases o with
  | error why => exact Only.telling rfl
  | ok o => exact Only.onContext _ o _

theorem unwind_aside (s : State) (text : String) (t : Task) : Aside (s.unwind text t) :=
  unwind_only commonplace_aside s text t

/-- Messages are handed over by three kinds of tasks. -/
theorem perform_aside (s : State) {t : Task} (hdrop : ∀ m, t ≠ .drop m)
    (hwrite : ∀ c m, t ≠ .write c m) (hforward : ∀ b m, t ≠ .forward b m) :
    Aside (s.perform t) := by
  cases hcommon : t.isCommon with
  | true => exact perform_only commonplace_aside s hcommon
  | false =>
    cases t with
    | drop m => exact absurd rfl (hdrop m)
    | write c m => exact absurd rfl (hwrite c m)
    | forward b m => exact absurd rfl (hforward b m)
    | emit e => exact Only.telling rfl
    | «begin» o =>
      cases o with
      | enableCode code => exact byCode_aside s _ _
      | disableCode code => exact byCode_aside s _ _
      | levelCode code => exact byCode_aside s _ _
      | _ => cases hcommon
    | _ => cases hcommon

/-! ### What is handed over -/

/-- What the program hands to a backend outside any context. -/
def forwards (s : State) : List (Backend × Message) :=
  match s.condition, s.agenda with
  | .running, .forward b m :: _ => [(b, m)]
  | _, _ => []

/-- What the backends are handed in the next step, by a context or by the program itself. -/
def handed (s : State) : List (Backend × Message) := (deliveries s.step.2).map (·.2) ++ s.forwards

/-- What the callbacks are told of what is handed to their backends. -/
def toldOf (hs : List (Backend × Message)) : List (Hook × ForeignRecord) :=
  hs.flatMap fun h => h.1.kind.told h.2

theorem toldOf_singleton (b : Backend) (m : Message) : toldOf [(b, m)] = b.kind.told m :=
  List.flatMap_singleton ..

theorem toldOf_append (hs is : List (Backend × Message)) :
    toldOf (hs ++ is) = toldOf hs ++ toldOf is := List.flatMap_append

/-- A context hands a message to one backend at most, which tells its callback. -/
theorem calls_write (s : State) (c : ContextId) (m : Message) :
    calls (s.write c m).2 = toldOf ((deliveries (s.write c m).2).map (·.2)) := by
  rw [write_deliveries]
  unfold State.write State.accessing World.visible
  cases hc : s.world.access c with
  | granted =>
    cases hi : s.world.installed c with
    | none => rfl
    | some i =>
      have hreceive := World.calls_receive (s.world.enter c) m i.backend.kind
      exact hreceive.trans (toldOf_singleton i.backend m).symm
  | refused => rfl
  | blocked => rfl

theorem calls_drop (s : State) (m : Message) :
    calls (s.drop m).2 = toldOf ((deliveries (s.drop m).2).map (·.2)) := by
  cases hw : m.worth with
  | false =>
    simp only [State.drop, hw]
    rfl
  | true =>
    simp only [State.drop, hw, if_true]
    exact calls_write s m.context m

/-- The calls of a step are what the callbacks are told of what is handed over. -/
theorem calls_step (s : State) : calls s.step.2 = toldOf s.handed := by
  -- what is done aside hands nothing over
  have aside : Aside s.step → s.forwards = [] → calls s.step.2 = toldOf s.handed := by
    intro h hf
    rw [handed, calls_of_aside h, deliveries_of_aside h, hf]
    rfl
  cases hc : s.condition with
  | running =>
    cases ha : s.agenda with
    | nil =>
      have hhalt : s.halted = true := halted_of_agenda ha
      refine aside ?_ ?_
      · rw [step_of_halted hhalt]
        exact Only.quietly s
      · rw [forwards, ha, hc]
    | cons t ts =>
      have hperform : s.step = ({ s with agenda := ts } : State).perform t := step_of_running hc ha
      cases t with
      | drop m =>
        have hnone : s.forwards = [] := by rw [forwards, hc, ha]
        have hdrop := calls_drop { s with agenda := ts } m
        rw [handed, hnone, List.append_nil, hperform]
        exact hdrop
      | write c m =>
        have hnone : s.forwards = [] := by rw [forwards, hc, ha]
        have hwrite := calls_write { s with agenda := ts } c m
        rw [handed, hnone, List.append_nil, hperform]
        exact hwrite
      | forward b m =>
        have hone : s.forwards = [(b, m)] := by rw [forwards, hc, ha]
        have hreceive := World.calls_receive s.world m b.kind
        have hminor := deliveries_of_minor (s.world.outward_receive m b.kind).minor
        have hstep : s.step.2 = (s.world.receive m b.kind).happenings := by
          rw [hperform]
          rfl
        rw [handed, hone, hstep, hminor, List.map_nil, List.nil_append, toldOf_singleton]
        exact hreceive
      | _ =>
        refine aside ?_ ?_
        · rw [hperform]
          exact perform_aside _ (by simp) (by simp) (by simp)
        · rw [forwards, hc, ha]
  | unwinding text =>
    have hnone : s.forwards = [] := by rw [forwards, hc]
    refine aside ?_ hnone
    cases ha : s.agenda with
    | nil =>
      rw [step_of_halted (halted_of_agenda ha)]
      exact Only.quietly s
    | cons t ts =>
      have hunwind : s.step = ({ s with agenda := ts } : State).unwind text t := by
        simp only [step, hc, ha]
      rw [hunwind]
      exact unwind_aside _ text t
  | blocked =>
    refine aside ?_ (by rw [forwards, hc])
    rw [step_of_halted (halted_of_condition (.inl hc))]
    exact Only.quietly s
  | aborted =>
    refine aside ?_ (by rw [forwards, hc])
    rw [step_of_halted (halted_of_condition (.inr hc))]
    exact Only.quietly s

/-- What the backends are handed in so many steps. -/
def handedIn : Nat → State → List (Backend × Message)
  | 0, _ => []
  | n + 1, s => s.handed ++ handedIn n s.step.1

/-- The calls of a run are what the callbacks are told of what is handed over. -/
theorem calls_run (n : Nat) (s : State) : calls (run n s).2 = toldOf (handedIn n s) := by
  induction n generalizing s with
  | zero => rfl
  | succ n ih => rw [run_succ, calls_append, calls_step, ih, handedIn, toldOf_append]

/-- A context hands over one message at a time. -/
theorem News.deliveries_eq {t : Task} {hs : List Happening} {b : Backend} (h : News s t hs)
    (hm : .delivered c b m ∈ hs) :
    deliveries hs = [(c, b, m)] ∧ ∀ b' m', t ≠ .forward b' m' := by
  have hmem := mem_deliveries.mpr hm
  cases h with
  | minor hq =>
    rw [deliveries_of_minor hq] at hmem
    cases hmem
  | entered d i first rest ht hc hi hq hr =>
    have hfirst : deliveries hs = deliveries first := by
      rw [hq, deliveries, List.filterMap_append]
      exact (congrArg (deliveries first ++ ·) (deliveries_of_minor hr)).trans (List.append_nil _)
    rw [hfirst] at hmem ⊢
    cases ht with
    | write d m' =>
      rw [List.mem_singleton.mp hmem]
      exact ⟨rfl, by simp⟩
    | flush d => cases hmem
    | drop m' hw =>
      rw [List.mem_singleton.mp hmem]
      exact ⟨rfl, by simp⟩
  | made d sev k parts hc hq =>
    rcases List.mem_cons.mp (hq ▸ hm) with he | he
    · cases he
    · obtain he | ⟨p, he⟩ := mem_additions he <;> cases he
  | extended m' parts hq => obtain he | ⟨p, he⟩ := mem_additions (hq ▸ hm) <;> cases he
  | ended m' ht hm' hq =>
    rw [hq, List.mem_singleton] at hm
    cases hm

theorem handed_of_delivered {b : Backend} (hm : .delivered c b m ∈ s.step.2) :
    s.handed = [(b, m)] := by
  obtain ⟨t, ts, ha, hmove⟩ := exists_move hm
  obtain ⟨hd, hforward⟩ := hmove.news.deliveries_eq hm
  have hnone : s.forwards = [] := by
    unfold forwards
    split
    · next b' m' us hc ha' =>
      rw [ha] at ha'
      exact absurd (List.cons.inj ha').1 (hforward b' m')
    · rfl
  rw [handed, hd, hnone]
  rfl

/-- What is delivered in a step is all that a callback is told in it. -/
theorem calls_of_delivered {b : Backend} (hm : .delivered c b m ∈ s.step.2) :
    calls s.step.2 = b.kind.told m := by
  rw [calls_step, handed_of_delivered hm, toldOf_singleton]

/-- Who is called is the callback of a backend that is handed a message. -/
theorem exists_handed_of_call {hook : Hook} {r : ForeignRecord}
    (h : (hook, r) ∈ calls s.step.2) : ∃ b m, (b, m) ∈ s.handed ∧
      b.kind = .forwarding (some hook) ∧ m.worth = true ∧ r = World.recordOf m := by
  rw [calls_step, toldOf, List.mem_flatMap] at h
  obtain ⟨⟨b, m⟩, hhanded, htold⟩ := h
  have htold : (hook, r) ∈ b.kind.told m := htold
  unfold BackendKind.told at htold
  split at htold
  · next hook' hk =>
    split at htold
    · next hw =>
      obtain ⟨rfl, rfl⟩ := Prod.mk.inj (List.mem_singleton.mp htold)
      exact ⟨b, m, hhanded, hk, hw, rfl⟩
    · cases htold
  · cases htold

/-- A message that ends and is handed to a backend is worth reporting. -/
theorem worth_of_dropped {b : Backend} (hdrop : .dropped m ∈ s.step.2)
    (hm : .delivered c b m ∈ s.step.2) : m.worth = true := by
  obtain ⟨t, ts, -, hmove⟩ := exists_move hm
  obtain ⟨-, hd⟩ := hmove.news.of_dropped hdrop
  have hmem := mem_deliveries.mpr hm
  rw [hd] at hmem
  split at hmem
  · next hw => exact hw.1
  · cases hmem

/-- How callbacks are called, in the step after the first `n` of a program. -/
structure CallsBack (program : Program) (n : Nat) (s : State) : Prop where
  /-- A statement that reaches a backend with a callback is told to it, and this is the one call. -/
  statement : ∀ c b m hook, .dropped m ∈ s.step.2 → .delivered c b m ∈ s.step.2 →
    b.kind = .forwarding (some hook) → calls s.step.2 = [(hook, World.recordOf m)]
  /-- The same goes for a message that the program writes there and that is worth reporting. -/
  written : ∀ c b m hook, .delivered c b m ∈ s.step.2 → b.kind = .forwarding (some hook) →
    calls s.step.2 = if m.worth then [(hook, World.recordOf m)] else []
  /-- Its text is made up of the values that were added to it. -/
  traced : ∀ c b m, .delivered c b m ∈ s.step.2 → Traced program n m
  /-- What the record says of a message. -/
  tells : ∀ m, (World.recordOf m).Tells m
  /-- Where there is no callback nothing is called. -/
  unhooked : ∀ c b m, .delivered c b m ∈ s.step.2 → b.kind = .forwarding none →
    calls s.step.2 = []
  /-- Nobody else calls. -/
  called : ∀ hook r, (hook, r) ∈ calls s.step.2 → ∃ b m, (b, m) ∈ s.handed ∧
    b.kind = .forwarding (some hook) ∧ m.worth = true ∧ r = World.recordOf m
  /-- So that altogether there is one call for each message that was handed over. -/
  altogether : calls (run n (start program)).2 = toldOf (handedIn n (start program))

/-- **Calls back**, in every state that a program can reach. -/
theorem calls_back (program : Program) (n : Nat) :
    CallsBack program n (run n (start program)).1 := by
  have hdirect := direct_run program n
  refine ⟨fun c b m hook hdrop hm hk => ?_, fun c b m hook hm hk => ?_, fun c b m hm => ?_,
    ForeignRecord.recordOf_tells, fun c b m hm hk => ?_, fun hook r => exists_handed_of_call,
    calls_run n _⟩
  · have hw := worth_of_dropped hdrop hm
    rw [calls_of_delivered hm, hk, BackendKind.told, if_pos hw]
  · rw [calls_of_delivered hm, hk]
    rfl
  · exact traced_of_alive (hdirect.alive_of_delivered hm)
  · rw [calls_of_delivered hm, hk]
    rfl

end State

end GatedLog
