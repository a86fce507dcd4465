import Mathlib.Data.List.Basic
import GatedLog.Machine.Step

/-!
# The call stack on the agenda

A task `leave` on the agenda is a backend that is running, a task `unlock` one that is asked for its
name, and a task `join` is where the thread that runs ends and the one that waits for it goes on. So
the agenda shows which contexts are running their backends on this thread (`State.stack`), and which
are entered at all, to run their backends or to ask them for their names, on this thread or on any
other (`State.entered`).

Tasks that are neither `leave`, `unlock`, `join`, `exit` nor `drop` are ordinary: they change none of
these views, and most operations put only ordinary tasks on the agenda.
-/

namespace GatedLog

namespace Task

/-- The context whose backend is left. -/
def left? : Task → Option ContextId
  | leave c _ => some c
  | _ => none

/-- The context that is entered no longer. -/
def freed? : Task → Option ContextId
  | leave c _ => some c
  | unlock c => some c
  | _ => none

/-- The message that comes to its end. -/
def dropped? : Task → Option Message
  | drop m => some m
  | _ => none

/-- Whether a thread ends. -/
def isJoin : Task → Bool
  | join _ => true
  | _ => false

/-- Neither a context is left nor a thread ends with the task. -/
def isPlain : Task → Bool
  | leave _ _ => false
  | unlock _ => false
  | join _ => false
  | _ => true

/-- Nor does the state of a thread. -/
def isSteady : Task → Bool
  | leave _ _ => false
  | unlock _ => false
  | join _ => false
  | exit _ => false
  | _ => true

/-- Nor does a message. -/
def isOrdinary : Task → Bool
  | leave _ _ => false
  | unlock _ => false
  | join _ => false
  | exit _ => false
  | drop _ => false
  | _ => true

theorem isPlain_of_isSteady {t : Task} (h : t.isSteady = true) : t.isPlain = true := by
  cases t <;> first | rfl | cases h

theorem isSteady_of_isOrdinary {t : Task} (h : t.isOrdinary = true) : t.isSteady = true := by
  cases t <;> first | rfl | cases h

end Task

/-- The contexts that are entered, the innermost first. -/
def enteredOn (ts : List Task) : List ContextId := ts.filterMap Task.freed?

/-- Those of them that are running their backends on the thread that runs. -/
def stackOn (ts : List Task) : List ContextId := (ts.takeWhile fun t => !t.isJoin).filterMap Task.left?

/-- The messages that are about to end. -/
def endingOn (ts : List Task) : List Message := ts.filterMap Task.dropped?

namespace State

/-- The contexts that are entered, on this thread or on one that waits for it: they are running their
backends, or asking them for their names. -/
def entered (s : State) : List ContextId := enteredOn s.agenda

/-- The contexts that are running their backends on this thread, the innermost first. -/
def stack (s : State) : List ContextId := stackOn s.agenda

end State

/-! ### The views of an agenda -/

section Views

variable {t : Task} {ts : List Task}

theorem enteredOn_append (ts us : List Task) :
    enteredOn (ts ++ us) = enteredOn ts ++ enteredOn us := List.filterMap_append

theorem endingOn_append (ts us : List Task) :
    endingOn (ts ++ us) = endingOn ts ++ endingOn us := List.filterMap_append

@[simp] theorem enteredOn_leave (c : ContextId) (counted : Bool) (ts : List Task) :
    enteredOn (.leave c counted :: ts) = c :: enteredOn ts := rfl

@[simp] theorem enteredOn_unlock (c : ContextId) (ts : List Task) :
    enteredOn (.unlock c :: ts) = c :: enteredOn ts := rfl

theorem enteredOn_cons_of_plain (h : t.isPlain = true) (ts : List Task) :
    enteredOn (t :: ts) = enteredOn ts := by
  cases t <;> first | rfl | cases h

@[simp] theorem enteredOn_join (u : Thread) (ts : List Task) :
    enteredOn (.join u :: ts) = enteredOn ts := rfl

@[simp] theorem stackOn_leave (c : ContextId) (counted : Bool) (ts : List Task) :
    stackOn (.leave c counted :: ts) = c :: stackOn ts := rfl

@[simp] theorem stackOn_unlock (c : ContextId) (ts : List Task) :
    stackOn (.unlock c :: ts) = stackOn ts := rfl

@[simp] theorem stackOn_join (u : Thread) (ts : List Task) : stackOn (.join u :: ts) = [] := rfl

theorem stackOn_cons_of_plain (h : t.isPlain = true) (ts : List Task) :
    stackOn (t :: ts) = stackOn ts := by
  cases t <;> first | rfl | cases h

theorem stackOn_sublist_enteredOn (ts : List Task) : (stackOn ts).Sublist (enteredOn ts) := by
  have left : ∀ us : List Task, (us.filterMap Task.left?).Sublist (us.filterMap Task.freed?) := by
    intro us
    induction us with
    | nil => exact .slnil
    | cons u us ih => cases u <;> first | exact ih | exact ih.cons _ | exact ih.cons_cons _
  exact (left _).trans ((List.takeWhile_sublist _).filterMap _)

theorem mem_enteredOn_of_mem_stackOn {c : ContextId} (h : c ∈ stackOn ts) : c ∈ enteredOn ts :=
  (stackOn_sublist_enteredOn ts).subset h

theorem mem_enteredOn_of_unlock {c : ContextId} (h : .unlock c ∈ ts) : c ∈ enteredOn ts :=
  List.mem_filterMap.mpr ⟨_, h, rfl⟩

/-- A context that is entered only once does not run its backend while it asks it for its name. -/
theorem not_mem_stackOn_of_unlock {c : ContextId} (hn : (enteredOn ts).Nodup)
    (h : .unlock c ∈ ts) : c ∉ stackOn ts := by
  induction ts with
  | nil => exact absurd h List.not_mem_nil
  | cons t ts ih =>
    cases t with
    | leave d counted =>
      obtain ⟨hd, hn⟩ := List.nodup_cons.mp hn
      have hmem := List.mem_of_ne_of_mem Task.noConfusion h
      refine List.not_mem_cons_of_ne_of_not_mem ?_ (ih hn hmem)
      rintro rfl
      exact hd (mem_enteredOn_of_unlock hmem)
    | unlock d =>
      obtain ⟨hd, hn⟩ := List.nodup_cons.mp hn
      rcases List.mem_cons.mp h with he | hmem
      · obtain rfl := Task.unlock.inj he
        exact fun hs => hd (mem_enteredOn_of_mem_stackOn hs)
      · exact ih hn hmem
    | join u => exact List.not_mem_nil
    | _ => exact ih hn (List.mem_of_ne_of_mem Task.noConfusion h)

theorem enteredOn_append_of_steady (us ts : List Task) (h : ∀ t ∈ us, t.isSteady = true) :
    enteredOn (us ++ ts) = enteredOn ts := by
  induction us with
  | nil => rfl
  | cons u us ih =>
    rw [List.cons_append, enteredOn_cons_of_plain (Task.isPlain_of_isSteady (h u (by simp)))]
    exact ih fun t ht => h t (by simp [ht])

@[simp] theorem endingOn_drop (m : Message) (ts : List Task) :
    endingOn (.drop m :: ts) = m :: endingOn ts := rfl

theorem endingOn_of_ordinary (h : ∀ t ∈ ts, t.isOrdinary = true) : endingOn ts = [] := by
  refine List.filterMap_eq_nil_iff.mpr fun t ht => ?_
  have := h t ht
  cases t <;> first | rfl | cases this

end Views

end GatedLog
