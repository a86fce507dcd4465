import GatedLog.Machine.Step

/-!
# Transcripts

What can be observed of a run: for every operation of the program its answer, the effects that came
before it, and the text that appeared on the terminal meanwhile. Happenings that only concern
messages or backends of the library itself have no effect of their own.
-/

namespace GatedLog

/-- Something that can be observed. -/
inductive Effect where
  | event (e : Event)
  | call (hook : Hook) (r : ForeignRecord)
  | write (tag : String) (m : Message)
  | flush (tag : String)
  | drop (tag : String)
  | writerFlush (buffer : String)
  | evaluation
  | nested (a : Answer)

/-- What can be observed of a happening. -/
def Happening.effect? : Happening → Option Effect
  | .emitted e => some (.event e)
  | .called hook r => some (.call hook r)
  | .delivered _ ⟨_, .custom tag _ _ _ _⟩ m => some (.write tag m)
  | .delivered _ _ _ => none
  | .flushed _ ⟨_, .custom tag _ _ _ _⟩ => some (.flush tag)
  | .flushed _ _ => none
  | .destroyed ⟨_, .custom tag _ _ _ _⟩ => some (.drop tag)
  | .destroyed _ => none
  | .bufferFlushed id => some (.writerFlush id)
  | .made _ => none
  | .added _ _ => none
  | .rendered _ (.counted _) => some .evaluation
  | .rendered _ _ => none
  | .dropped _ => none
  | .printed _ => none
  | .noted a => some (.nested a)
  | .answered _ => none

/-- The line that a happening puts on the terminal. -/
def Happening.line? : Happening → Option String
  | .printed line => some line
  | _ => none

/-- What can be observed of one operation of the program. -/
structure Report where
  answer : Answer
  effects : List Effect
  terminal : String

namespace Report

/-- The report of an operation and of what happened during it. -/
def of (hs : List Happening) (a : Answer) : Report :=
  { answer := a
    effects := hs.filterMap Happening.effect?
    terminal := Redaction.redact (String.join (hs.filterMap Happening.line?)) }

/-- Divides happenings into the reports of the operations, after some that belong to the first, the
latest of them first. -/
def split (before : List Happening) : List Happening → List Report
  | [] => []
  | .answered a :: hs => of before.reverse a :: split [] hs
  | h :: hs => split (h :: before) hs

end Report

/-- The reports of a program that runs for at most so many steps. -/
def transcript (budget : Nat) (ops : List Op) : List Report :=
  Report.split [] (State.run budget (State.start { ops := ops })).2

end GatedLog
