/-!
# Writers

A writer keeps the octets that a console gives it. It may be limited in how much it keeps, take no
octets at all, or fail; a line that is not taken as a whole is cut off where the writer stops.
-/

namespace GatedLog

/-- A writer and what it keeps. -/
structure Writer where
  limit : Option Nat := none
  chunk : Option Nat := none
  fails : Bool := false
  /-- The octets that were kept, the latest first. -/
  latest : List UInt8 := []
  deriving DecidableEq, Repr, Inhabited

namespace Writer

/-- The octets that were kept. -/
def kept (w : Writer) : List UInt8 := w.latest.reverse

/-- How many more octets the writer takes: none if it takes pieces of no octets. -/
def room (w : Writer) : Option Nat :=
  if w.fails || w.chunk == some 0 then some 0 else w.limit.map (· - w.latest.length)

/-- Writes octets as far as there is room. -/
def write (w : Writer) (octets : List UInt8) : Writer :=
  match w.room with
  | none => { w with latest := octets.reverseAux w.latest }
  | some n => { w with latest := (octets.take n).reverseAux w.latest }

/-- Changes how the writer behaves. -/
def configure (w : Writer) (limit chunk : Option Nat) (fails : Bool) : Writer :=
  { w with limit := limit, chunk := chunk, fails := fails }

/-- Forgets what was kept. -/
def empty (w : Writer) : Writer := { w with latest := [] }

/-- A writer that neither fails nor has a limit. -/
def healthy (w : Writer) : Bool := !w.fails && w.limit.isNone && w.chunk != some 0

theorem kept_write {w : Writer} (h : w.healthy = true) (octets : List UInt8) :
    (w.write octets).kept = w.kept ++ octets := by
  obtain ⟨limit, chunk, fails, latest⟩ := w
  cases limit <;> simp_all [healthy, write, room, kept, List.reverseAux_eq]

end Writer

end GatedLog
