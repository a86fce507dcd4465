/-!
# Redaction

Console output without what differs from run to run: times become `[TIME]`, and thread numbers
become `N`. The text is read once; a place that has been replaced is not looked at again.
-/

namespace GatedLog.Redaction

/-- The days of a week. -/
def weekdays : List (List Char) :=
  ["Mon", "Tue", "Wed", "Thu", "Fri", "Sat", "Sun"].map String.toList

/-- The months of a year. -/
def months : List (List Char) :=
  ["Jan", "Feb", "Mar", "Apr", "May", "Jun", "Jul", "Aug", "Sep", "Oct", "Nov", "Dec"].map
    String.toList

/-- A digit or the blank that pads it. -/
def isPadded (c : Char) : Bool := c == ' ' || c.isDigit

/-- What stands between the month and the end of a time: the day, the hour, the minute, the second
and the year, such as in ` 1 00:00:00 1970]`. -/
def clockShape : List (Char → Bool) :=
  [isPadded, Char.isDigit, (· == ' '), Char.isDigit, Char.isDigit, (· == ':'), Char.isDigit,
    Char.isDigit, (· == ':'), Char.isDigit, Char.isDigit, (· == ' '), Char.isDigit, Char.isDigit,
    Char.isDigit, Char.isDigit, (· == ']')]

/-- The text in front of a thread number. -/
def threadOpening : List Char := "[Thread id = ThreadId(".toList

/-- The text behind a thread number. -/
def threadClosing : List Char := [')', ']']

/-- Whether a text starts with characters of the given shape. -/
def hasShape : List (Char → Bool) → List Char → Bool
  | [], _ => true
  | _ :: _, [] => false
  | p :: ps, c :: cs => p c && hasShape ps cs

/-- Whether a text starts with a time between brackets, such as `[Thu Jan  1 00:00:00 1970]`. -/
def startsWithTime : List Char → Bool
  | '[' :: a :: b :: c :: ' ' :: d :: e :: f :: ' ' :: cs =>
    weekdays.contains [a, b, c] && months.contains [d, e, f] && hasShape clockShape cs
  | _ => false

/-- The number of characters of a time between brackets. -/
def timeLength : Nat := 26

/-- The length of a thread heading that a text starts with. -/
def threadLength? (cs : List Char) : Option Nat :=
  if threadOpening.isPrefixOf cs then
    let digits := (cs.drop threadOpening.length).takeWhile Char.isDigit
    let size := threadOpening.length + digits.length
    if !digits.isEmpty && threadClosing.isPrefixOf (cs.drop size) then some (size + 2) else none
  else none

/-- Redacts a text whose first characters, so many, have been replaced. -/
def redactFrom : Nat → List Char → List Char
  | _, [] => []
  | n + 1, _ :: cs => redactFrom n cs
  | 0, c :: cs =>
    if startsWithTime (c :: cs) then "[TIME]".toList ++ redactFrom (timeLength - 1) cs
    else
      match threadLength? (c :: cs) with
      | some n => threadOpening ++ 'N' :: threadClosing ++ redactFrom (n - 1) cs
      | none => c :: redactFrom 0 cs

/-- Replaces times and thread numbers. -/
def redact (s : String) : String := String.ofList (redactFrom 0 s.toList)

end GatedLog.Redaction
