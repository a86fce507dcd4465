/-!
# Severities

The five severities of a statement, in rising order, with their codes and their written forms.
`Severity.ofCode?` reads a code back, and `Severity.isCode` tests one by its range alone.
-/

namespace GatedLog

/-- The severity of a statement, least urgent first. -/
inductive Severity where
  | trace
  | debug
  | info
  | warning
  | error
  deriving DecidableEq, Repr, Inhabited

namespace Severity

/-- Every severity, in rising order. -/
def all : List Severity := [trace, debug, info, warning, error]

/-- The place of a severity in `all`. -/
def rank : Severity → Nat
  | trace => 0
  | debug => 1
  | info => 2
  | warning => 3
  | error => 4

/-- The integer that stands for a severity outside the library. -/
def code : Severity → Int32
  | trace => 0
  | debug => 1
  | info => 2
  | warning => 3
  | error => 4

instance : LE Severity := ⟨fun a b => a.rank ≤ b.rank⟩

instance (a b : Severity) : Decidable (a ≤ b) := inferInstanceAs (Decidable (a.rank ≤ b.rank))

/-- How two severities compare in urgency. -/
def order (a b : Severity) : Ordering := compare a.rank b.rank

/-- The severity that has a given code. -/
def ofCode? (n : Int32) : Option Severity := all.find? fun s => s.code == n

/-- Codes are the integers from 0 to 4. -/
def isCode (n : Int32) : Bool := 0 ≤ n && n ≤ 4

/-- The name that events and answers carry. -/
def name : Severity → String
  | trace => "TRACE"
  | debug => "DEBUG"
  | info => "INFO"
  | warning => "WARN"
  | error => "ERROR"

/-- The heading of a console line: eight characters for every severity. -/
def label : Severity → String
  | trace => "[TRACE ]"
  | debug => "[DEBUG ]"
  | info => "[INFO  ]"
  | warning => "[WARN  ]"
  | error => "[ERROR ]"

/-- The name inside the description of a gate or a message. -/
def constructorName : Severity → String
  | trace => "Trace"
  | debug => "Debug"
  | info => "Info"
  | warning => "Warning"
  | error => "Error"

/-- The severity that a lower-case word names. -/
def ofWord? (word : List Char) : Option Severity :=
  if word = ['t', 'r', 'a', 'c', 'e'] then some trace
  else if word = ['d', 'e', 'b', 'u', 'g'] then some debug
  else if word = ['i', 'n', 'f', 'o'] then some info
  else if word = ['w', 'a', 'r', 'n'] || word = ['w', 'a', 'r', 'n', 'i', 'n', 'g'] then some warning
  else if word = ['e', 'r', 'r', 'o', 'r'] then some error
  else none

theorem mem_all (s : Severity) : s ∈ all := by cases s <;> decide

@[simp] theorem ofCode?_code (s : Severity) : ofCode? s.code = some s := by cases s <;> decide

theorem ofCode?_eq_some {n : Int32} {s : Severity} : ofCode? n = some s ↔ s.code = n := by
  constructor
  · intro h
    simpa using List.find?_some h
  · rintro rfl
    exact ofCode?_code s

end Severity

end GatedLog
