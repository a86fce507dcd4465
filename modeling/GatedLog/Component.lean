/-!
# Components

The five parts of a system that statements come from. A component's code is a single bit, so that
a set of components is a word; `Component.isCode` finds the single bits by word arithmetic, and
`Component.ofCode?` by looking the code up.
-/

namespace GatedLog

/-- The part of the system that a statement comes from. -/
inductive Component where
  | unknown
  | rpc
  | blockReader
  | fileHandle
  | fileSystem
  deriving DecidableEq, Repr, Inhabited

namespace Component

/-- Every component, by rising code. -/
def all : List Component := [unknown, rpc, blockReader, fileHandle, fileSystem]

/-- The integer that stands for a component outside the library. -/
def code : Component → Int32
  | unknown => 1
  | rpc => 2
  | blockReader => 4
  | fileHandle => 8
  | fileSystem => 16

/-- The bit that a component occupies in a set. -/
def bit : Component → UInt32
  | unknown => 1
  | rpc => 2
  | blockReader => 4
  | fileHandle => 8
  | fileSystem => 16

/-- The union of all codes. -/
def allCodes : Int32 := 31

/-- The component that has a given code. -/
def ofCode? (n : Int32) : Option Component := all.find? fun c => c.code == n

/-- Codes are the positive powers of two among the known bits. -/
def isCode (n : Int32) : Bool := 0 < n && n &&& (n - 1) == 0 && n &&& allCodes != 0

/-- The component that has a given code, or the unknown one. -/
def ofCodeOrUnknown (n : Int32) : Component := (ofCode? n).getD unknown

/-- The name that events and answers carry. -/
def name : Component → String
  | unknown => "Unknown"
  | rpc => "RPC"
  | blockReader => "BlockReader"
  | fileHandle => "FileHandle"
  | fileSystem => "FileSystem"

/-- The heading of a console line: fourteen characters for every component. -/
def label : Component → String
  | unknown => "[Unknown     ]"
  | rpc => "[RPC         ]"
  | blockReader => "[BlockReader ]"
  | fileHandle => "[FileHandle  ]"
  | fileSystem => "[FileSystem  ]"

/-- The name inside the description of a message. -/
def constructorName : Component → String
  | unknown => "Unknown"
  | rpc => "Rpc"
  | blockReader => "BlockReader"
  | fileHandle => "FileHandle"
  | fileSystem => "FileSystem"

/-- The lower-case word that names a component. -/
def word : Component → List Char
  | unknown => ['u', 'n', 'k', 'n', 'o', 'w', 'n']
  | rpc => ['r', 'p', 'c']
  | blockReader => ['b', 'l', 'o', 'c', 'k', 'r', 'e', 'a', 'd', 'e', 'r']
  | fileHandle => ['f', 'i', 'l', 'e', 'h', 'a', 'n', 'd', 'l', 'e']
  | fileSystem => ['f', 'i', 'l', 'e', 's', 'y', 's', 't', 'e', 'm']

/-- The component that a lower-case word names. -/
def ofWord? (w : List Char) : Option Component := all.find? fun c => c.word == w

theorem mem_all (c : Component) : c ∈ all := by cases c <;> decide

theorem bit_eq_toUInt32 (c : Component) : c.bit = c.code.toUInt32 := by cases c <;> rfl

@[simp] theorem ofCode?_code (c : Component) : ofCode? c.code = some c := by cases c <;> decide

theorem ofCode?_eq_some {n : Int32} {c : Component} : ofCode? n = some c ↔ c.code = n := by
  constructor
  · intro h
    simpa using List.find?_some h
  · rintro rfl
    exact ofCode?_code c

@[simp] theorem ofWord?_word (c : Component) : ofWord? c.word = some c := by cases c <;> decide

theorem ofWord?_eq_some {w : List Char} {c : Component} : ofWord? w = some c ↔ c.word = w := by
  constructor
  · intro h
    simpa using List.find?_some h
  · rintro rfl
    exact ofWord?_word c

end Component

end GatedLog
