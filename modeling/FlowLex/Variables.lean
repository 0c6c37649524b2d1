/-!
# Variables

The names of a program in order of first occurrence, each with its number.
Numbers start at 1 and are never given away again.
-/

namespace FlowLex

/-- A name and its number. -/
structure Variable where
  name : String
  id : Nat
  deriving DecidableEq, Repr

/-- How a variable number is written. -/
def idTag (id : Nat) : String :=
  "id" ++ id.repr

/-- The table of the names met so far. -/
structure Variables where
  entries : List Variable := []
  deriving DecidableEq, Repr

namespace Variables

def empty : Variables := {}

def size (table : Variables) : Nat :=
  table.entries.length

def isEmpty (table : Variables) : Bool :=
  table.entries.isEmpty

/-- The names in order of first occurrence. -/
def names (table : Variables) : List String :=
  table.entries.map Variable.name

/-- The number of a name that has been met. -/
def get? (table : Variables) (name : String) : Option Nat :=
  (table.entries.find? (·.name == name)).map Variable.id

/-- The number of a name and the table that holds it: a new name takes the
next number. -/
def resolve (table : Variables) (name : String) : Nat × Variables :=
  match table.get? name with
  | some id => (id, table)
  | none =>
    let id := table.size + 1
    (id, ⟨table.entries ++ [⟨name, id⟩]⟩)

end Variables

end FlowLex
