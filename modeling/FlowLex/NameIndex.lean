import FlowLex.Variables
import Std.Data.HashMap

/-!
# Indexed names

The table of variables in two parts: an array of the names in order of first
occurrence, and a hash map from the names to their numbers. A name is found in
the map, however many names stand in front of it. Both parts grow together and
nothing but that keeps them together: a list of the entries takes the names from
the array and their numbers from the map.
-/

namespace FlowLex

structure NameIndex where
  numbers : Std.HashMap String Nat := {}
  order : Array String := #[]

namespace NameIndex

def empty : NameIndex := {}

/-- The number of a name and the index that holds it: a new name takes the next
number. -/
def resolve (index : NameIndex) (name : String) : Nat × NameIndex :=
  match index.numbers[name]? with
  | some id => (id, index)
  | none =>
    let id := index.order.size + 1
    (id, { numbers := index.numbers.insert name id, order := index.order.push name })

/-- The number of a name that has been met. -/
def get? (index : NameIndex) (name : String) : Option Nat :=
  index.numbers[name]?

def size (index : NameIndex) : Nat :=
  index.order.size

def isEmpty (index : NameIndex) : Bool :=
  index.order.isEmpty

/-- The names of the array with their numbers. There is no such list when the map
lacks one of the names. -/
def entries? (index : NameIndex) : Option (List Variable) :=
  index.order.toList.mapM fun name => (index.numbers[name]?).map (Variable.mk name)

/-- A question to an index. Only resolving a name can change the index. -/
inductive Call where
  | resolve (name : String)
  | get (name : String)
  | size
  | isEmpty
  | entries
  deriving DecidableEq, Repr

inductive Answer where
  | number (id : Nat)
  | found (id? : Option Nat)
  | size (count : Nat)
  | isEmpty (empty : Bool)
  | entries (vars : List Variable)
  deriving DecidableEq, Repr

/-- The answer to a call and the index after it. There is none when the entries are
asked for and cannot be listed. -/
def answer? (index : NameIndex) : Call → Option (Answer × NameIndex)
  | .resolve name =>
    let (id, index) := index.resolve name
    some (.number id, index)
  | .get name => some (.found (index.get? name), index)
  | .size => some (.size index.size, index)
  | .isEmpty => some (.isEmpty index.isEmpty, index)
  | .entries => index.entries?.map fun vars => (.entries vars, index)

/-- The answers to calls that are made one after the other, and the index after
them. -/
def run (index : NameIndex) : List Call → Option (List Answer × NameIndex)
  | [] => some ([], index)
  | call :: rest => do
    let (answer, index) ← index.answer? call
    let (answers, index) ← index.run rest
    return (answer :: answers, index)

end NameIndex

end FlowLex
