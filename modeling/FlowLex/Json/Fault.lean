import FlowLex.Text.Basic
import FlowLex.Text.Printable

/-!
# Faults in a JSON text

What can be wrong with a JSON text and where. A text is read once from left
to right and the first fault ends the reading, so a fault is placed by what
is left of the text behind it.
-/

namespace FlowLex.Json

/-- A value of the wrong type, as it is named in messages. -/
inductive Found where
  | null
  | boolean (value : Bool)
  | integer (value : Int)
  | decimal (text : String)
  | string (text : String)
  | list
  | object
  deriving DecidableEq, Repr

def Found.text : Found → String
  | .null => "null"
  | .boolean true => "boolean `true`"
  | .boolean false => "boolean `false`"
  | .integer value => "integer `" ++ value.repr ++ "`"
  | .decimal text => "floating point `" ++ text ++ "`"
  | .string text => "string " ++ Text.quoted text
  | .list => "sequence"
  | .object => "map"

inductive Problem where
  | endOfValue
  | endOfString
  | endOfList
  | endOfObject
  | expectedValue
  | expectedWord
  | expectedColon
  | expectedCommaOrListEnd
  | expectedCommaOrObjectEnd
  | keyNotString
  | trailingComma
  | trailingCharacters
  | invalidNumber
  | numberOutOfRange
  | invalidEscape
  | loneSurrogate
  | unfinishedPair
  | controlCharacter
  | wrongType (found : Found) (expected : String)
  | unknownName (name : String) (known : String)
  | repeatedKey (key : String)
  deriving DecidableEq, Repr

/-- Whether a text breaks off, breaks the grammar, or says what its reader
cannot take. -/
inductive Problem.Kind where
  | incomplete
  | malformed
  | unfit
  deriving DecidableEq, Repr

namespace Problem

def kind : Problem → Kind
  | .endOfValue | .endOfString | .endOfList | .endOfObject => .incomplete
  | .wrongType .. | .unknownName .. | .repeatedKey .. => .unfit
  | _ => .malformed

def message : Problem → String
  | .endOfValue => "EOF while parsing a value"
  | .endOfString => "EOF while parsing a string"
  | .endOfList => "EOF while parsing a list"
  | .endOfObject => "EOF while parsing an object"
  | .expectedValue => "expected value"
  | .expectedWord => "expected ident"
  | .expectedColon => "expected `:`"
  | .expectedCommaOrListEnd => "expected `,` or `]`"
  | .expectedCommaOrObjectEnd => "expected `,` or `\x7d`"
  | .keyNotString => "key must be a string"
  | .trailingComma => "trailing comma"
  | .trailingCharacters => "trailing characters"
  | .invalidNumber => "invalid number"
  | .numberOutOfRange => "number out of range"
  | .invalidEscape => "invalid escape"
  | .loneSurrogate => "lone leading surrogate in hex escape"
  | .unfinishedPair => "unexpected end of hex escape"
  | .controlCharacter =>
    "control character (\\u0000-\\u001F) found while parsing a string"
  | .wrongType found expected =>
    "invalid type: " ++ found.text ++ ", expected " ++ expected
  | .unknownName name known =>
    "unknown variant `" ++ name ++ "`, expected " ++ known
  | .repeatedKey key => "duplicate field `" ++ key ++ "`"

end Problem

/-- A problem and the number of bytes that lie behind its place. -/
structure Fault where
  problem : Problem
  left : Nat
  deriving DecidableEq, Repr

namespace Fault

/-- A fault in front of the rest of a text. -/
def before (problem : Problem) (rest : List Char) : Fault :=
  ⟨problem, Text.byteSize rest⟩

/-- A fault one byte into the rest of a text, or at its end when nothing is
left. -/
def past (problem : Problem) (rest : List Char) : Fault :=
  ⟨problem, Text.byteSize rest - 1⟩

/-- The line and the column of the place `offset` bytes further on, when
`line` and `column` are those of the beginning. -/
def positionFrom (line column offset : Nat) : List Char → Nat × Nat
  | [] => (line, column)
  | c :: rest =>
    if offset < c.utf8Size then (line, column + offset)
    else if c = '\n' then positionFrom (line + 1) 0 (offset - 1) rest
    else positionFrom line (column + c.utf8Size) (offset - c.utf8Size) rest

/-- The place of a fault in its text: the number of the line, from 1, and the
number of bytes of that line that have been read. -/
def position (fault : Fault) (text : List Char) : Nat × Nat :=
  positionFrom 1 0 (Text.byteSize text - fault.left) text

end Fault

/-- A step and what follows it succeed together. -/
theorem bind_eq_ok {α β : Type} {x : Except Fault α} {f : α → Except Fault β}
    {b : β} : (x >>= f) = .ok b ↔ ∃ a, x = .ok a ∧ f a = .ok b := by
  cases x with
  | error fault => simp [bind, Except.bind]
  | ok a => simp [bind, Except.bind]

/-- White space between the parts of a JSON text. -/
def isGap (c : Char) : Bool :=
  c == ' ' || c == '\t' || c == '\n' || c == '\r'

/-- The rest of a text behind the white space at its front. -/
def skipGap (text : List Char) : List Char :=
  text.dropWhile isGap

theorem length_skipGap_le (text : List Char) :
    (skipGap text).length ≤ text.length :=
  (List.dropWhile_sublist isGap).length_le

theorem length_lt_of_skipGap {text rest : List Char} {c : Char}
    (h : skipGap text = c :: rest) : rest.length < text.length := by
  have := length_skipGap_le text
  rw [h, List.length_cons] at this
  omega

/-! ## Words

`null`, `true` and `false`. Their first letter decides that one of them is
meant. -/

/-- Reads the rest of a word whose beginning has been read. -/
def readWord : List Char → List Char → Except Fault (List Char)
  | [], rest => .ok rest
  | _ :: _, [] => .error (.before .endOfValue [])
  | letter :: letters, c :: rest =>
    if c = letter then readWord letters rest
    else .error (.past .expectedWord (c :: rest))

theorem length_le_of_readWord {word text rest : List Char}
    (h : readWord word text = .ok rest) : rest.length ≤ text.length := by
  induction word generalizing text with
  | nil =>
      cases h
      exact Nat.le_refl _
  | cons letter letters ih =>
      cases text with
      | nil => cases h
      | cons c text =>
          simp only [readWord] at h
          split at h
          · exact Nat.le_succ_of_le (ih h)
          · cases h

/-- What is left of `null` behind its first letter. -/
def nullTail : List Char := ['u', 'l', 'l']

def trueTail : List Char := ['r', 'u', 'e']

def falseTail : List Char := ['a', 'l', 's', 'e']

end FlowLex.Json
