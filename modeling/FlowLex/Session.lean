import FlowLex.Rule
import FlowLex.Scanner

/-!
# Reading sessions

A source is read line by line. What is carried from line to line is whether a
block comment is open, the variables met so far, and the scanner that all lines
share.
-/

namespace FlowLex

open Text

/-! ## Comments

A line comment runs from `//` to the end of its line. A block comment takes
whole lines: the line that holds `/*` and the line that holds the next `*/`
are dropped with everything on them, and a `*/` on the opening line closes
nothing. Comment markers inside string literals count as markers. -/

/-- Whether a line is read as code or lies inside a block comment. -/
inductive Mode where
  | code
  | block
  deriving DecidableEq, Repr

def blockOpen : List Char := ['/', '*']

def blockClose : List Char := ['*', '/']

def lineComment : List Char := ['/', '/']

/-- The mode after a line. -/
def Mode.next : Mode → List Char → Mode
  | .code, line => if holds blockOpen line then .block else .code
  | .block, line => if holds blockClose line then .code else .block

/-- The code of a line: what stands in front of a line comment, without the
blanks around it. None when nothing is left to read. -/
def Mode.codeOf? : Mode → List Char → Option (List Char)
  | .block, _ => none
  | .code, line =>
    let text := trim (before lineComment line)
    if holds blockOpen line || text.isEmpty then none else some text

/-! ## Lexed lines

The tokens of one line and the first lexeme on it that was rejected. A bad
lexeme makes its line invalid and leaves the other tokens in place. -/

structure Line where
  number : Nat
  tokens : List Token := []
  error? : Option Diagnostic := none
  deriving DecidableEq, Repr

/-- The diagnostic of a rejected lexeme. -/
def Outcome.error? : Outcome → Option Diagnostic
  | .error d => some d
  | .ok _ => none

namespace Line

/-- The line made of the outcomes of its lexemes, from left to right. -/
def ofOutcomes (number : Nat) (outcomes : List Outcome) : Line where
  number
  tokens := outcomes.filterMap Except.toOption
  error? := outcomes.findSome? Outcome.error?

def isInvalid (line : Line) : Bool :=
  line.error?.isSome

/-- The number of the line and its tokens. -/
def summary (line : Line) : String :=
  "Line " ++ line.number.repr ++
    String.join (line.tokens.map fun token => " " ++ token.text)

end Line

/-! ## Sessions -/

structure Session where
  mode : Mode := .code
  table : Variables := .empty
  scanner : Scanner := {}
  deriving DecidableEq, Repr

namespace Session

/-- The session before the first line. -/
def start : Session := {}

/-- Reads one line under a given number. A line without code gives nothing;
it can still open or close a block comment. -/
def readLine (session : Session) (number : Nat) (text : List Char) :
    Option Line × Session :=
  let mode := session.mode.next text
  match session.mode.codeOf? text with
  | none => (none, { session with mode })
  | some code =>
    let (lexemes, scanner) := session.scanner.scanLine code
    let (outcomes, table) := classifyAll number session.table lexemes
    (some (.ofOutcomes number outcomes), { mode, table, scanner })

/-- Reads lines that are numbered one after the other. -/
def readLines (session : Session) (number : Nat) :
    List (List Char) → List Line × Session
  | [] => ([], session)
  | text :: rest =>
    let (line?, session) := session.readLine number text
    let (lines, session) := session.readLines (number + 1) rest
    (line?.toList ++ lines, session)

/-- Reads a whole source. No block comment is open at its start; the
variables of the session stay known. -/
def readSource (session : Session) (source : String) : List Line × Session :=
  { session with mode := .code }.readLines 1 (lines source.toList)

end Session

end FlowLex
