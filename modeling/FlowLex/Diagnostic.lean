import FlowLex.Text.Basic
import FlowLex.Text.Printable

/-!
# Diagnostics

What is said about a lexeme that no rule accepts: where it stands, a message
for its line, and a tip when the cause is a common one. A diagnostic is shown
above the trimmed line it is about, with a caret under the lexeme:

    Error on Line 20: Invalid syntax or unrecognized token.
      InvalidLexeme (Names cannot start with a digit: `9lives`)
       |
    20 | declare a = 9lives;
       | ------------^

The source line is left out when the source has no such line, and the caret
when the column is no character boundary of the line.
-/

namespace FlowLex

open Text

/-- A rejected lexeme. The column is its byte offset in the trimmed line,
absent when the lexeme was not taken from a line. -/
structure Diagnostic where
  lexeme : String
  line : Nat
  column : Option Nat := none
  deriving DecidableEq, Repr

namespace Diagnostic

/-- The name of the kind of error. -/
def name (_ : Diagnostic) : String := "InvalidLexeme"

/-- The message for the line. -/
def message (d : Diagnostic) : String :=
  "Error on Line " ++ d.line.repr ++ ": Invalid syntax or unrecognized token."

/-- The cause, with the lexeme in quotes. -/
def detail (d : Diagnostic) : String :=
  "invalid lexeme: " ++ quoted d.lexeme

/-- A lone quote is an unclosed string, and a digit in front is a name that
starts wrongly. -/
def tip? (d : Diagnostic) : Option String :=
  match d.lexeme.toList with
  | ['"'] => some "String literals must be closed on the same line"
  | c :: _ =>
    if c.isDigit then
      some ("Names cannot start with a digit: `" ++ d.lexeme ++ "`")
    else
      none
  | [] => none

/-! ## With the source line -/

/-- The line with the name of the error and the tip. -/
def heading (d : Diagnostic) : String :=
  match d.tip? with
  | none => "  " ++ d.name
  | some tip => "  " ++ d.name ++ " (" ++ tip ++ ")"

/-- The bar at the right of the space taken by a line number. -/
def gutter (d : Diagnostic) : String :=
  padStart (d.line.repr.length + 2) ' ' "|"

/-- The line with the caret: a dash for every character in front of it. -/
def caretLine? (d : Diagnostic) (text : List Char) : Option String := do
  let column ← d.column
  let front ← takeBytes? column text
  return d.gutter ++ " " ++ padStart (front.length + 1) '-' "^"

/-- The lines that show the source. -/
def excerpt (d : Diagnostic) (source : String) : List String :=
  match lineAt? source d.line with
  | none => []
  | some line =>
    let text := trim line.toList
    [d.gutter, d.line.repr ++ " | " ++ String.ofList text] ++
      (d.caretLine? text).toList

/-- The lines that show a diagnostic. -/
def renderLines (d : Diagnostic) (source : String) : List String :=
  d.message :: d.heading :: d.excerpt source

def render (d : Diagnostic) (source : String) : String :=
  unlines (d.renderLines source)

end Diagnostic

end FlowLex
