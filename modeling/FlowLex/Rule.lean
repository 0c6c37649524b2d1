import FlowLex.Lexeme
import FlowLex.Token
import FlowLex.Diagnostic

/-!
# Classification rules

Six rules say which lexemes are tokens and of which class. They are tried in
a fixed order; a lexeme that none of them accepts is rejected. Only the rule
for identifiers touches the table of variables.
-/

namespace FlowLex

inductive Rule where
  | reserved
  | number
  | string
  | identifier
  | operator
  | punctuation
  deriving DecidableEq, Repr

namespace Rule

/-- One or more digits. -/
def isNumber (text : List Char) : Bool :=
  !text.isEmpty && text.all Char.isDigit

/-- A text in quotes that holds no quote. -/
def isString : List Char → Bool
  | '"' :: rest => rest.dropWhile (· != '"') == ['"']
  | _ => false

/-- Word characters, the first of which is no digit. -/
def isIdentifier : List Char → Bool
  | [] => false
  | c :: rest => (c.isAlpha || c == '_') && rest.all isWordChar

def operators : List Char := ['+', '-', '*', '/', '=', '<', '>', '!']

def punctuationMarks : List Char := [';', '(', ')', ',', '\x7b', '\x7d']

/-- One character out of a list. -/
def isOneOf (marks : List Char) : List Char → Bool
  | [c] => marks.contains c
  | _ => false

/-- Whether a rule accepts a lexeme. -/
def accepts (rule : Rule) (lexeme : String) : Bool :=
  match rule with
  | .reserved => (reserved? lexeme).isSome
  | .number => isNumber lexeme.toList
  | .string => isString lexeme.toList
  | .identifier => isIdentifier lexeme.toList
  | .operator => isOneOf operators lexeme.toList
  | .punctuation => isOneOf punctuationMarks lexeme.toList

/-- The class that a rule gives to a lexeme, and the variables after it. It is
asked only for lexemes that the rule accepts. -/
def classOf (rule : Rule) (lexeme : String) (table : Variables) :
    TokenClass × Variables :=
  match rule with
  | .reserved => (.reserved ((reserved? lexeme).getD .keyword), table)
  | .number => (.number, table)
  | .string => (.string, table)
  | .identifier =>
    let (id, table) := table.resolve lexeme
    (.name id, table)
  | .operator => (.operator, table)
  | .punctuation => (if lexeme = ";" then .semicolon else .symbol, table)

/-- The rules in the order in which they are tried. -/
def all : List Rule :=
  [.reserved, .number, .string, .identifier, .operator, .punctuation]

end Rule

/-- What becomes of a lexeme: a token or a diagnostic. -/
abbrev Outcome := Except Diagnostic Token

/-- The outcome of a lexeme under the first of the rules that accepts it. -/
def classifyBy (rules : List Rule) (lexeme : String) (line : Nat)
    (table : Variables) : Outcome × Variables :=
  match rules.find? (·.accepts lexeme) with
  | some rule =>
    let (kind, table) := rule.classOf lexeme table
    (.ok ⟨line, kind, lexeme⟩, table)
  | none => (.error { lexeme, line }, table)

def classify (lexeme : String) (line : Nat) (table : Variables) :
    Outcome × Variables :=
  classifyBy Rule.all lexeme line table

/-- The outcomes of the lexemes of one line, from left to right. A diagnostic
takes the column of its lexeme. -/
def classifyAll (line : Nat) (table : Variables) :
    List Lexeme → List Outcome × Variables
  | [] => ([], table)
  | lexeme :: rest =>
    let (outcome, table) := classify lexeme.value line table
    let (outcomes, table) := classifyAll line table rest
    let placed := outcome.mapError ({ · with column := some lexeme.column })
    (placed :: outcomes, table)

end FlowLex
