import FlowLex.Session

/-!
# Reports

All that is known about a source after reading it: its tokens, a summary of
each valid line, a message for each invalid one, and the variables.
-/

namespace FlowLex

structure Report where
  /-- The tokens of all lines, invalid lines included. -/
  tokens : List Token := []
  /-- One summary per valid line. -/
  summaries : List String := []
  /-- One message per invalid line. -/
  errors : List String := []
  vars : List Variable := []
  /-- What the messages are about. -/
  diagnostics : List Diagnostic := []
  deriving DecidableEq, Repr

/-- The summary of a valid line. A line without tokens has none. -/
def Line.summary? (line : Line) : Option String :=
  if line.isInvalid || line.tokens.isEmpty then none else some line.summary

namespace Report

def ofLines (lines : List Line) (table : Variables) : Report :=
  let diagnostics := lines.filterMap Line.error?
  { tokens := lines.flatMap Line.tokens
    summaries := lines.filterMap Line.summary?
    errors := diagnostics.map Diagnostic.message
    vars := table.entries
    diagnostics }

/-- No line is invalid. -/
def isOk (report : Report) : Bool :=
  report.errors.isEmpty

end Report

/-- The report on a source. -/
def analyze (source : String) : Report :=
  let (lines, session) := Session.start.readSource source
  .ofLines lines session.table

/-- The tokens of a source, or its first diagnostic. -/
def tokenize (source : String) : Except Diagnostic (List Token) :=
  let report := analyze source
  match report.diagnostics with
  | [] => .ok report.tokens
  | d :: _ => .error d

end FlowLex
