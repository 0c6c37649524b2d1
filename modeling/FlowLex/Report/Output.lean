import FlowLex.Json
import FlowLex.Report
import FlowLex.Settings

/-!
# What is written for a report

A report is written as text or as JSON, as the settings ask.
-/

namespace FlowLex

open Text

/-! ## Reports as JSON

A report is an object with the tokens, the summaries, the error messages and
the variables. Classes and variable numbers are written by their tags. -/

def Token.toJson (token : Token) : Json :=
  .object
    [("lineNumber", .number token.line),
     ("classPart", .string token.kind.tag),
     ("valuePart", .string token.value)]

def Variable.toJson (v : Variable) : Json :=
  .object [("name", .string v.name), ("id", .string (idTag v.id))]

namespace Report

def toJson (report : Report) : Json :=
  .object
    [("tokens", .list (report.tokens.map Token.toJson)),
     ("summaries", .list (report.summaries.map Json.string)),
     ("errors", .list (report.errors.map Json.string)),
     ("variables", .list (report.vars.map Variable.toJson))]

def jsonText (report : Report) : String :=
  report.toJson.render

/-! ## Reports as text

A table of the tokens and one of the variables, as far as the settings ask
for them, then the summaries, then the errors. Each table ends with an empty
line, and an empty line parts summaries from errors. -/

/-- A row of the token table. -/
def tableRow (line kind value : String) : String :=
  padEnd 6 line ++ " " ++ padEnd 12 kind ++ " " ++ value

def tokenRow (token : Token) : String :=
  tableRow token.line.repr token.kind.tag token.value

def tokenTable : List Token → List String
  | [] => []
  | tokens =>
    ["Symbol Table", tableRow "Line" "Class Part" "Value Part"] ++
      tokens.map tokenRow ++ [""]

def variableRow (v : Variable) : String :=
  "  " ++ padEnd 6 (idTag v.id) ++ " " ++ v.name

def variableTable : List Variable → List String
  | [] => []
  | vars => ["Variables"] ++ vars.map variableRow ++ [""]

/-- The errors, with the source lines they are about if the settings ask for
them. -/
def errorLines (report : Report) (source : String) (settings : Settings) :
    List String :=
  if settings.showSource then
    report.diagnostics.flatMap (·.renderLines source)
  else
    report.errors

/-- The empty line between summaries and errors. -/
def gap (report : Report) : List String :=
  if report.isOk || report.summaries.isEmpty then [] else [""]

/-- The lines that show a report. -/
def textLines (report : Report) (source : String) (settings : Settings) :
    List String :=
  (if settings.showTokens then tokenTable report.tokens else []) ++
  (if settings.showVariables then variableTable report.vars else []) ++
  report.summaries ++ report.gap ++ report.errorLines source settings

def text (report : Report) (source : String) (settings : Settings) : String :=
  unlines (report.textLines source settings)

/-- What is written for a report. -/
def write (report : Report) (source : String) (settings : Settings) : String :=
  match settings.format with
  | .text => report.text source settings
  | .json => unlines [report.jsonText]

/-- The exit status: 0 when no line is invalid, 1 otherwise. -/
def exitStatus (report : Report) : Nat :=
  if report.isOk then 0 else 1

end Report

end FlowLex
