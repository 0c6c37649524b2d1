import FlowLex.CommandLine
import FlowLex.Report.Output
import FlowLex.Settings.File

/-!
# The program

A run reads the arguments, then the settings file, then the source, and writes
the report. How files are read is left open: a run works in any monad that
offers it.
-/

namespace FlowLex.Program

/-- Why the operating system did not give out a file. -/
structure SystemError where
  code : Nat
  kind : String
  text : String
  deriving DecidableEq, Repr

namespace SystemError

def notFound : SystemError :=
  ⟨2, "NotFound", "No such file or directory"⟩

def permissionDenied : SystemError :=
  ⟨13, "PermissionDenied", "Permission denied"⟩

def isDirectory : SystemError :=
  ⟨21, "IsADirectory", "Is a directory"⟩

end SystemError

/-- Why an input cannot be used. -/
inductive InputError where
  | system (error : SystemError)
  | nulInName
  | notText
  | settings (problem : Json.Problem) (line column : Nat)
  deriving DecidableEq, Repr

namespace InputError

def kind : InputError → String
  | .system error => error.kind
  | .nulInName => "InvalidInput"
  | .notText | .settings .. => "InvalidData"

def message : InputError → String
  | .system error =>
    error.text ++ " (os error " ++ error.code.repr ++ ")"
  | .nulInName => "file name contained an unexpected NUL byte"
  | .notText => "stream did not contain valid UTF-8"
  | .settings problem _ _ => problem.message

/-- The line that tells the user, with the parts of the error by name. -/
def complaint (error : InputError) : String :=
  match error with
  | .system cause =>
    "Error: Os \x7b code: " ++ cause.code.repr ++ ", kind: " ++ cause.kind ++
      ", message: " ++ Text.quoted cause.text ++ " \x7d\n"
  | .nulInName | .notText =>
    "Error: Error \x7b kind: " ++ error.kind ++ ", message: " ++
      Text.quoted error.message ++ " \x7d\n"
  | .settings _ line column =>
    "Error: Custom \x7b kind: " ++ error.kind ++ ", error: Error(" ++
      Text.quoted error.message ++ ", line: " ++ line.repr ++ ", column: " ++
      column.repr ++ ") \x7d\n"

end InputError

/-- Where a run gets its inputs from. -/
structure Inputs (m : Type → Type) where
  file : String → m (Except SystemError ByteArray)
  standard : m (Except SystemError ByteArray)

/-- The text of a file. -/
def decode (content : Except SystemError ByteArray) :
    Except InputError String :=
  match content with
  | .error error => .error (.system error)
  | .ok bytes =>
    match String.fromUTF8? bytes with
    | some text => .ok text
    | none => .error .notText

/-- The layer that the text of a settings file makes. -/
def layerOf (text : String) : Except InputError Settings.Layer :=
  match Settings.readLayer text with
  | .ok layer => .ok layer
  | .error fault =>
    let (line, column) := fault.position text.toList
    .error (.settings fault.problem line column)

variable {m : Type → Type} [Monad m]

/-- The text of a named file. No file has a name with a NUL in it. -/
def Inputs.text (inputs : Inputs m) (path : String) :
    m (Except InputError String) := do
  if path.toList.contains '\x00' then
    return .error .nulInName
  else
    return decode (← inputs.file path)

/-- The settings of a run: the defaults, under the settings file if one is
named, under the options. -/
def loadSettings (inputs : Inputs m) (options : CommandLine.Options)
    (formatValue : Option String) : m (Except InputError Settings) := do
  let defaults := Settings.default formatValue
  match options.config with
  | none => return .ok (defaults.under options.layer)
  | some path =>
    let content ← inputs.text path
    return do
      let layer ← layerOf (← content)
      return (defaults.under layer).under options.layer

/-- The source: the named file, or else the standard input. -/
def readSource (inputs : Inputs m) (options : CommandLine.Options) :
    m (Except InputError String) := do
  match options.file with
  | some path => inputs.text path
  | none => return decode (← inputs.standard)

/-- What a run leaves behind. -/
structure Result where
  status : Nat
  output : String := ""
  complaint : String := ""
  deriving DecidableEq, Repr

/-- The result of reading a source. -/
def report (source : String) (settings : Settings) : Result :=
  let report := analyze source
  { status := report.exitStatus, output := report.write source settings }

def Result.ofStop : CommandLine.Stop → Result
  | .usage error => { status := 2, complaint := error.complaint }
  | .help => { status := 0, output := CommandLine.helpText }
  | .version => { status := 0, output := CommandLine.versionText }

def Result.ofInputError (error : InputError) : Result :=
  { status := 1, complaint := error.complaint }

/-- A run with its arguments and the format that the environment names. The
source is read only when the settings are known. -/
def run (inputs : Inputs m) (arguments : List String)
    (formatValue : Option String) : m Result := do
  match CommandLine.parse arguments with
  | .error stop => return .ofStop stop
  | .ok options =>
    match ← loadSettings inputs options formatValue with
    | .error error => return .ofInputError error
    | .ok settings =>
      match ← readSource inputs options with
      | .error error => return .ofInputError error
      | .ok source => return report source settings

end FlowLex.Program
