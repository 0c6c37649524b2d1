import FlowLex.Settings
import FlowLex.Text.Basic
import FlowLex.Text.Terminal

/-!
# The command line

Arguments are read from left to right. A value in an argument of its own
waits until the next option begins or the arguments end, and is checked then;
a value attached to its option is checked at once. An argument that means
nothing is refused before the value that waits is looked at.
-/

namespace FlowLex.CommandLine

/-- What takes a value. -/
inductive Target where
  | file
  | format
  | config
  deriving DecidableEq, Repr

def Target.text : Target → String
  | .file => "[FILE]"
  | .format => "--format <FORMAT>"
  | .config => "--config <CONFIG>"

/-- What takes no value. -/
inductive Flag where
  | noTokens
  | showVariables
  | showSource
  | help
  | version
  deriving DecidableEq, Repr

def Flag.text : Flag → String
  | .noTokens => "--no-tokens"
  | .showVariables => "--variables"
  | .showSource => "--show-source"
  | .help => "--help"
  | .version => "--version"

/-- The option with a long name. -/
def ofLong? : String → Option (Target ⊕ Flag)
  | "format" => some (.inl .format)
  | "config" => some (.inl .config)
  | "no-tokens" => some (.inr .noTokens)
  | "variables" => some (.inr .showVariables)
  | "show-source" => some (.inr .showSource)
  | "help" => some (.inr .help)
  | "version" => some (.inr .version)
  | _ => none

/-- The option with a short name. -/
def ofShort? : Char → Option (Target ⊕ Flag)
  | 'f' => some (.inl .format)
  | 'c' => some (.inl .config)
  | 'h' => some (.inr .help)
  | 'V' => some (.inr .version)
  | _ => none

inductive UsageError where
  | missingValue (target : Target)
  | repeated (argument : String)
  | unknownFormat (value : String) (unknown : OutputFormat.Unknown)
  | unexpectedArgument (argument : String)
  | unexpectedValue (value : String) (flag : Flag)
  deriving DecidableEq, Repr

namespace UsageError

open Text.Terminal

/-- What is wrong, with the styles for a terminal. What the user gave is
marked as faulty, except where an unknown format is named again. -/
def cause : UsageError → String
  | .missingValue target =>
    "a value is required for '" ++ Style.literal.paint target.text ++
      "' but none was supplied"
  | .repeated argument =>
    "the argument '" ++ Style.faulty.paint argument ++
      "' cannot be used multiple times"
  | .unknownFormat value unknown =>
    "invalid value '" ++ Style.faulty.paint value ++ "' for '" ++
      Style.literal.paint Target.format.text ++ "': " ++ unknown.message
  | .unexpectedArgument argument =>
    "unexpected argument '" ++ Style.faulty.paint argument ++ "' found"
  | .unexpectedValue value flag =>
    "unexpected value '" ++ Style.faulty.paint value ++ "' for '" ++
      Style.literal.paint flag.text ++ "' found; no more were expected"

/-- The whole text for a terminal: the cause, and where to find help. -/
def styled (error : UsageError) : String :=
  Style.alarm.paint "error:" ++ " " ++ error.cause ++
    "\n\nFor more information, try '" ++ Style.literal.paint "--help" ++
    "'.\n"

/-- The text without its styles. Sequences in what the user gave are lost
with them. -/
def message (error : UsageError) : String :=
  plain .kept error.styled

/-- What is shown of the text where it goes to a stream without styles. -/
def complaint (error : UsageError) : String :=
  plain .stream error.styled

end UsageError

/-- Why the reading of arguments ends early. -/
inductive Stop where
  | usage (error : UsageError)
  | help
  | version
  deriving DecidableEq, Repr

/-- What the arguments ask for. -/
structure Options where
  file : Option String := none
  format : Option OutputFormat := none
  config : Option String := none
  noTokens : Bool := false
  showVariables : Bool := false
  showSource : Bool := false
  deriving DecidableEq, Repr

namespace Options

/-- The settings that the options mention. -/
def layer (options : Options) : Settings.Layer where
  format := options.format
  showTokens := if options.noTokens then some false else none
  showVariables := if options.showVariables then some true else none
  showSource := if options.showSource then some true else none

def has (options : Options) : Target → Bool
  | .file => options.file.isSome
  | .format => options.format.isSome
  | .config => options.config.isSome

/-- Gives a target its value. A target takes one value, and a path is not
empty. -/
def assign (options : Options) (target : Target) (value : Option String) :
    Except UsageError Options :=
  match value with
  | none => .error (.missingValue target)
  | some value =>
    if options.has target then .error (.repeated target.text)
    else
      match target with
      | .format =>
        match OutputFormat.parse value with
        | .ok format => .ok { options with format := some format }
        | .error unknown => .error (.unknownFormat value unknown)
      | .config =>
        if value.isEmpty then .error (.missingValue .config)
        else .ok { options with config := some value }
      | .file =>
        if value.isEmpty then .error (.missingValue .file)
        else .ok { options with file := some value }

/-- Sets a flag, once. Help and version are given on the spot. -/
def setFlag (options : Options) (flag : Flag) : Except Stop Options :=
  match flag with
  | .noTokens => once options.noTokens { options with noTokens := true }
  | .showVariables =>
    once options.showVariables { options with showVariables := true }
  | .showSource => once options.showSource { options with showSource := true }
  | .help => .error .help
  | .version => .error .version
where
  once (isSet : Bool) (next : Options) : Except Stop Options :=
    if isSet then .error (.usage (.repeated flag.text)) else .ok next

end Options

/-- How far the arguments have been read. -/
structure Progress where
  options : Options := {}
  /-- A target whose value waits to be checked, or is still to come. -/
  pending : Option (Target × Option String) := none
  /-- A file has been named. -/
  hasFile : Bool := false
  /-- Behind `--`, where every argument names a file. -/
  onlyFiles : Bool := false
  deriving DecidableEq, Repr

namespace Progress

/-- Checks the value that waits. -/
def settle (progress : Progress) : Except Stop Progress :=
  match progress.pending with
  | none => .ok progress
  | some (target, value) =>
    match progress.options.assign target value with
    | .ok options => .ok { progress with options, pending := none }
    | .error error => .error (.usage error)

/-- Reads an argument that names the file. -/
def acceptFile (progress : Progress) (argument : String) :
    Except Stop Progress := do
  if progress.hasFile then
    throw (.usage (.unexpectedArgument argument))
  else
    let progress ← progress.settle
    return { progress with
      pending := some (.file, some argument), hasFile := true }

/-- Reads an option with the value that is attached to it. -/
def acceptOption (progress : Progress) (option : Target ⊕ Flag)
    (attached : Option String) : Except Stop Progress :=
  match option, attached with
  | .inl target, none => do
    let progress ← progress.settle
    return { progress with pending := some (target, none) }
  | .inl target, some value => do
    let progress ← progress.settle
    settle { progress with pending := some (target, some value) }
  | .inr flag, none => do
    let progress ← progress.settle
    let options ← progress.options.setFlag flag
    return { progress with options }
  | .inr flag, some value => .error (.usage (.unexpectedValue value flag))

/-- Reads an option behind its two dashes. -/
def acceptLong (progress : Progress) (text : List Char) :
    Except Stop Progress :=
  let name := String.ofList (text.takeWhile (· != '='))
  let attached :=
    match text.dropWhile (· != '=') with
    | [] => none
    | _ :: value => some (String.ofList value)
  match ofLong? name with
  | some option => progress.acceptOption option attached
  | none => .error (.usage (.unexpectedArgument ("--" ++ name)))

/-- Reads an option behind its one dash. What follows the letter is the
value, with or without an equals sign; a flag is done before what follows it
counts. -/
def acceptShort (progress : Progress) (letter : Char) (rest : List Char) :
    Except Stop Progress :=
  match ofShort? letter with
  | some (.inl target) =>
    let attached :=
      match rest with
      | [] => none
      | '=' :: value => some (String.ofList value)
      | value => some (String.ofList value)
    progress.acceptOption (.inl target) attached
  | some (.inr flag) => progress.acceptOption (.inr flag) none
  | none =>
    .error (.usage (.unexpectedArgument ("-" ++ String.singleton letter)))

/-- Reads an argument that is no option: the value that an option waits for,
or the file. -/
def acceptPlain (progress : Progress) (argument : String) :
    Except Stop Progress :=
  match progress.pending with
  | some (target, none) =>
    .ok { progress with pending := some (target, some argument) }
  | _ => progress.acceptFile argument

def accept (progress : Progress) (argument : String) : Except Stop Progress :=
  if progress.onlyFiles then progress.acceptFile argument
  else
    match argument.toList with
    | ['-', '-'] => .ok { progress with onlyFiles := true }
    | '-' :: '-' :: text => progress.acceptLong text
    | '-' :: letter :: rest => progress.acceptShort letter rest
    | _ => progress.acceptPlain argument

end Progress

/-- The options that the arguments give. -/
def parse (arguments : List String) : Except Stop Options := do
  let progress ← arguments.foldlM Progress.accept {}
  return (← progress.settle).options

def versionText : String := "flowscript 0.1.0\n"

/-- What the program is, in one line. -/
def about : String := "FlowScript lexical analyzer"

def helpText : String :=
  Text.unlines
    [about,
     "",
     "Usage: flowscript [OPTIONS] [FILE]",
     "",
     "Arguments:",
     "  [FILE]  Source file to analyze. Reads stdin when omitted",
     "",
     "Options:",
     "  -f, --format <FORMAT>  Output format (text or json)",
     "  -c, --config <CONFIG>  JSON config file with output settings",
     "      --no-tokens        Do not print the token table",
     "      --variables        Print the variable id table",
     "      --show-source      Print the offending source line under each error",
     "  -h, --help             Print help",
     "  -V, --version          Print version"]

end FlowLex.CommandLine
