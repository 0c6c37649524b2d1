/-!
# Output settings

How a report is written. Settings are built in layers: the defaults, with the
format that the environment asks for, then what a settings file says, then
what the command line says. A layer changes only what it mentions.
-/

namespace FlowLex

inductive OutputFormat where
  | text
  | json
  deriving DecidableEq, Repr

namespace OutputFormat

def name : OutputFormat → String
  | .text => "text"
  | .json => "json"

/-- The format with exactly this name. -/
def ofName? : String → Option OutputFormat
  | "text" => some .text
  | "json" => some .json
  | _ => none

/-- A name that belongs to no format. -/
structure Unknown where
  name : String
  deriving DecidableEq, Repr

def Unknown.message (unknown : Unknown) : String :=
  "unknown output format `" ++ unknown.name ++ "`"

/-- The format with this name in any ASCII case. -/
def parse (text : String) : Except Unknown OutputFormat :=
  let name := String.ofList (text.toList.map Char.toLower)
  match ofName? name with
  | some format => .ok format
  | none => .error ⟨name⟩

end OutputFormat

structure Settings where
  format : OutputFormat := .text
  showTokens : Bool := true
  showVariables : Bool := false
  showSource : Bool := false
  deriving DecidableEq, Repr

/-- A layer of settings: what it mentions and what it leaves alone. -/
structure Settings.Layer where
  format : Option OutputFormat := none
  showTokens : Option Bool := none
  showVariables : Option Bool := none
  showSource : Option Bool := none
  deriving DecidableEq, Repr

namespace Settings

/-- The settings under a layer. -/
def under (base : Settings) (layer : Layer) : Settings where
  format := layer.format.getD base.format
  showTokens := layer.showTokens.getD base.showTokens
  showVariables := layer.showVariables.getD base.showVariables
  showSource := layer.showSource.getD base.showSource

/-- The defaults, with the format that the environment names. A value that
names no format is ignored. -/
def default (formatValue : Option String) : Settings where
  format := ((formatValue.bind fun value =>
    (OutputFormat.parse value).toOption).getD .text)

end Settings

end FlowLex
