import FlowLex.Json.Skip
import FlowLex.Settings

/-!
# Settings files

A settings file is a JSON object with some of the four settings, or a list of
the first few of them in their fixed order. Members with other keys are
checked and ignored. The file is read once from left to right, and the first
fault refuses it.
-/

namespace FlowLex.Settings

open Json

/-- What a settings file can set. -/
inductive Field where
  | format
  | showTokens
  | showVariables
  | showSource
  deriving DecidableEq, Repr

namespace Field

def key : Field → String
  | .format => "format"
  | .showTokens => "show_tokens"
  | .showVariables => "show_variables"
  | .showSource => "show_source"

/-- The fields in the order of the list form. -/
def all : List Field :=
  [.format, .showTokens, .showVariables, .showSource]

def ofKey? (key : String) : Option Field :=
  all.find? (·.key == key)

end Field

/-- Whether a layer mentions a field. -/
def Layer.mentions (layer : Layer) : Field → Bool
  | .format => layer.format.isSome
  | .showTokens => layer.showTokens.isSome
  | .showVariables => layer.showVariables.isSome
  | .showSource => layer.showSource.isSome

/-- The fault of a value of the wrong type. A list or an object is refused at
its bracket, any other value after it has been read. -/
def refuse (expected : String) : List Char → Fault
  | [] => .past .expectedValue []
  | 'n' :: rest => word nullTail .null rest
  | 't' :: rest => word trueTail (.boolean true) rest
  | 'f' :: rest => word falseTail (.boolean false) rest
  | '"' :: rest =>
    match readString rest with
    | .error fault => fault
    | .ok (text, rest) => named (.string (String.ofList text)) rest
  | '[' :: rest => named .list ('[' :: rest)
  | '\x7b' :: rest => named .object ('\x7b' :: rest)
  | c :: rest =>
    if c = '-' || c.isDigit then
      match readNumeral .endOfValue (c :: rest) with
      | .error fault => fault
      | .ok (numeral, rest) =>
        match numeral.found rest with
        | .error fault => fault
        | .ok found => named found rest
    else
      .past .expectedValue (c :: rest)
where
  named (found : Found) (rest : List Char) : Fault :=
    .before (.wrongType found expected) rest
  word (letters : List Char) (found : Found) (rest : List Char) : Fault :=
    match readWord letters rest with
    | .error fault => fault
    | .ok rest => named found rest

def readBool (text : List Char) : Except Fault (Bool × List Char) :=
  match skipGap text with
  | [] => .error (.before .endOfValue [])
  | 't' :: rest => return (true, ← readWord trueTail rest)
  | 'f' :: rest => return (false, ← readWord falseTail rest)
  | rest => .error (refuse "a boolean" rest)

def readNull (text : List Char) : Except Fault (List Char) :=
  match skipGap text with
  | [] => .error (.before .endOfValue [])
  | 'n' :: rest => readWord nullTail rest
  | rest => .error (refuse "unit" rest)

/-- Reads the name of a format behind its opening quote. -/
def readFormatName (text : List Char) :
    Except Fault (OutputFormat × List Char) := do
  let (name, rest) ← readString text
  let name := String.ofList name
  match OutputFormat.ofName? name with
  | some format => return (format, rest)
  | none => throw (.before (.unknownName name "`text` or `json`") rest)

/-- Reads the brace behind the only member of an object. -/
def readBrace (text : List Char) : Except Fault (List Char) :=
  match skipGap text with
  | [] => .error (.before .endOfObject [])
  | '\x7d' :: rest => .ok rest
  | rest => .error (.before .expectedValue rest)

/-- Reads the object form of a format behind its brace. -/
def readFormatObject (text : List Char) :
    Except Fault (OutputFormat × List Char) :=
  match skipGap text with
  | [] => .error (.before .endOfObject [])
  | '"' :: rest => do
    let (format, rest) ← readFormatName rest
    let rest ← readColon rest
    let rest ← readNull rest
    return (format, ← readBrace rest)
  | '\x7d' :: rest => .error (.past .expectedValue ('\x7d' :: rest))
  | rest => .error (.past .keyNotString rest)

/-- Reads a format: its name, or an object with its name as the only key and
null as the value. -/
def readFormat (text : List Char) : Except Fault (OutputFormat × List Char) :=
  match skipGap text with
  | [] => .error (.before .endOfValue [])
  | '"' :: rest => readFormatName rest
  | '\x7b' :: rest => readFormatObject rest
  | rest => .error (.past .expectedValue rest)

/-- Reads the value of a field into a layer. -/
def readField (layer : Layer) (field : Field) (text : List Char) :
    Except Fault (Layer × List Char) :=
  match field with
  | .format => do
    let (format, rest) ← readFormat text
    return ({ layer with format := some format }, rest)
  | .showTokens => do
    let (value, rest) ← readBool text
    return ({ layer with showTokens := some value }, rest)
  | .showVariables => do
    let (value, rest) ← readBool text
    return ({ layer with showVariables := some value }, rest)
  | .showSource => do
    let (value, rest) ← readBool text
    return ({ layer with showSource := some value }, rest)

/-- Reads what stands in front of an element: a comma, unless it is the
first. -/
def elementStart (isFirst : Bool) (text : List Char) :
    Except Fault (List Char) :=
  if isFirst then .ok text
  else
    match text with
    | ',' :: rest =>
      match skipGap rest with
      | [] => .error (.before .endOfValue [])
      | ']' :: rest => .error (.past .trailingComma (']' :: rest))
      | rest => .ok rest
    | text => .error (.past .expectedCommaOrListEnd text)

/-- Reads the end of a list in which no more elements may follow. -/
def readListEnd (text : List Char) : Except Fault (List Char) :=
  match skipGap text with
  | [] => .error (.before .endOfList [])
  | ']' :: rest => .ok rest
  | ',' :: rest =>
    match skipGap rest with
    | ']' :: rest => .error (.past .trailingComma (']' :: rest))
    | rest => .error (.past .trailingCharacters rest)
  | rest => .error (.past .trailingCharacters rest)

/-- Reads the elements of the list form, one per field. -/
def readElements (layer : Layer) (isFirst : Bool) :
    List Field → List Char → Except Fault (Layer × List Char)
  | [], text => (readListEnd text).map (layer, ·)
  | field :: fields, text =>
    match skipGap text with
    | [] => .error (.before .endOfList [])
    | ']' :: rest => .ok (layer, rest)
    | rest => do
      let rest ← elementStart isFirst rest
      let (layer, rest) ← readField layer field rest
      readElements layer false fields rest

/-- Reads what stands in front of a key: a comma, unless it is the first
member, and the opening quote. -/
def keyStart (isFirst : Bool) (text : List Char) : Except Fault (List Char) :=
  if isFirst then
    match text with
    | '"' :: rest => .ok rest
    | text => .error (.past .keyNotString text)
  else
    match text with
    | ',' :: rest =>
      match skipGap rest with
      | [] => .error (.before .endOfValue [])
      | '"' :: rest => .ok rest
      | '\x7d' :: rest => .error (.past .trailingComma ('\x7d' :: rest))
      | rest => .error (.past .keyNotString rest)
    | text => .error (.past .expectedCommaOrObjectEnd text)

/-- The fault of a key that was set before. It lies behind the white space
after the key, and behind the closing brace when that comes next. -/
def repeatedKey (field : Field) (rest : List Char) : Fault :=
  match skipGap rest with
  | '\x7d' :: rest => .before (.repeatedKey field.key) rest
  | rest => .before (.repeatedKey field.key) rest

/-- Reads the value of a member behind its key into a layer. -/
def readMember (layer : Layer) (key : String) (text : List Char) :
    Except Fault (Layer × List Char) :=
  match Field.ofKey? key with
  | some field =>
    if layer.mentions field then .error (repeatedKey field text)
    else do
      let rest ← readColon text
      readField layer field rest
  | none => do
    let rest ← readColon text
    let rest ← skipValue [] rest
    return (layer, rest)

theorem length_lt_of_readBool {text rest : List Char} {value : Bool}
    (h : readBool text = .ok (value, rest)) : rest.length < text.length := by
  unfold readBool at h
  split at h
  · cases h
  · rename_i hgap
    obtain ⟨_, hword, hrest⟩ := bind_eq_ok.1 h
    cases hrest
    have := length_lt_of_skipGap hgap
    have := length_le_of_readWord hword
    omega
  · rename_i hgap
    obtain ⟨_, hword, hrest⟩ := bind_eq_ok.1 h
    cases hrest
    have := length_lt_of_skipGap hgap
    have := length_le_of_readWord hword
    omega
  · cases h

theorem length_lt_of_readNull {text rest : List Char}
    (h : readNull text = .ok rest) : rest.length < text.length := by
  unfold readNull at h
  grind [→ length_lt_of_skipGap, → length_le_of_readWord]

theorem length_lt_of_readBrace {text rest : List Char}
    (h : readBrace text = .ok rest) : rest.length < text.length := by
  unfold readBrace at h
  grind [→ length_lt_of_skipGap]

theorem length_lt_of_readFormatName {text rest : List Char}
    {format : OutputFormat} (h : readFormatName text = .ok (format, rest)) :
    rest.length < text.length := by
  unfold readFormatName at h
  simp only [bind_eq_ok, pure, Except.pure, throw, throwThe,
    MonadExceptOf.throw] at h
  grind [→ length_lt_of_readString]

theorem length_lt_of_readFormatObject {text rest : List Char}
    {format : OutputFormat} (h : readFormatObject text = .ok (format, rest)) :
    rest.length < text.length := by
  unfold readFormatObject at h
  split at h
  · cases h
  · rename_i hgap
    simp only [bind_eq_ok, pure, Except.pure] at h
    obtain ⟨⟨value, after⟩, hname, _, hcolon, _, hnull, _, hbrace, hrest⟩ := h
    cases hrest
    change readColon after = _ at hcolon
    have := length_lt_of_skipGap hgap
    have := length_lt_of_readFormatName hname
    have := length_lt_of_readColon hcolon
    have := length_lt_of_readNull hnull
    have := length_lt_of_readBrace hbrace
    omega
  · cases h
  · cases h

theorem length_lt_of_readFormat {text rest : List Char}
    {format : OutputFormat} (h : readFormat text = .ok (format, rest)) :
    rest.length < text.length := by
  unfold readFormat at h
  grind [→ length_lt_of_skipGap, → length_lt_of_readFormatName,
    → length_lt_of_readFormatObject]

theorem length_lt_of_readField {layer layer' : Layer} {field : Field}
    {text rest : List Char}
    (h : readField layer field text = .ok (layer', rest)) :
    rest.length < text.length := by
  unfold readField at h
  split at h
  all_goals
    obtain ⟨⟨value, after⟩, hread, hrest⟩ := bind_eq_ok.1 h
    cases hrest
  · exact length_lt_of_readFormat hread
  all_goals exact length_lt_of_readBool hread

theorem length_lt_of_readMember {layer layer' : Layer} {key : String}
    {text rest : List Char}
    (h : readMember layer key text = .ok (layer', rest)) :
    rest.length < text.length := by
  unfold readMember at h
  split at h
  · split at h
    · cases h
    · obtain ⟨value, hcolon, hfield⟩ := bind_eq_ok.1 h
      have := length_lt_of_readColon hcolon
      have := length_lt_of_readField hfield
      omega
  · simp only [bind_eq_ok, pure, Except.pure] at h
    obtain ⟨value, hcolon, after, hskip, hrest⟩ := h
    cases hrest
    have := length_lt_of_readColon hcolon
    have := length_lt_of_skipValue hskip
    omega

theorem length_lt_of_keyStart {isFirst : Bool} {text rest : List Char}
    (h : keyStart isFirst text = .ok rest) : rest.length < text.length := by
  unfold keyStart at h
  grind [→ length_lt_of_skipGap]

/-- Reads the members of an object up to its closing brace. -/
def readMembers (layer : Layer) (isFirst : Bool) (text : List Char) :
    Except Fault (Layer × List Char) :=
  have := length_skipGap_le text
  match _ : skipGap text with
  | [] => .error (.before .endOfObject [])
  | '\x7d' :: rest => .ok (layer, rest)
  | start =>
    match hstart : keyStart isFirst start with
    | .error fault => .error fault
    | .ok quoted =>
      have := length_lt_of_keyStart hstart
      match hkey : readString quoted with
      | .error fault => .error fault
      | .ok (key, behind) =>
        have := length_lt_of_readString hkey
        match hmember : readMember layer (String.ofList key) behind with
        | .error fault => .error fault
        | .ok (layer, rest) =>
          have := length_lt_of_readMember hmember
          readMembers layer false rest
termination_by text.length

/-- Reads the layer that a settings file makes. -/
def readLayer (text : String) : Except Fault Layer := do
  let (layer, rest) ←
    match skipGap text.toList with
    | [] => throw (.before .endOfValue [])
    | '[' :: rest => readElements {} true Field.all rest
    | '\x7b' :: rest => readMembers {} true rest
    | rest => throw (refuse "struct Config" rest)
  match skipGap rest with
  | [] => return layer
  | rest => throw (.past .trailingCharacters rest)

end FlowLex.Settings
