/-!
# JSON documents

The values that a report is made of, and their text: every element of a list
and every member of an object on a line of its own, indented by two blanks
for each level.
-/

namespace FlowLex

/-- A JSON value. The members of an object are written in their order. -/
inductive Json where
  | number (n : Nat)
  | string (text : String)
  | list (elements : List Json)
  | object (members : List (String × Json))

namespace Json

/-- How one character is written inside a JSON string. -/
def escapeChar (c : Char) : List Char :=
  match c with
  | '"' => ['\\', '"']
  | '\\' => ['\\', '\\']
  | '\x08' => ['\\', 'b']
  | '\x0c' => ['\\', 'f']
  | '\n' => ['\\', 'n']
  | '\r' => ['\\', 'r']
  | '\t' => ['\\', 't']
  | c =>
    if c.toNat < 0x20 then
      ['\\', 'u', '0', '0', Nat.digitChar (c.toNat / 16),
        Nat.digitChar (c.toNat % 16)]
    else
      [c]

/-- A JSON string with its quotes. -/
def stringText (text : String) : List Char :=
  '"' :: text.toList.flatMap escapeChar ++ ['"']

/-- A new line, indented for a level. -/
def newLine (level : Nat) : List Char :=
  '\n' :: List.replicate (2 * level) ' '

/-- The parts between brackets, each on its own line one level further in;
nothing stands between the brackets when there is no part. -/
def enclose (first last : Char) (level : Nat) : List (List Char) → List Char
  | [] => [first, last]
  | part :: parts =>
    first :: newLine (level + 1) ++ part ++
      parts.flatMap (fun part => ',' :: newLine (level + 1) ++ part) ++
      newLine level ++ [last]

mutual

/-- The text of a value that starts on a line of the given level. -/
def text (level : Nat) : Json → List Char
  | .number n => n.repr.toList
  | .string text => stringText text
  | .list elements => enclose '[' ']' level (elementTexts (level + 1) elements)
  | .object members =>
    enclose '\x7b' '\x7d' level (memberTexts (level + 1) members)

def elementTexts (level : Nat) : List Json → List (List Char)
  | [] => []
  | value :: rest => value.text level :: elementTexts level rest

def memberTexts (level : Nat) : List (String × Json) → List (List Char)
  | [] => []
  | (key, value) :: rest =>
    (stringText key ++ [':', ' '] ++ value.text level) :: memberTexts level rest

end

/-- The text of a document. -/
def render (document : Json) : String :=
  String.ofList (document.text 0)

end Json

end FlowLex
