/-!
# Terminal sequences

A text for a terminal holds sequences that a terminal obeys and does not show,
each begun by an escape character. `plain` is what is left of such a text when
the sequences and all other control characters but white space are taken out.
White space counts inside a sequence, too, and is shown on the spot.
-/

namespace FlowLex.Text.Terminal

/-! ## Styles -/

inductive Style where
  | alarm
  | literal
  | faulty
  deriving DecidableEq, Repr

/-- The sequences that put a style on. -/
def Style.start : Style → String
  | .alarm => "\x1b[1m\x1b[31m"
  | .literal => "\x1b[1m"
  | .faulty => "\x1b[33m"

/-- The text with a style put on in front of it and taken off behind it. -/
def Style.paint (style : Style) (text : String) : String :=
  style.start ++ text ++ "\x1b[0m"

/-! ## Reading sequences -/

/-- Where a terminal stands in a text. -/
inductive State where
  /-- Outside of sequences. -/
  | ground
  /-- Behind an escape character. -/
  | escape
  /-- In a sequence of intermediate characters behind an escape. -/
  | escapeIntermediate
  /-- In a control sequence, behind `[`. -/
  | control
  /-- In front of a device control string, behind `P`. -/
  | deviceEntry
  /-- In the parameters of a device control string. -/
  | deviceParameter
  /-- In the intermediate characters of a device control string. -/
  | deviceIntermediate
  /-- In a string that no letter ends. -/
  | string
  /-- In a command to the system, behind `]`. -/
  | command
  deriving DecidableEq, Repr

/-- Whether a character lies between two others, ends included. -/
def within (first last c : Char) : Bool :=
  first ≤ c && c ≤ last

/-- Whether a character is encoded with the byte that ends a string. -/
def endsString (c : Char) : Bool :=
  (String.utf8EncodeChar c).contains 0x9C

namespace State

/-- The state behind a character. An escape begins a sequence and two control
characters end one, wherever they stand; otherwise the state decides. -/
def next (state : State) (c : Char) : State :=
  if c = '\x1b' then .escape
  else if c = '\x18' || c = '\x1a' then .ground
  else
    match state with
    | .ground => .ground
    | .escape =>
      if c = '[' then .control
      else if c = ']' then .command
      else if c = 'P' then .deviceEntry
      else if c = 'X' || c = '^' || c = '_' then .string
      else if within ' ' '/' c then .escapeIntermediate
      else if within '0' '~' c then .ground
      else .escape
    | .escapeIntermediate =>
      if within '0' '~' c then .ground else .escapeIntermediate
    | .control => if within '@' '~' c then .ground else .control
    | .deviceEntry =>
      if within ' ' '/' c then .deviceIntermediate
      else if within '0' '?' c then .deviceParameter
      else if within '@' '~' c then .string
      else .deviceEntry
    | .deviceParameter =>
      if within ' ' '/' c then .deviceIntermediate
      else if within '<' '~' c then .string
      else .deviceParameter
    | .deviceIntermediate =>
      if within '0' '~' c then .string else .deviceIntermediate
    | .string => if endsString c then .ground else .string
    | .command => if c = '\x07' then .ground else .command

/-- White space that a terminal obeys in the middle of a sequence. -/
def isLayout (c : Char) : Bool :=
  c == '\t' || c == '\n' || c == '\x0c' || c == '\r'

/-- Whether a character is shown. Outside of sequences all but the control
characters of ASCII is, and in the body of a string nothing is. -/
def shows (state : State) (c : Char) : Bool :=
  match state with
  | .ground => isLayout c || ' ' ≤ c && c != '\x7f'
  | .escape | .escapeIntermediate | .control => isLayout c
  | _ => false

end State

/-! ## Plain text -/

/-- Where a text is shown. A sequence that white space breaks up is over in a
text that is kept. On a stream it goes on at the next hidden character, unless
a character outside of ASCII has been shown by then. -/
inductive Medium where
  | kept
  | stream
  deriving DecidableEq, Repr

/-- The state that counts behind a shown character. -/
def Medium.resume (medium : Medium) (state : State) (c : Char) : State :=
  match medium with
  | .kept => .ground
  | .stream => if c ≤ '\x7f' then state else .ground

/-- What is shown of a text from a state on. Behind a shown character a
terminal is outside of sequences until the next hidden one. -/
def shownFrom (medium : Medium) (state : State) (inText : Bool) :
    List Char → List Char
  | [] => []
  | c :: rest =>
    if (if inText then .ground else state).shows c then
      c :: shownFrom medium (medium.resume state c) true rest
    else
      shownFrom medium (state.next c) false rest

/-- What is shown of a text. -/
def plain (medium : Medium) (text : String) : String :=
  String.ofList (shownFrom medium .ground false text.toList)

end FlowLex.Text.Terminal
