/-!
# Texts

What the language asks of plain texts: which characters are blank, how many
bytes a text takes, how it is cut into lines, where a marker stands in it and
how it fills a field.
-/

namespace FlowLex.Text

/-! ## Blank characters

The white space that separates lexemes and that `trim` takes off both ends of
a line: the characters with the Unicode property White_Space. -/

/-- The ranges of code points with the property White_Space. -/
def blankRanges : List (Nat × Nat) :=
  [(0x9, 0xD), (0x20, 0x20), (0x85, 0x85), (0xA0, 0xA0), (0x1680, 0x1680),
   (0x2000, 0x200A), (0x2028, 0x2029), (0x202F, 0x202F), (0x205F, 0x205F),
   (0x3000, 0x3000)]

/-- White_Space as a test on characters. -/
def isBlank (c : Char) : Bool :=
  blankRanges.any fun (first, last) => first ≤ c.toNat && c.toNat ≤ last

/-- The text without the blanks at its front. -/
def trimLeft (text : List Char) : List Char :=
  text.dropWhile isBlank

/-- The text without the blanks at its back. -/
def trimRight (text : List Char) : List Char :=
  (text.reverse.dropWhile isBlank).reverse

/-- The text without the blanks at both ends. -/
def trim (text : List Char) : List Char :=
  trimRight (trimLeft text)

@[simp] theorem trim_nil : trim [] = [] := rfl

/-! ## Byte offsets

Columns count the bytes of the UTF-8 form of a text. An offset is of use only
on a character boundary; `takeBytes?` is the text in front of such an offset. -/

/-- The number of bytes of the UTF-8 form. -/
def byteSize (text : List Char) : Nat :=
  text.foldr (fun c size => c.utf8Size + size) 0

@[simp] theorem byteSize_nil : byteSize [] = 0 := rfl

@[simp] theorem byteSize_cons (c : Char) (text : List Char) :
    byteSize (c :: text) = c.utf8Size + byteSize text := rfl

@[simp] theorem byteSize_append (front back : List Char) :
    byteSize (front ++ back) = byteSize front + byteSize back := by
  induction front with
  | nil => simp
  | cons c front ih => simp [ih, Nat.add_assoc]

/-- The first `size` bytes of the text as characters; none when the text is
shorter or the offset falls inside a character. -/
def takeBytes? : Nat → List Char → Option (List Char)
  | 0, _ => some []
  | _ + 1, [] => none
  | size + 1, c :: rest =>
    if c.utf8Size ≤ size + 1 then
      (takeBytes? (size + 1 - c.utf8Size) rest).map (c :: ·)
    else
      none

/-! ## Lines

A source is cut at every line feed, so a text with `n` line feeds has `n + 1`
lines, the last of which may be empty. Lines are numbered from 1. -/

/-- One more character in front of the first line of a text. -/
def consLine (c : Char) (lines : List (List Char)) : List (List Char) :=
  if c = '\n' then
    [] :: lines
  else
    match lines with
    | [] => [[c]]
    | line :: rest => (c :: line) :: rest

/-- The texts between the line feeds. -/
def lines (source : List Char) : List (List Char) :=
  source.foldr consLine [[]]

@[simp] theorem lines_nil : lines [] = [[]] := rfl

@[simp] theorem lines_cons (c : Char) (source : List Char) :
    lines (c :: source) = consLine c (lines source) := rfl

/-- The line without the carriage returns at its end. -/
def dropReturns (line : List Char) : List Char :=
  (line.reverse.dropWhile (· == '\r')).reverse

/-- The line with a given number, without the carriage returns at its end;
none for 0 and for a number past the last line. -/
def lineAt? (source : String) (number : Nat) : Option String :=
  match number with
  | 0 => none
  | index + 1 =>
    (lines source.toList)[index]?.map fun line =>
      String.ofList (dropReturns line)

/-- Every line ended by a line feed. -/
def unlines (lines : List String) : String :=
  String.join (lines.map (· ++ "\n"))

/-! ## Markers

Where a short text, such as a comment marker, first occurs in a line. -/

/-- The marker stands somewhere in the text. -/
def holds (marker : List Char) : List Char → Bool
  | [] => marker.isPrefixOf []
  | c :: rest => marker.isPrefixOf (c :: rest) || holds marker rest

/-- The text in front of the first occurrence of the marker, the whole text
when there is none. -/
def before (marker : List Char) : List Char → List Char
  | [] => []
  | c :: rest =>
    if marker.isPrefixOf (c :: rest) then [] else c :: before marker rest

/-! ## Fields

Fields have a minimal width. A text that is longer than its field keeps its
length. -/

/-- The text at the left end of a field of blanks. -/
def padEnd (width : Nat) (text : String) : String :=
  text ++ String.ofList (List.replicate (width - text.length) ' ')

/-- The text at the right end of a field filled with `fill`. -/
def padStart (width : Nat) (fill : Char) (text : String) : String :=
  String.ofList (List.replicate (width - text.length) fill) ++ text

end FlowLex.Text
