import FlowLex.Text.Basic

/-!
# Lexemes

The code of a line is cut into lexemes without looking at what they mean:
runs of word characters, closed string literals and single characters.
Blanks separate lexemes and belong to none.
-/

namespace FlowLex

open Text

/-- A piece of the code of a line and the byte offset at which it starts. -/
structure Lexeme where
  value : String
  column : Nat
  deriving DecidableEq, Repr

/-- The characters of names, numbers and reserved words. -/
def isWordChar (c : Char) : Bool :=
  c.isAlphanum || c == '_'

/-- The lexeme that starts with `c` when `rest` follows it, and the text
behind that lexeme. A quote starts a string only when it is closed. -/
def splitLexeme (c : Char) (rest : List Char) : List Char × List Char :=
  if isWordChar c then
    (c :: rest.takeWhile isWordChar, rest.dropWhile isWordChar)
  else if c == '"' && rest.contains '"' then
    (c :: rest.takeWhile (· != '"') ++ ['"'], (rest.dropWhile (· != '"')).tail)
  else
    ([c], rest)

theorem length_dropWhile_le (p : Char → Bool) (text : List Char) :
    (text.dropWhile p).length ≤ text.length :=
  (List.dropWhile_sublist p).length_le

theorem length_splitLexeme_le (c : Char) (rest : List Char) :
    (splitLexeme c rest).2.length ≤ rest.length := by
  unfold splitLexeme
  split
  · exact length_dropWhile_le _ _
  · split
    · have := length_dropWhile_le (· != '"') rest
      simp only [List.length_tail]
      omega
    · exact Nat.le_refl _

/-- The lexemes of a text whose first character stands at byte `column`. -/
def scanFrom (column : Nat) : List Char → List Lexeme
  | [] => []
  | c :: rest =>
    if isBlank c then
      scanFrom (column + c.utf8Size) rest
    else
      let parts := splitLexeme c rest
      ⟨String.ofList parts.1, column⟩ ::
        scanFrom (column + byteSize parts.1) parts.2
termination_by text => text.length
decreasing_by
  · simp
  · exact Nat.lt_succ_of_le (length_splitLexeme_le c rest)

end FlowLex
