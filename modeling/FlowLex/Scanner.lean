import FlowLex.Lexeme

/-!
# Scanners

A scanner goes through the code of a line, keeps the lexemes that it meets and
counts how far it has come. It is used for one line after the other and starts
each of them from scratch, so what it finds is what a scan of that line finds.
-/

namespace FlowLex

open Text

/-- The lexemes met on a line and the byte offset reached in it. -/
structure Scanner where
  lexemes : Array Lexeme := #[]
  column : Nat := 0
  deriving DecidableEq, Repr

namespace Scanner

/-- Keeps a lexeme that starts at the offset reached. -/
def push (scanner : Scanner) (value : List Char) : Scanner :=
  { scanner with lexemes := scanner.lexemes.push ⟨String.ofList value, scanner.column⟩ }

/-- Goes on by some bytes. -/
def advance (scanner : Scanner) (size : Nat) : Scanner :=
  { scanner with column := scanner.column + size }

/-- Goes through what is left of a line. Blanks are passed over, lexemes are
kept. -/
def run (scanner : Scanner) : List Char → Scanner
  | [] => scanner
  | c :: rest =>
    if isBlank c then
      (scanner.advance c.utf8Size).run rest
    else
      let parts := splitLexeme c rest
      ((scanner.push parts.1).advance (byteSize parts.1)).run parts.2
termination_by text => text.length
decreasing_by
  · simp
  · exact Nat.lt_succ_of_le (length_splitLexeme_le c rest)

/-- The lexemes of a line, whatever the scanner still holds. They are taken out
of it; the offset stays where the line ended. -/
def scanLine (scanner : Scanner) (text : List Char) : List Lexeme × Scanner :=
  let fresh := { scanner with lexemes := #[], column := 0 }
  let finished := fresh.run text
  (finished.lexemes.toList, { finished with lexemes := #[] })

/-- What a scanner meets from its offset on is put behind what it holds. -/
theorem toList_lexemes_run (scanner : Scanner) (text : List Char) :
    (scanner.run text).lexemes.toList =
      scanner.lexemes.toList ++ scanFrom scanner.column text := by
  fun_induction run scanner text with
  | case1 scanner => rw [scanFrom, List.append_nil]
  | case2 scanner c rest hc ih =>
      rw [ih, scanFrom, if_pos hc]
      rfl
  | case3 scanner c rest hc parts ih =>
      rw [ih, scanFrom, if_neg hc]
      simp [push, advance, parts]

theorem lexemes_scanLine (scanner : Scanner) (text : List Char) :
    (scanner.scanLine text).1 = scanFrom 0 text := by
  rw [scanLine, toList_lexemes_run]
  rfl

end Scanner

end FlowLex
