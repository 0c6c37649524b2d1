import FlowLex.Proofs.Code
import Mathlib.Data.List.Infix

/-!
# The code of a line is a clean prefix

A line has code exactly when it is read as code, opens no block comment and shows
something in front of its first line comment. The code is trimmed, holds no comment
marker and stands at the front of the trimmed line, in which only blanks part it from
the comment. Read as a line of its own it is its own code.
-/

namespace FlowLex

open Text

/-- `code` is what is left of `line`, and nothing more can be taken off it. -/
structure IsCleanCode (code line : List Char) : Prop where
  ne_nil : code ≠ []
  trim_eq : trim code = code
  not_lineComment : ¬ lineComment <:+: code
  not_blockOpen : ¬ blockOpen <:+: code
  /-- Behind the code the trimmed line ends, or blanks, if any, and a comment follow. -/
  behind : ∃ rest, trim line = code ++ rest ∧
    (rest = [] ∨ ∃ gap comment, IsGap gap ∧ rest = gap ++ lineComment ++ comment)
  again : Mode.code.codeOf? code = some code

/-- A line that is read as code has some when something is shown in front of its first
line comment. -/
theorem exists_code_iff {mode : Mode} {line : List Char} :
    (∃ code, mode.codeOf? line = some code) ↔
      mode = .code ∧ ¬ blockOpen <:+: line ∧
        ∃ front, IsInFront lineComment line front ∧ ∃ c ∈ front, isBlank c = false := by
  simp only [codeOf?_eq_some_iff, isInFront_iff, exists_eq_left, ← trim_ne_nil_iff]
  constructor
  · rintro ⟨code, hmode, hopen, rfl, hne⟩
    exact ⟨hmode, hopen, hne⟩
  · rintro ⟨hmode, hopen, hne⟩
    exact ⟨_, hmode, hopen, rfl, hne⟩

theorem next_of_codeOf? {mode : Mode} {line code : List Char}
    (h : mode.codeOf? line = some code) : mode.next line = .code := by
  obtain ⟨rfl, hopen, -, -⟩ := codeOf?_eq_some_iff.mp h
  exact next_of_no_marker hopen

/-- Trimming a line moves no character in front of its code and leaves the comment
behind it. -/
theorem exists_behind_code {mode : Mode} {line code : List Char}
    (h : mode.codeOf? line = some code) :
    ∃ rest, trim line = code ++ rest ∧
      (rest = [] ∨ ∃ gap comment, IsGap gap ∧ rest = gap ++ lineComment ++ comment) := by
  obtain ⟨-, -, rfl, hne⟩ := codeOf?_eq_some_iff.mp h
  rcases isInFront_before lineComment line with ⟨-, hall⟩ | ⟨⟨comment, hsplit⟩, -⟩
  · exact ⟨[], by rw [hall, List.append_nil], Or.inl rfl⟩
  · obtain ⟨left, gap, hleft, hgap, hfront⟩ :=
      eq_gap_append_trim_append_gap (before lineComment line)
    have hline : line = left ++ (trim (before lineComment line) ++
        (gap ++ lineComment ++ comment)) := by
      rw [hfront] at hsplit
      simpa using hsplit
    refine ⟨gap ++ lineComment ++ trimRight comment, ?_,
      Or.inr ⟨gap, trimRight comment, hgap, rfl⟩⟩
    generalize trim (before lineComment line) = code at hline hne h
    have hhead : ∀ c ∈ code.head?, isBlank c = false := by
      obtain ⟨-, -, rfl, -⟩ := codeOf?_eq_some_iff.mp h
      exact isBlank_head?_trim _
    -- The slash in front of the comment text keeps the trim away from the code.
    have hlast : (code ++ (gap ++ lineComment)).getLast? = some '/' := by
      simp [lineComment]
    calc trim line
        = trim (code ++ (gap ++ lineComment ++ comment)) := by
          rw [hline, trim_gap_append hleft]
      _ = trimRight (code ++ (gap ++ lineComment) ++ comment) := by
          rw [trim, trimLeft_append_of_head? hne hhead, List.append_assoc code]
      _ = code ++ (gap ++ lineComment ++ trimRight comment) := by
          rw [trimRight_append_of_getLast? hlast (by decide), List.append_assoc code]

/-- The code of a line is the code of the line that it makes. -/
theorem codeOf?_code {mode : Mode} {line code : List Char}
    (h : mode.codeOf? line = some code) : Mode.code.codeOf? code = some code := by
  rw [codeOf?_of_no_marker (not_blockOpen_infix_code h) (not_lineComment_infix_code h)]
  obtain ⟨-, -, rfl, hne⟩ := codeOf?_eq_some_iff.mp h
  rw [trim_trim, if_neg hne]

theorem isCleanCode_of_codeOf? {mode : Mode} {line code : List Char}
    (h : mode.codeOf? line = some code) : IsCleanCode code line where
  ne_nil := (codeOf?_eq_some_iff.mp h).2.2.2
  trim_eq := by
    obtain ⟨-, -, rfl, -⟩ := codeOf?_eq_some_iff.mp h
    exact trim_trim _
  not_lineComment := not_lineComment_infix_code h
  not_blockOpen := not_blockOpen_infix_code h
  behind := exists_behind_code h
  again := codeOf?_code h

/-- **The code of a line is a clean prefix.** In either mode and for any line there is
code exactly when the line is read as code, holds no `/*` and shows something in front
of its first `//`; then the line leaves the mode as it is and the code is clean. -/
theorem code_of_line_is_clean (mode : Mode) (line : List Char) :
    ((∃ code, mode.codeOf? line = some code) ↔
        mode = .code ∧ ¬ blockOpen <:+: line ∧
          ∃ front, IsInFront lineComment line front ∧ ∃ c ∈ front, isBlank c = false) ∧
      ∀ code, mode.codeOf? line = some code →
        mode.next line = .code ∧ IsCleanCode code line := by
  refine ⟨exists_code_iff, ?_⟩
  intro code h
  exact ⟨next_of_codeOf? h, isCleanCode_of_codeOf? h⟩

/-- Behind a wide blank stands `///`, whose first two slashes are the marker; the slash
in the code is followed by a blank and is none. -/
theorem code_of_line_is_clean_three_slashes :
    Mode.code.codeOf? "\t a / *b\u3000 /// é\r".toList = some "a / *b".toList ∧
      Mode.code.next "\t a / *b\u3000 /// é\r".toList = .code ∧
      IsCleanCode "a / *b".toList "\t a / *b\u3000 /// é\r".toList := by
  have hcode : Mode.code.codeOf? "\t a / *b\u3000 /// é\r".toList =
      some "a / *b".toList := by decide
  exact ⟨hcode, (code_of_line_is_clean _ _).2 _ hcode⟩

end FlowLex
