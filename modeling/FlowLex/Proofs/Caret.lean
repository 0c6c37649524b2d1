import FlowLex.Proofs.Reading
import Mathlib

/-!
# The caret stands under the lexeme

The column of a diagnostic counts bytes of the code of its line; the caret is
placed in characters under the trimmed line. The code stands at the front of the
trimmed line, so both speak of the same place, whatever the blanks, comments,
carriage returns and long characters around it.
-/

namespace FlowLex

open Text

/-! ## Bytes -/

theorem byteSize_eq_utf8ByteSize (text : List Char) :
    byteSize text = (String.ofList text).utf8ByteSize := by
  induction text with
  | nil => rfl
  | cons c text ih =>
      rw [show c :: text = [c] ++ text from rfl, String.ofList_append,
        String.utf8ByteSize_append, ← String.singleton_eq_ofList,
        String.utf8ByteSize_singleton, ← ih, byteSize_append, byteSize_cons, byteSize_nil,
        Nat.add_zero]

/-- The text in front of an offset that is the size of a prefix. -/
theorem takeBytes?_byteSize (front back : List Char) :
    takeBytes? (byteSize front) (front ++ back) = some front := by
  induction front with
  | nil => simp [takeBytes?]
  | cons c front ih =>
      obtain ⟨size, hsize⟩ := Nat.exists_eq_succ_of_ne_zero (Nat.pos_iff_ne_zero.mp c.utf8Size_pos)
      have htotal : byteSize (c :: front) = size + byteSize front + 1 := by
        rw [byteSize_cons, hsize]
        omega
      have hle : c.utf8Size ≤ size + byteSize front + 1 := by omega
      have hrest : size + byteSize front + 1 - c.utf8Size = byteSize front := by omega
      rw [htotal, List.cons_append, takeBytes?, if_pos hle, hrest, ih]
      rfl

/-! ## Lines without line feeds -/

theorem not_newline_mem_append {front back : String} (hfront : '\n' ∉ front.toList)
    (hback : '\n' ∉ back.toList) : '\n' ∉ (front ++ back).toList := by
  rw [String.toList_append, List.mem_append]
  exact not_or.mpr ⟨hfront, hback⟩

theorem not_newline_mem_repr (n : ℕ) : '\n' ∉ n.repr.toList := by
  rw [Nat.toList_repr]
  intro hmem
  have hdigit := Nat.isDigit_of_mem_toDigits (by decide) (by decide) hmem
  exact absurd hdigit (by decide)

theorem not_newline_mem_padStart {width : ℕ} {fill : Char} {text : String}
    (hfill : fill ≠ '\n') (htext : '\n' ∉ text.toList) :
    '\n' ∉ (padStart width fill text).toList := by
  simp [padStart, htext, Ne.symm hfill]

namespace Diagnostic

theorem not_newline_mem_message (d : Diagnostic) : '\n' ∉ d.message.toList := by
  have hfront : '\n' ∉ "Error on Line ".toList := by decide
  have hback : '\n' ∉ ": Invalid syntax or unrecognized token.".toList := by decide
  exact not_newline_mem_append
    (not_newline_mem_append hfront (not_newline_mem_repr d.line)) hback

theorem not_newline_mem_gutter (d : Diagnostic) : '\n' ∉ d.gutter.toList :=
  not_newline_mem_padStart (by decide) (by decide)

theorem not_newline_mem_tip {d : Diagnostic} (h : '\n' ∉ d.lexeme.toList) {tip : String}
    (htip : d.tip? = some tip) : '\n' ∉ tip.toList := by
  unfold tip? at htip
  split at htip
  · obtain rfl := Option.some.inj htip
    decide
  · split at htip
    · obtain rfl := Option.some.inj htip
      simp [h]
    · simp at htip
  · simp at htip

theorem not_newline_mem_heading {d : Diagnostic} (h : '\n' ∉ d.lexeme.toList) :
    '\n' ∉ d.heading.toList := by
  unfold heading
  cases htip : d.tip? with
  | none => simp [name]
  | some tip => simp [name, not_newline_mem_tip h htip]

/-! ## The line with the caret -/

/-- The number of the line and the bar, in front of the source line. -/
def margin (d : Diagnostic) : String := d.line.repr ++ " | "

/-- The source line as it is shown. -/
def shownLine (d : Diagnostic) (text : List Char) : String :=
  d.margin ++ String.ofList text

/-- The line with the caret when `front` stands in front of the lexeme. -/
def caretLine (d : Diagnostic) (front : List Char) : String :=
  d.gutter ++ " " ++ padStart (front.length + 1) '-' "^"

theorem length_margin (d : Diagnostic) : d.margin.length = d.line.repr.length + 3 := by
  rw [margin, String.length_append]
  rfl

theorem toList_shownLine (d : Diagnostic) (text : List Char) :
    (d.shownLine text).toList = d.margin.toList ++ text := by
  simp [shownLine]

theorem toList_gutter (d : Diagnostic) :
    d.gutter.toList = List.replicate (d.line.repr.length + 1) ' ' ++ ['|'] := by
  rw [gutter, padStart, String.toList_append, String.toList_ofList,
    show "|".length = 1 from rfl]
  rfl

theorem toList_caretLine (d : Diagnostic) (front : List Char) :
    (d.caretLine front).toList =
      (List.replicate (d.line.repr.length + 1) ' ' ++ ['|', ' '] ++
        List.replicate front.length '-') ++ ['^'] := by
  rw [caretLine, String.toList_append, String.toList_append, toList_gutter, padStart,
    String.toList_append, String.toList_ofList, show "^".length = 1 from rfl]
  simp

/-- The caret is as far to the right as the text behind `front` in the line
above. -/
theorem idxOf_caretLine (d : Diagnostic) (front : List Char) :
    (d.caretLine front).toList.idxOf '^' = d.margin.length + front.length := by
  rw [toList_caretLine, List.idxOf_append_of_notMem (by simp), length_margin]
  simp
  omega

theorem not_newline_mem_shownLine {d : Diagnostic} {text : List Char} (h : '\n' ∉ text) :
    '\n' ∉ (d.shownLine text).toList := by
  have hmargin : '\n' ∉ d.margin.toList :=
    not_newline_mem_append (not_newline_mem_repr d.line) (by decide)
  exact not_newline_mem_append hmargin (by rwa [String.toList_ofList])

theorem not_newline_mem_caretLine (d : Diagnostic) (front : List Char) :
    '\n' ∉ (d.caretLine front).toList := by
  have hpad : '\n' ∉ (padStart (front.length + 1) '-' "^").toList :=
    not_newline_mem_padStart (by decide) (by decide)
  exact not_newline_mem_append
    (not_newline_mem_append d.not_newline_mem_gutter (by decide)) hpad

/-- What is shown of a line whose trimmed text goes on behind `front`, when the
column is the size of `front`. -/
theorem renderLines_of_column {d : Diagnostic} {source line : String} {front back : List Char}
    (hline : lineAt? source d.line = some line)
    (htext : trim line.toList = front ++ back) (hcol : d.column = some (byteSize front)) :
    d.renderLines source = [d.message, d.heading, d.gutter,
      d.shownLine (trim line.toList), d.caretLine front] := by
  have hcaret : d.caretLine? (trim line.toList) = some (d.caretLine front) := by
    rw [caretLine?, hcol, htext]
    show (takeBytes? (byteSize front) (front ++ back)).bind _ = _
    rw [takeBytes?_byteSize]
    rfl
  simp [renderLines, excerpt, hline, hcaret, shownLine, margin]

theorem render_of_column {d : Diagnostic} {source line : String} {front back : List Char}
    (hline : lineAt? source d.line = some line)
    (htext : trim line.toList = front ++ back) (hcol : d.column = some (byteSize front)) :
    d.render source = d.message ++ "\n" ++ d.heading ++ "\n" ++ d.gutter ++ "\n" ++
      d.shownLine (trim line.toList) ++ "\n" ++ d.caretLine front ++ "\n" := by
  rw [render, renderLines_of_column hline htext hcol]
  simp [String.append_assoc]

/-! ## Diagnostics of a report -/

/-- The diagnostic shows where its lexeme stands: its column is the byte offset
of the lexeme in the trimmed line, and it is shown in five lines, the caret of
the last under the first character of the lexeme in the one above. -/
def PointsAtLexeme (d : Diagnostic) (source : String) : Prop :=
  ∃ (column : ℕ) (line : String) (front back : List Char) (marker : String),
    d.column = some column ∧
    lineAt? source d.line = some line ∧
    trim line.toList = front ++ d.lexeme.toList ++ back ∧
    (String.ofList front).utf8ByteSize = column ∧
    column < (String.ofList (trim line.toList)).utf8ByteSize ∧
    (∀ text ∈ [d.message, d.heading, d.gutter, d.shownLine (trim line.toList), marker],
      '\n' ∉ text.toList) ∧
    d.render source = d.message ++ "\n" ++ d.heading ++ "\n" ++ d.gutter ++ "\n" ++
      d.shownLine (trim line.toList) ++ "\n" ++ marker ++ "\n" ∧
    '^' ∈ marker.toList ∧
    marker.toList.idxOf '^' = d.margin.length + front.length ∧
    (d.shownLine (trim line.toList)).toList.drop (marker.toList.idxOf '^') =
      d.lexeme.toList ++ back

end Diagnostic

/-- A diagnostic is about a lexeme in the trimmed line with its number. -/
theorem exists_line_of_mem_diagnostics {source : String} {d : Diagnostic}
    (h : d ∈ (analyze source).diagnostics) :
    ∃ (line : String) (front back : List Char),
      lineAt? source d.line = some line ∧ '\n' ∉ trim line.toList ∧
        trim line.toList = front ++ d.lexeme.toList ++ back ∧
        d.column = some (byteSize front) ∧ d.lexeme.toList ≠ [] := by
  obtain ⟨piece, hpiece, lexeme, hlex, -, rfl⟩ := exists_of_mem_diagnostics h
  obtain ⟨index, line, hnumber, hget, hcode⟩ := mem_codeLines hpiece
  obtain ⟨front, back, hsplit, hcol, hne⟩ := exists_append_of_mem_scanFrom hlex
  obtain ⟨more, hmore⟩ := code_prefix_trim hcode
  refine ⟨String.ofList (dropReturns line), front, back ++ more, ?_, ?_, ?_, ?_, hne⟩
  · show lineAt? source piece.1 = _
    rw [hnumber, lineAt?_succ, hget]
    rfl
  · rw [String.toList_ofList, trim_dropReturns]
    intro hmem
    have hline := not_newline_mem_of_mem_lines (List.mem_of_getElem? hget)
    exact hline ((trim_infix_self line).subset hmem)
  · rw [String.toList_ofList, trim_dropReturns, ← hmore, hsplit]
    simp
  · rw [hcol, Nat.zero_add]

/-- **Columns and carets are exact.** Every diagnostic of a report points at its
lexeme. -/
theorem pointsAtLexeme_of_mem_diagnostics {source : String} {d : Diagnostic}
    (h : d ∈ (analyze source).diagnostics) : d.PointsAtLexeme source := by
  obtain ⟨line, front, back, hline, hfeed, htext, hcol, hne⟩ :=
    exists_line_of_mem_diagnostics h
  have hlexeme : '\n' ∉ d.lexeme.toList := by
    intro hmem
    apply hfeed
    rw [htext]
    simp [hmem]
  refine ⟨byteSize front, line, front, back, d.caretLine front, hcol, hline, htext,
    (byteSize_eq_utf8ByteSize front).symm, ?_, ?_, ?_, ?_, d.idxOf_caretLine front, ?_⟩
  · -- The lexeme has a first character, which takes at least one byte.
    obtain ⟨c, tail, hcons⟩ := List.exists_cons_of_ne_nil hne
    have hpos := c.utf8Size_pos
    rw [← byteSize_eq_utf8ByteSize, htext, hcons]
    simp
    omega
  · intro text hmem
    simp only [List.mem_cons, List.not_mem_nil, or_false] at hmem
    rcases hmem with rfl | rfl | rfl | rfl | rfl
    · exact d.not_newline_mem_message
    · exact Diagnostic.not_newline_mem_heading hlexeme
    · exact d.not_newline_mem_gutter
    · exact Diagnostic.not_newline_mem_shownLine hfeed
    · exact d.not_newline_mem_caretLine front
  · rw [List.append_assoc] at htext
    exact Diagnostic.render_of_column hline htext hcol
  · rw [Diagnostic.toList_caretLine]
    simp
  · rw [Diagnostic.idxOf_caretLine, Diagnostic.toList_shownLine, htext]
    have hlen : d.margin.length + front.length = (d.margin.toList ++ front).length := by
      rw [List.length_append, String.length_toList]
    rw [hlen, List.append_assoc front, ← List.append_assoc, List.drop_left]

/-- The caret under `@` is placed behind a comment, a carriage return and a
character of two bytes. -/
theorem pointsAtLexeme_at_sign :
    ⟨"@", 2, some 10⟩ ∈ (analyze "Start\n  show \"é\" @; // c\r").diagnostics ∧
      Diagnostic.PointsAtLexeme ⟨"@", 2, some 10⟩ "Start\n  show \"é\" @; // c\r" := by
  have hmem : ⟨"@", 2, some 10⟩ ∈ (analyze "Start\n  show \"é\" @; // c\r").diagnostics := by
    have hall : (analyze "Start\n  show \"é\" @; // c\r").diagnostics =
        [⟨"@", 2, some 10⟩] := by cbv
    rw [hall]
    exact List.mem_singleton_self _
  exact ⟨hmem, pointsAtLexeme_of_mem_diagnostics hmem⟩

end FlowLex
