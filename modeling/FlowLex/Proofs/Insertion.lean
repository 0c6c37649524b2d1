import FlowLex.Proofs.Accounting
import FlowLex.Proofs.Relocation
import Mathlib

/-!
# A line without code put in

A line that leaves no code and lets the mode be, such as a blank line, a line
comment or a line inside a block comment, can be put in anywhere. The lines
behind it are read as before under the next higher numbers, so the report is the
same but for these numbers, in its records and in its texts.
-/

namespace FlowLex

open Text

/-! ## Numbers in texts -/

/-- The text with another number behind the words at its front. -/
def mapNumberAfter (words : String) (f : ℕ → ℕ) (text : String) : String :=
  let behind := text.toList.drop words.length
  let number := Nat.ofDigitChars 10 (behind.takeWhile Char.isDigit) 0
  words ++ (f number).repr ++ String.ofList (behind.dropWhile Char.isDigit)

theorem mapNumberAfter_eq {words text : String} {n : ℕ} {mark : Char}
    (hmark : mark.isDigit = false) {rest : List Char}
    (htext : text.toList = words.toList ++ (n.repr.toList ++ mark :: rest)) (f : ℕ → ℕ) :
    mapNumberAfter words f text = words ++ (f n).repr ++ String.ofList (mark :: rest) := by
  have hbehind : text.toList.drop words.length = n.repr.toList ++ mark :: rest := by
    rw [htext, ← String.length_toList, List.drop_left]
  have hdigits := takeWhile_isDigit_repr n hmark rest
  -- The digits are cut off whole, so what is left starts with the mark.
  have hrest : (n.repr.toList ++ mark :: rest).dropWhile Char.isDigit = mark :: rest := by
    have hcut := List.takeWhile_append_dropWhile (p := Char.isDigit)
      (l := n.repr.toList ++ mark :: rest)
    rw [hdigits] at hcut
    exact List.append_cancel_left hcut
  have hnumber : Nat.ofDigitChars 10 n.repr.toList 0 = n := by
    rw [Nat.toList_repr]
    exact Nat.ofDigitChars_toDigits (by decide) (by decide)
  simp only [mapNumberAfter, hbehind, hdigits, hrest, hnumber]

theorem message_mapLine (f : ℕ → ℕ) (d : Diagnostic) :
    (d.mapLine f).message = mapNumberAfter "Error on Line " f d.message := by
  have htext : d.message.toList = "Error on Line ".toList ++ (d.line.repr.toList ++
      ':' :: " Invalid syntax or unrecognized token.".toList) := by
    simp [Diagnostic.message]
  rw [mapNumberAfter_eq (by decide) htext]
  rfl

/-- The tokens in a summary do not show their line. -/
theorem summary_mapNumber {line : Line} (h : line.tokens ≠ []) (f : ℕ → ℕ) :
    (line.mapNumber f).summary = mapNumberAfter "Line " f line.summary := by
  obtain ⟨token, more, htokens⟩ := List.exists_cons_of_ne_nil h
  have hsame : (line.mapNumber f).tokens.map (fun token => " " ++ token.text) =
      line.tokens.map fun token => " " ++ token.text := by
    rw [Line.mapNumber, List.map_map]
    rfl
  have hjoin : String.join (line.tokens.map fun token => " " ++ token.text) =
      String.ofList (' ' :: (token.text ++
        String.join (more.map fun token => " " ++ token.text)).toList) := by
    rw [htokens, List.map_cons, String.join_cons, String.append_assoc, ← String.toList_inj]
    simp
  have htext : line.summary.toList = "Line ".toList ++ (line.number.repr.toList ++
      ' ' :: (token.text ++
        String.join (more.map fun token => " " ++ token.text)).toList) := by
    rw [Line.summary, hjoin]
    simp
  rw [mapNumberAfter_eq (by decide) htext, ← hjoin, Line.summary, hsame]
  rfl

theorem summary?_mapNumber (f : ℕ → ℕ) (line : Line) :
    (line.mapNumber f).summary? = line.summary?.map (mapNumberAfter "Line " f) := by
  have hinvalid : (line.mapNumber f).isInvalid = line.isInvalid := Option.isSome_map
  have hempty : (line.mapNumber f).tokens.isEmpty = line.tokens.isEmpty := List.isEmpty_map
  rw [Line.summary?, Line.summary?, hinvalid, hempty]
  cases h : line.isInvalid || line.tokens.isEmpty with
  | true => rfl
  | false =>
      rw [Bool.or_eq_false_iff, List.isEmpty_eq_false_iff] at h
      rw [summary_mapNumber h.2]
      rfl

/-! ## Reports with other line numbers -/

/-- The report with other line numbers, in its records and in its texts. -/
def Report.mapNumbers (f : ℕ → ℕ) (report : Report) : Report where
  tokens := report.tokens.map (Token.mapLine f)
  summaries := report.summaries.map (mapNumberAfter "Line " f)
  errors := report.errors.map (mapNumberAfter "Error on Line " f)
  vars := report.vars
  diagnostics := report.diagnostics.map (Diagnostic.mapLine f)

theorem ofLines_mapNumber (f : ℕ → ℕ) (lines : List Line) (table : Variables) :
    Report.ofLines (lines.map (Line.mapNumber f)) table =
      (Report.ofLines lines table).mapNumbers f := by
  have htokens : (lines.map (Line.mapNumber f)).flatMap Line.tokens =
      (lines.flatMap Line.tokens).map (Token.mapLine f) := by
    rw [List.flatMap_map, List.map_flatMap]
    rfl
  have hsummaries : (lines.map (Line.mapNumber f)).filterMap Line.summary? =
      (lines.filterMap Line.summary?).map (mapNumberAfter "Line " f) := by
    rw [List.filterMap_map, List.map_filterMap]
    apply List.filterMap_congr
    intro line _
    exact summary?_mapNumber f line
  have hdiagnostics : (lines.map (Line.mapNumber f)).filterMap Line.error? =
      (lines.filterMap Line.error?).map (Diagnostic.mapLine f) := by
    rw [List.filterMap_map, List.map_filterMap]
    rfl
  have herrors : ((lines.filterMap Line.error?).map (Diagnostic.mapLine f)).map
      Diagnostic.message = ((lines.filterMap Line.error?).map Diagnostic.message).map
        (mapNumberAfter "Error on Line " f) := by
    rw [List.map_map, List.map_map]
    apply List.map_congr_left
    intro d _
    exact message_mapLine f d
  simp only [Report.ofLines, Report.mapNumbers, htokens, hsummaries, hdiagnostics, herrors]

/-- Sources with the same code under other numbers have the same report but for
the numbers. -/
theorem analyze_of_codeLines_map {source other : String} {f : ℕ → ℕ}
    (h : codeLines other = (codeLines source).map fun piece => (f piece.1, piece.2)) :
    analyze other = (analyze source).mapNumbers f := by
  have htable : variablesOf other = variablesOf source := by
    rw [variablesOf, variablesOf, h, namesIn, namesIn, List.flatMap_map]
  rw [analyze_eq, analyze_eq, ← ofLines_mapNumber, htable, h, List.map_map, List.map_map]
  congr 1
  apply List.map_congr_left
  intro piece _
  exact ofCode_mapNumber _ f piece.1 piece.2

/-! ## One more line -/

/-- The source with one more line behind its first `k`. -/
def insertLine (source : String) (k : ℕ) (text : String) : String :=
  ofLines ((lines source.toList).take k ++ text.toList :: (lines source.toList).drop k)

/-- The number of a line when one more line stands behind line `k`. -/
def numberPast (k number : ℕ) : ℕ :=
  if number ≤ k then number else number + 1

theorem lines_insertLine {text : String} (htext : '\n' ∉ text.toList) (source : String)
    (k : ℕ) :
    lines (insertLine source k text).toList =
      (lines source.toList).take k ++ text.toList :: (lines source.toList).drop k := by
  apply lines_ofLines
  · simp
  · intro line hline
    rcases List.mem_append.mp hline with hfront | hback
    · exact not_newline_mem_of_mem_lines (List.mem_of_mem_take hfront)
    · rcases List.mem_cons.mp hback with rfl | hback
      · exact htext
      · exact not_newline_mem_of_mem_lines (List.mem_of_mem_drop hback)

theorem codeLines_run_above (mode : Mode) {k : ℕ} {texts : List (List Char)}
    (h : texts.length ≤ k) :
    (mode.codeLines 1 texts).map (fun piece => (numberPast k piece.1, piece.2)) =
      mode.codeLines 1 texts := by
  conv_rhs => rw [← List.map_id (mode.codeLines 1 texts)]
  apply List.map_congr_left
  intro piece hpiece
  have hlt := (number_of_mem_codeLines_run hpiece).2
  rw [numberPast, if_pos (by omega)]
  rfl

theorem codeLines_run_below (mode : Mode) (k : ℕ) (texts : List (List Char)) :
    (mode.codeLines (1 + k) texts).map (fun piece => (numberPast k piece.1, piece.2)) =
      mode.codeLines (1 + k + 1) texts := by
  rw [codeLines_run_add mode (1 + k) 1]
  apply List.map_congr_left
  intro piece hpiece
  have hle := (number_of_mem_codeLines_run hpiece).1
  rw [numberPast, if_neg (by omega)]

/-- The code stays, under the numbers that its lines have now. -/
theorem codeLines_insertLine {source text : String} {k : ℕ}
    (hk : k ≤ (lines source.toList).length) (htext : '\n' ∉ text.toList)
    (hcode : (sessionAt source k).mode.codeOf? text.toList = none)
    (hmode : (sessionAt source k).mode.next text.toList = (sessionAt source k).mode) :
    codeLines (insertLine source k text) =
      (codeLines source).map fun piece => (numberPast k piece.1, piece.2) := by
  have hlength : ((lines source.toList).take k).length = k := List.length_take_of_le hk
  rw [codeLines_eq_append hk, List.map_append, codeLines_run_above _ hlength.le,
    codeLines_run_below, codeLines, lines_insertLine htext, codeLines_run_append, hlength,
    ← mode_sessionAt, Mode.codeLines, hcode, hmode]
  rfl

/-- **A line without code only moves the lines behind it.** When a line that
leaves no code and does not change the mode is put in behind line `k`, the report
is the same but for the line numbers above `k`, which are higher by one. -/
theorem analyze_insertLine {source text : String} {k : ℕ}
    (hk : k ≤ (lines source.toList).length) (htext : '\n' ∉ text.toList)
    (hcode : (sessionAt source k).mode.codeOf? text.toList = none)
    (hmode : (sessionAt source k).mode.next text.toList = (sessionAt source k).mode) :
    analyze (insertLine source k text) = (analyze source).mapNumbers (numberPast k) :=
  analyze_of_codeLines_map (codeLines_insertLine hk htext hcode hmode)

/-- A line put into a block comment moves the end of the comment and the invalid
line behind it. -/
theorem analyze_insertLine_in_block :
    insertLine "x\na /* b\n*/\n@ c" 2 "d // e" = "x\na /* b\nd // e\n*/\n@ c" ∧
      (sessionAt "x\na /* b\n*/\n@ c" 2).mode = .block ∧
      (analyze "x\na /* b\nd // e\n*/\n@ c").summaries = ["Line 1 (id1, x)"] ∧
      (analyze "x\na /* b\nd // e\n*/\n@ c").errors =
        ["Error on Line 5: Invalid syntax or unrecognized token."] ∧
      (analyze "x\na /* b\nd // e\n*/\n@ c").diagnostics = [⟨"@", 5, some 0⟩] ∧
      (analyze "x\na /* b\nd // e\n*/\n@ c").vars = [⟨"x", 1⟩, ⟨"c", 2⟩] := by
  have hsource : insertLine "x\na /* b\n*/\n@ c" 2 "d // e" =
      "x\na /* b\nd // e\n*/\n@ c" := by decide
  have hmode : (sessionAt "x\na /* b\n*/\n@ c" 2).mode = .block := by
    rw [mode_sessionAt]
    decide
  have hreport : analyze "x\na /* b\n*/\n@ c" =
      { tokens := [⟨1, .name 1, "x"⟩, ⟨4, .name 2, "c"⟩]
        summaries := ["Line 1 (id1, x)"]
        errors := ["Error on Line 4: Invalid syntax or unrecognized token."]
        vars := [⟨"x", 1⟩, ⟨"c", 2⟩]
        diagnostics := [⟨"@", 4, some 0⟩] } := by cbv
  have hmoved : analyze (insertLine "x\na /* b\n*/\n@ c" 2 "d // e") =
      (analyze "x\na /* b\n*/\n@ c").mapNumbers (numberPast 2) :=
    analyze_insertLine (by decide) (by decide) (by rw [hmode]; decide)
      (by rw [hmode]; decide)
  rw [hsource, hreport] at hmoved
  rw [hmoved]
  refine ⟨hsource, hmode, ?_, ?_, ?_, rfl⟩
  · decide
  · decide
  · decide

end FlowLex
