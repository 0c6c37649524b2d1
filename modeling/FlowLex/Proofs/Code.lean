import FlowLex.Session
import FlowLex.Proofs.Text.Lines
import FlowLex.Proofs.Text.Marker

/-!
# The code of a source

What is left of one line stands at the front of the trimmed line and holds no
comment marker. The code of a whole source is what its lines leave when they are
gone through one after the other, each piece with the number of its line.
-/

namespace FlowLex

open Text

/-! ## One line -/

theorem codeOf?_eq_some_iff {mode : Mode} {line code : List Char} :
    mode.codeOf? line = some code ↔
      mode = .code ∧ ¬ blockOpen <:+: line ∧
        code = trim (before lineComment line) ∧ code ≠ [] := by
  cases mode with
  | block => simp [Mode.codeOf?]
  | code =>
      by_cases hopen : blockOpen <:+: line
      · have hholds := holds_iff_infix.mpr hopen
        simp [Mode.codeOf?, hholds, hopen]
      · have hholds := holds_eq_false_iff.mpr hopen
        simp only [Mode.codeOf?, hholds, Bool.false_or, List.isEmpty_iff,
          Option.ite_none_left_eq_some, Option.some.injEq, true_and, hopen, not_false_eq_true]
        constructor
        · rintro ⟨hne, rfl⟩
          exact ⟨rfl, hne⟩
        · rintro ⟨rfl, hne⟩
          exact ⟨hne, rfl⟩

/-- The code of a line stands at the front of the trimmed line. -/
theorem code_prefix_trim {mode : Mode} {line code : List Char}
    (h : mode.codeOf? line = some code) : code <+: trim line := by
  obtain ⟨-, -, rfl, -⟩ := codeOf?_eq_some_iff.mp h
  unfold trim lineComment
  rw [trimLeft_before (by decide)]
  exact trimRight_prefix_of_prefix (before_prefix_self _ _)

theorem not_blockOpen_infix_code {mode : Mode} {line code : List Char}
    (h : mode.codeOf? line = some code) : ¬ blockOpen <:+: code := by
  obtain ⟨-, hopen, -, -⟩ := codeOf?_eq_some_iff.mp h
  intro hinf
  exact hopen (hinf.trans ((code_prefix_trim h).isInfix.trans (trim_infix_self line)))

theorem not_lineComment_infix_code {mode : Mode} {line code : List Char}
    (h : mode.codeOf? line = some code) : ¬ lineComment <:+: code := by
  obtain ⟨-, -, rfl, -⟩ := codeOf?_eq_some_iff.mp h
  intro hinf
  exact not_infix_before (by decide) line (hinf.trans (trim_infix_self _))

/-- A line without comment markers keeps all its code. -/
theorem codeOf?_of_no_marker {line : List Char} (hblock : ¬ blockOpen <:+: line)
    (hline : ¬ lineComment <:+: line) :
    Mode.code.codeOf? line = if trim line = [] then none else some (trim line) := by
  simp [Mode.codeOf?, holds_eq_false_iff.mpr hblock, before_eq_self hline]

theorem next_of_no_marker {line : List Char} (hblock : ¬ blockOpen <:+: line) :
    Mode.code.next line = .code := by
  simp [Mode.next, holds_eq_false_iff.mpr hblock]

/-! ## A run over lines -/

/-- The code of lines that are numbered one after the other, with the number of
each line that has some. -/
def Mode.codeLines (mode : Mode) (number : ℕ) : List (List Char) → List (ℕ × List Char)
  | [] => []
  | line :: rest =>
      ((mode.codeOf? line).map (number, ·)).toList ++
        (mode.next line).codeLines (number + 1) rest

/-- The code of a source, each piece with the number of its line. -/
def codeLines (source : String) : List (ℕ × List Char) :=
  Mode.code.codeLines 1 (lines source.toList)

theorem mem_codeLines_run {mode : Mode} {number n : ℕ} {texts : List (List Char)}
    {code : List Char} (h : (n, code) ∈ mode.codeLines number texts) :
    ∃ index line, n = number + index ∧ texts[index]? = some line ∧
      Mode.code.codeOf? line = some code := by
  induction texts generalizing mode number with
  | nil => simp [Mode.codeLines] at h
  | cons line rest ih =>
      rw [Mode.codeLines, List.mem_append] at h
      rcases h with h | h
      · rw [Option.mem_toList, Option.map_eq_some_iff] at h
        obtain ⟨code', hcode, heq⟩ := h
        obtain ⟨rfl, rfl⟩ := Prod.mk.inj heq
        obtain ⟨rfl, -⟩ := codeOf?_eq_some_iff.mp hcode
        exact ⟨0, line, rfl, rfl, hcode⟩
      · obtain ⟨index, line', hn, hget, hcode⟩ := ih h
        exact ⟨index + 1, line', by omega, by simpa using hget, hcode⟩

/-- Each piece of code is the code of the line with its number. -/
theorem mem_codeLines {source : String} {n : ℕ} {code : List Char}
    (h : (n, code) ∈ codeLines source) :
    ∃ index line, n = index + 1 ∧ (lines source.toList)[index]? = some line ∧
      Mode.code.codeOf? line = some code := by
  obtain ⟨index, line, hn, hget, hcode⟩ := mem_codeLines_run h
  exact ⟨index, line, by omega, hget, hcode⟩

theorem not_newline_mem_code {source : String} {n : ℕ} {code : List Char}
    (h : (n, code) ∈ codeLines source) : '\n' ∉ code := by
  obtain ⟨index, line, -, hget, hcode⟩ := mem_codeLines h
  have hline := not_newline_mem_of_mem_lines (List.mem_of_getElem? hget)
  have hinf : code <:+: line := (code_prefix_trim hcode).isInfix.trans (trim_infix_self line)
  exact fun hmem => hline (hinf.subset hmem)

/-! ## Line numbers -/

theorem number_of_mem_codeLines_run {mode : Mode} {number : ℕ} {texts : List (List Char)}
    {piece : ℕ × List Char} (h : piece ∈ mode.codeLines number texts) :
    number ≤ piece.1 ∧ piece.1 < number + texts.length := by
  obtain ⟨index, line, hn, hget, -⟩ := mem_codeLines_run h
  have hlt := (List.getElem?_eq_some_iff.mp hget).1
  omega

theorem codeLines_run_increasing (mode : Mode) (number : ℕ) (texts : List (List Char)) :
    (mode.codeLines number texts).Pairwise fun a b => a.1 < b.1 := by
  induction texts generalizing mode number with
  | nil => exact List.Pairwise.nil
  | cons text rest ih =>
      rw [Mode.codeLines, List.pairwise_append]
      refine ⟨?_, ih _ _, ?_⟩
      · cases mode.codeOf? text with
        | none => exact List.Pairwise.nil
        | some code => exact List.pairwise_singleton _ _
      · intro a ha b hb
        rw [Option.mem_toList, Option.map_eq_some_iff] at ha
        obtain ⟨code, -, rfl⟩ := ha
        have := number_of_mem_codeLines_run hb
        show number < b.1
        omega

/-- Code comes in the order of its lines, one piece for a line at most. -/
theorem codeLines_increasing (source : String) :
    (codeLines source).Pairwise fun a b => a.1 < b.1 :=
  codeLines_run_increasing _ _ _

theorem number_of_mem_codeLines {source : String} {piece : ℕ × List Char}
    (h : piece ∈ codeLines source) :
    1 ≤ piece.1 ∧ piece.1 < 1 + (lines source.toList).length :=
  number_of_mem_codeLines_run h

end FlowLex
