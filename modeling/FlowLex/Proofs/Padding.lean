import FlowLex.Proofs.Reading
import FlowLex.Report.Output
import Mathlib

/-!
# Blanks around lines

Blanks at the front and at the back of a line are taken off before anything is
read or shown. So indentation and the form of the line ends have no influence on
the report on a source, nor on the way in which it is written.
-/

namespace FlowLex

open Text

/-- The line with more blanks at its front and at its back. -/
def IsPadded (line padded : List Char) : Prop :=
  ∃ front back, IsGap front ∧ IsGap back ∧ padded = front ++ line ++ back

/-- Each line of the one source is a line of the other with more blanks around
it. No line holds a line feed, so none is among these blanks. -/
def Padded (source padded : String) : Prop :=
  List.Forall₂ IsPadded (lines source.toList) (lines padded.toList)

/-- The source with a carriage return in front of each line feed. -/
def withReturns (source : String) : String :=
  String.ofList (source.toList.flatMap fun c => if c = '\n' then ['\r', '\n'] else [c])

/-! ## Line ends -/

theorem isPadded_of_append_gap {line back : List Char} (hback : IsGap back) :
    IsPadded line (line ++ back) :=
  ⟨[], back, isGap_nil, hback, rfl⟩

/-- Carriage returns come to stand at the back of lines only, so a line goes on to
the left as before. -/
theorem lines_withReturns (text : List Char) :
    List.Forall₂ (fun line other => ∃ back, IsGap back ∧ other = line ++ back) (lines text)
      (lines (text.flatMap fun c => if c = '\n' then ['\r', '\n'] else [c])) := by
  induction text with
  | nil => exact .cons ⟨[], isGap_nil, rfl⟩ .nil
  | cons c text ih =>
      by_cases hc : c = '\n'
      · subst hc
        have hreturn : IsGap ['\r'] := isGap_cons.mpr ⟨isBlank_return, isGap_nil⟩
        rw [List.flatMap_cons, if_pos rfl, List.cons_append, List.cons_append,
          List.nil_append, lines_cons, lines_cons, lines_cons, consLine_newline,
          consLine_newline, consLine_cons (by decide)]
        exact .cons ⟨['\r'], hreturn, rfl⟩ ih
      · rw [List.flatMap_cons, if_neg hc, List.singleton_append, lines_cons, lines_cons]
        obtain ⟨line, rest, hlines⟩ := List.exists_cons_of_ne_nil (lines_ne_nil text)
        rw [hlines] at ih ⊢
        obtain ⟨other, others, ⟨back, hback, rfl⟩, hrest, hothers⟩ :=
          List.forall₂_cons_left_iff.mp ih
        rw [hothers, consLine_cons hc, consLine_cons hc]
        exact .cons ⟨back, hback, rfl⟩ hrest

theorem padded_withReturns (source : String) : Padded source (withReturns source) := by
  rw [Padded, withReturns, String.toList_ofList]
  apply (lines_withReturns source.toList).imp
  rintro line other ⟨back, hback, rfl⟩
  exact isPadded_of_append_gap hback

/-! ## Reading padded lines -/

theorem isBlank_slash : isBlank '/' = false := by decide

theorem isBlank_star : isBlank '*' = false := by decide

theorem IsPadded.trim_eq {line padded : List Char} (h : IsPadded line padded) :
    trim padded = trim line := by
  obtain ⟨front, back, hfront, hback, rfl⟩ := h
  rw [trim_append_gap hback, trim_gap_append hfront]

theorem IsPadded.holds_pair {a b : Char} (ha : isBlank a = false) (hb : isBlank b = false)
    {line padded : List Char} (h : IsPadded line padded) :
    holds [a, b] padded = holds [a, b] line := by
  obtain ⟨front, back, hfront, hback, rfl⟩ := h
  rw [Bool.eq_iff_iff, holds_iff_infix, holds_iff_infix,
    pair_infix_append_gap ha hb hback, pair_infix_gap_append ha hfront]

theorem IsPadded.next_eq {line padded : List Char} (h : IsPadded line padded) (mode : Mode) :
    mode.next padded = mode.next line := by
  have hopen : holds blockOpen padded = holds blockOpen line :=
    h.holds_pair isBlank_slash isBlank_star
  have hclose : holds blockClose padded = holds blockClose line :=
    h.holds_pair isBlank_star isBlank_slash
  cases mode <;> simp [Mode.next, hopen, hclose]

theorem IsPadded.codeOf?_eq {line padded : List Char} (h : IsPadded line padded)
    (mode : Mode) : mode.codeOf? padded = mode.codeOf? line := by
  have hopen : holds blockOpen padded = holds blockOpen line :=
    h.holds_pair isBlank_slash isBlank_star
  have htext : trim (before lineComment padded) = trim (before lineComment line) := by
    obtain ⟨front, back, hfront, hback, rfl⟩ := h
    exact trim_before_pad isBlank_slash isBlank_slash hfront hback line
  cases mode with
  | block => rfl
  | code => simp [Mode.codeOf?, hopen, htext]

theorem codeLines_run_padded {texts padded : List (List Char)}
    (h : List.Forall₂ IsPadded texts padded) (mode : Mode) (number : ℕ) :
    mode.codeLines number padded = mode.codeLines number texts := by
  induction h generalizing mode number with
  | nil => rfl
  | cons hline _ ih =>
      rw [Mode.codeLines, Mode.codeLines, hline.codeOf?_eq, hline.next_eq, ih]

/-! ## Showing padded lines -/

theorem map_trim_padded {texts padded : List (List Char)}
    (h : List.Forall₂ IsPadded texts padded) : padded.map trim = texts.map trim := by
  induction h with
  | nil => rfl
  | cons hline _ ih => rw [List.map_cons, List.map_cons, hline.trim_eq, ih]

section Padded

variable {source padded : String} (h : Padded source padded)

include h

/-- The lines of the sources are the same once they are trimmed. -/
theorem trim_lineAt?_padded (number : ℕ) :
    (lineAt? padded number).map (fun line => trim line.toList) =
      (lineAt? source number).map fun line => trim line.toList := by
  cases number with
  | zero => rfl
  | succ index =>
      have htrim : ((fun line : String => trim line.toList) ∘
          fun line => String.ofList (dropReturns line)) = trim := by
        funext line
        rw [Function.comp_apply, String.toList_ofList, trim_dropReturns]
      rw [lineAt?_succ, lineAt?_succ, Option.map_map, Option.map_map, htrim,
        ← List.getElem?_map, ← List.getElem?_map, map_trim_padded h]

theorem renderLines_padded (d : Diagnostic) :
    d.renderLines padded = d.renderLines source := by
  have hline := trim_lineAt?_padded h d.line
  have hexcerpt : d.excerpt padded = d.excerpt source := by
    unfold Diagnostic.excerpt
    cases hpadded : lineAt? padded d.line with
    | none =>
        rw [hpadded, Option.map_none, @eq_comm _ none, Option.map_eq_none_iff] at hline
        rw [hline]
    | some shown =>
        rw [hpadded, Option.map_some, @eq_comm _ (some _), Option.map_eq_some_iff] at hline
        obtain ⟨line, hsource, htrim⟩ := hline
        rw [hsource]
        simp only [htrim]
  rw [Diagnostic.renderLines, Diagnostic.renderLines, hexcerpt]

theorem textLines_padded (report : Report) (settings : Settings) :
    report.textLines padded settings = report.textLines source settings := by
  have herrors : report.errorLines padded settings = report.errorLines source settings := by
    unfold Report.errorLines
    rw [funext (renderLines_padded h)]
  rw [Report.textLines, Report.textLines, herrors]

end Padded

/-- **Blanks around lines have no influence.** A source with more blanks around
its lines, such as one with carriage returns in front of its line feeds, has the
same report, its diagnostics are shown in the same way, and the same is written
for it under all settings. -/
theorem padding_has_no_influence (source : String) :
    Padded source (withReturns source) ∧
      ∀ padded, Padded source padded →
        analyze padded = analyze source ∧
          (∀ d : Diagnostic, d.render padded = d.render source) ∧
          ∀ settings, (analyze padded).write padded settings =
            (analyze source).write source settings := by
  refine ⟨padded_withReturns source, fun padded h => ?_⟩
  have hreport : analyze padded = analyze source :=
    analyze_congr (codeLines_run_padded h .code 1)
  refine ⟨hreport, fun d => ?_, fun settings => ?_⟩
  · rw [Diagnostic.render, Diagnostic.render, renderLines_padded h]
  · rw [hreport, Report.write, Report.write, Report.text, Report.text, textLines_padded h]

/-- The column of `@` and the place of the caret stay behind a wide blank, in front
of a carriage return and above lines of a block comment. -/
theorem padding_has_no_influence_wide_blank :
    Padded "a @\n/* b\n*/" "\u3000a @ \r\n\t/* b\n*/\u00a0" ∧
      (analyze "\u3000a @ \r\n\t/* b\n*/\u00a0").diagnostics = [⟨"@", 1, some 2⟩] ∧
      (⟨"@", 1, some 2⟩ : Diagnostic).render "\u3000a @ \r\n\t/* b\n*/\u00a0" =
        "Error on Line 1: Invalid syntax or unrecognized token.\n" ++
          "  InvalidLexeme\n  |\n1 | a @\n  | --^\n" := by
  have hlines : lines "a @\n/* b\n*/".toList =
      ["a @".toList, "/* b".toList, "*/".toList] := by decide
  have hothers : lines "\u3000a @ \r\n\t/* b\n*/\u00a0".toList =
      ["\u3000".toList ++ "a @".toList ++ " \r".toList, "\t".toList ++ "/* b".toList ++ [],
        [] ++ "*/".toList ++ "\u00a0".toList] := by decide
  have hpadded : Padded "a @\n/* b\n*/" "\u3000a @ \r\n\t/* b\n*/\u00a0" := by
    rw [Padded, hlines, hothers]
    exact .cons ⟨_, _, by decide, by decide, rfl⟩
      (.cons ⟨_, _, by decide, by decide, rfl⟩
        (.cons ⟨_, _, by decide, by decide, rfl⟩ .nil))
  obtain ⟨hreport, hrender, -⟩ := (padding_has_no_influence _).2 _ hpadded
  refine ⟨hpadded, ?_, ?_⟩
  · rw [hreport]
    cbv
  · rw [hrender]
    cbv

end FlowLex
