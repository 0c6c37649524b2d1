import FlowLex.Proofs.Progress
import Mathlib

/-!
# Every line is accounted for once

A report keeps its tokens, summaries, messages and diagnostics in four lists.
Here they are sorted by line number again, the summaries and messages by the
number that they start with. A line without code is found in none of the lists;
a line with code has either one summary or one message with its diagnostic. The
lists follow the order of the lines and hold nothing else.
-/

namespace FlowLex

open Text

/-! ## Texts that start with a line number -/

/-- The text starts with some words, a number and a mark behind the number. -/
def startsWithNumber (words : String) (number : ℕ) (mark : Char) (text : String) : Bool :=
  (words.toList ++ (number.repr.toList ++ [mark])).isPrefixOf text.toList

theorem takeWhile_isDigit_repr (n : ℕ) {mark : Char} (hmark : mark.isDigit = false)
    (rest : List Char) :
    (n.repr.toList ++ mark :: rest).takeWhile Char.isDigit = n.repr.toList := by
  rw [List.takeWhile_append_of_pos, List.takeWhile_cons_of_neg (by simp [hmark]),
    List.append_nil]
  intro c hc
  rw [Nat.toList_repr] at hc
  exact Nat.isDigit_of_mem_toDigits (by decide) (by decide) hc

/-- The number can be read off: the mark behind it ends its digits. -/
theorem startsWithNumber_eq {words text : String} {n : ℕ} {mark : Char}
    (hmark : mark.isDigit = false) {rest : List Char}
    (htext : text.toList = words.toList ++ (n.repr.toList ++ mark :: rest)) (number : ℕ) :
    startsWithNumber words number mark text = (n == number) := by
  rw [Bool.eq_iff_iff, startsWithNumber, List.isPrefixOf_iff_prefix, htext,
    List.prefix_append_right_inj, beq_iff_eq]
  constructor
  · rintro ⟨more, hmore⟩
    rw [List.append_assoc, List.singleton_append] at hmore
    rw [← Nat.repr_inj, ← String.toList_inj, ← takeWhile_isDigit_repr n hmark rest, ← hmore,
      takeWhile_isDigit_repr number hmark more]
  · rintro rfl
    exact ⟨rest, by simp⟩

/-! ## A report line by line -/

namespace Report

def tokensOn (report : Report) (number : ℕ) : List Token :=
  report.tokens.filter (·.line == number)

def summariesOn (report : Report) (number : ℕ) : List String :=
  report.summaries.filter (startsWithNumber "Line " number ' ')

def errorsOn (report : Report) (number : ℕ) : List String :=
  report.errors.filter (startsWithNumber "Error on Line " number ':')

def diagnosticsOn (report : Report) (number : ℕ) : List Diagnostic :=
  report.diagnostics.filter (·.line == number)

/-- The number of a line and, from left to right, the tag and the value of each token
that the report has on it: `Line 3 (id1, x) (semicolon, ;)`. -/
def summaryOf (report : Report) (number : ℕ) : String :=
  "Line " ++ number.repr ++ String.join ((report.tokensOn number).map fun token =>
    " (" ++ token.kind.tag ++ ", " ++ token.value ++ ")")

/-- What a report holds on the line with a given number. Where no code is left
it holds nothing. Where some is, the tokens are the accepted lexemes of the code
from left to right, and there is either one summary, with all lexemes accepted,
or one error, about a lexeme that is not. -/
inductive Accounts (report : Report) (number : ℕ) : Option (List Char) → Prop
  | discarded :
      report.tokensOn number = [] → report.summariesOn number = [] →
      report.errorsOn number = [] → report.diagnosticsOn number = [] →
      Accounts report number none
  | valid {code : List Char} :
      (∀ value ∈ values code, isAccepted value) →
      (report.tokensOn number).map Token.value = values code →
      report.summariesOn number = [report.summaryOf number] →
      report.errorsOn number = [] → report.diagnosticsOn number = [] →
      Accounts report number (some code)
  | invalid {code : List Char} {d : Diagnostic} :
      d.lexeme ∈ values code → isAccepted d.lexeme = false →
      (report.tokensOn number).map Token.value = (values code).filter isAccepted →
      report.summariesOn number = [] →
      report.errorsOn number = [d.message] → report.diagnosticsOn number = [d] →
      Accounts report number (some code)

end Report

/-! ## What one piece of code gives -/

theorem values_ne_nil {text : List Char} (h : ¬ IsGap text) : values text ≠ [] := by
  induction text using scan_induction with
  | nil => exact absurd isGap_nil h
  | blank c rest hc ih =>
      have hgap : IsGap [c] := isGap_cons.mpr ⟨hc, isGap_nil⟩
      rw [← List.singleton_append, values_gap_append hgap]
      exact ih fun hrest => h (isGap_cons.mpr ⟨hc, hrest⟩)
  | lexeme value rest hlex ih =>
      rw [values_lexeme hlex]
      exact List.cons_ne_nil _ _

/-- There is a lexeme in every piece of code. -/
theorem values_code_ne_nil {mode : Mode} {line code : List Char}
    (h : mode.codeOf? line = some code) : values code ≠ [] := by
  obtain ⟨-, -, rfl, hne⟩ := codeOf?_eq_some_iff.mp h
  rw [values_trim]
  exact values_ne_nil fun hgap => hne (trim_eq_nil_iff.mpr hgap)

section OfCode

variable (table : Variables) (piece : ℕ × List Char)

theorem values_tokens_ofCode :
    (Line.ofCode table piece).tokens.map Token.value = (values piece.2).filter isAccepted := by
  have hplaced := placed_filterMap_tokenIn? table ((values piece.2).map (piece.1, ·))
  rw [← tokens_ofCode, List.filter_map] at hplaced
  have hvalues := congrArg (List.map Prod.snd) hplaced
  rw [List.map_map, List.map_map] at hvalues
  rw [show Token.value = Prod.snd ∘ Token.placed from rfl, hvalues]
  exact List.map_id _

theorem of_error?_ofCode_eq_some {d : Diagnostic}
    (h : (Line.ofCode table piece).error? = some d) :
    d.line = piece.1 ∧ d.lexeme ∈ values piece.2 ∧ isAccepted d.lexeme = false := by
  obtain ⟨lexeme, hlex, hrej, rfl⟩ := exists_of_error?_ofCode h
  exact ⟨rfl, List.mem_map_of_mem hlex, hrej⟩

end OfCode

/-- The summary of a line with tokens starts with its number. -/
theorem startsWithNumber_summary {line : Line} (h : line.tokens ≠ []) (number : ℕ) :
    startsWithNumber "Line " number ' ' line.summary = (line.number == number) := by
  obtain ⟨token, more, htokens⟩ := List.exists_cons_of_ne_nil h
  apply startsWithNumber_eq (by decide)
  rw [Line.summary, htokens]
  simp [String.join_cons]
  rfl

theorem startsWithNumber_message (d : Diagnostic) (number : ℕ) :
    startsWithNumber "Error on Line " number ':' d.message = (d.line == number) := by
  apply startsWithNumber_eq (by decide)
  simp [Diagnostic.message]
  rfl

/-- **A line with code is valid or invalid.** It has a summary and no error, or
the error of a rejected lexeme and no summary. -/
theorem valid_or_invalid_ofCode {source : String} {piece : ℕ × List Char}
    (hpiece : piece ∈ codeLines source) (table : Variables) :
    ((∀ value ∈ values piece.2, isAccepted value) ∧ (Line.ofCode table piece).error? = none ∧
      (Line.ofCode table piece).summary? = some (Line.ofCode table piece).summary) ∨
    (∃ d, (Line.ofCode table piece).error? = some d ∧
      (Line.ofCode table piece).summary? = none) := by
  cases herror : (Line.ofCode table piece).error? with
  | some d =>
      refine Or.inr ⟨d, rfl, ?_⟩
      simp [Line.summary?, Line.isInvalid, herror]
  | none =>
      have hacc := error?_ofCode_eq_none_iff.mp herror
      -- All lexemes are tokens, and there is one.
      have htokens : (Line.ofCode table piece).tokens ≠ [] := by
        intro hnil
        obtain ⟨index, line, -, -, hcode⟩ := mem_codeLines hpiece
        apply values_code_ne_nil hcode
        rw [← List.filter_eq_self.mpr hacc, ← values_tokens_ofCode table piece, hnil]
        rfl
      refine Or.inl ⟨hacc, rfl, ?_⟩
      simp [Line.summary?, Line.isInvalid, herror, htokens]

/-! ## The lists of a report by line number -/

/-- What is found under a number in a list made of the pieces of code is what the
piece with that number gives. -/
theorem filter_flatMap_codeLines {α : Type} {source : String}
    {f : ℕ × List Char → List α} {p : α → Bool} {number : ℕ}
    (h : ∀ piece ∈ codeLines source, ∀ a ∈ f piece, p a = (piece.1 == number)) :
    ((codeLines source).flatMap f).filter p =
      ((codeAt? source number).map (number, ·)).toList.flatMap f := by
  rw [← filter_codeLines]
  generalize codeLines source = pieces at h
  induction pieces with
  | nil => rfl
  | cons piece rest ih =>
      have hrest := ih fun q hq => h q (List.mem_cons_of_mem _ hq)
      have hfirst := h piece List.mem_cons_self
      rw [List.flatMap_cons, List.filter_append, hrest]
      cases hnumber : piece.1 == number with
      | true =>
          rw [hnumber] at hfirst
          rw [List.filter_eq_self.mpr hfirst, List.filter_cons, if_pos hnumber,
            List.flatMap_cons]
      | false =>
          rw [hnumber] at hfirst
          rw [List.filter_eq_nil_iff.mpr (by simpa using hfirst), List.filter_cons,
            if_neg (by simp [hnumber]), List.nil_append]

theorem filter_filterMap_codeLines {α : Type} {source : String}
    {f : ℕ × List Char → Option α} {p : α → Bool} {number : ℕ}
    (h : ∀ piece ∈ codeLines source, ∀ a ∈ f piece, p a = (piece.1 == number)) :
    ((codeLines source).filterMap f).filter p =
      (((codeAt? source number).map (number, ·)).bind f).toList := by
  rw [List.filterMap_eq_flatMap_toList, filter_flatMap_codeLines (by simpa using h)]
  cases codeAt? source number <;> simp

section OnLine

variable (source : String) (number : ℕ)

theorem tokensOn_analyze : (analyze source).tokensOn number =
    ((codeAt? source number).map (number, ·)).toList.flatMap fun piece =>
      (Line.ofCode (variablesOf source) piece).tokens := by
  rw [Report.tokensOn, tokens_eq_flatMap]
  apply filter_flatMap_codeLines
  intro piece _ token htoken
  rw [(of_mem_tokens_ofCode htoken).1]

theorem diagnosticsOn_analyze : (analyze source).diagnosticsOn number =
    (((codeAt? source number).map (number, ·)).bind fun piece =>
      (Line.ofCode (variablesOf source) piece).error?).toList := by
  rw [Report.diagnosticsOn, diagnostics_eq_filterMap]
  apply filter_filterMap_codeLines
  intro piece _ d hd
  rw [(of_error?_ofCode_eq_some _ _ hd).1]

theorem errorsOn_analyze : (analyze source).errorsOn number =
    ((analyze source).diagnosticsOn number).map Diagnostic.message := by
  rw [Report.errorsOn, errors_analyze, List.filter_map]
  congr 1
  apply List.filter_congr
  intro d _
  exact startsWithNumber_message d number

theorem summariesOn_analyze : (analyze source).summariesOn number =
    (((codeAt? source number).map (number, ·)).bind fun piece =>
      (Line.ofCode (variablesOf source) piece).summary?).toList := by
  rw [Report.summariesOn, summaries_eq_filterMap]
  apply filter_filterMap_codeLines
  intro piece _ summary hsummary
  rw [Option.mem_def, Line.summary?, Option.ite_none_left_eq_some, Bool.or_eq_true, not_or,
    List.isEmpty_iff] at hsummary
  obtain ⟨⟨-, htokens⟩, hsome⟩ := hsummary
  rw [← Option.some.inj hsome]
  exact startsWithNumber_summary htokens number

end OnLine

/-- A summary is the number of the line and its tokens, each behind a blank. -/
theorem Line.summary_eq (line : Line) :
    line.summary = "Line " ++ line.number.repr ++ String.join (line.tokens.map fun token =>
      " (" ++ token.kind.tag ++ ", " ++ token.value ++ ")") := by
  have hblank (token : Token) :
      " " ++ token.text = " (" ++ token.kind.tag ++ ", " ++ token.value ++ ")" := by
    have hopen : " " ++ "(" = " (" := rfl
    simp only [Token.text, ← String.append_assoc, hopen]
  simp only [Line.summary, hblank]

theorem summaryOf_analyze {source : String} {piece : ℕ × List Char}
    (h : piece ∈ codeLines source) :
    (analyze source).summaryOf piece.1 = (Line.ofCode (variablesOf source) piece).summary := by
  rw [Report.summaryOf, tokensOn_analyze, mem_codeLines_iff.mp h, Option.map_some,
    Option.toList_some, List.flatMap_cons, List.flatMap_nil, List.append_nil, Line.summary_eq]
  rfl

/-- A report holds on each line what the code of the line asks for. -/
theorem accounts_analyze (source : String) (number : ℕ) :
    (analyze source).Accounts number (codeAt? source number) := by
  have htokens := tokensOn_analyze source number
  have hdiagnostics := diagnosticsOn_analyze source number
  have herrors := errorsOn_analyze source number
  have hsummaries := summariesOn_analyze source number
  cases hcode : codeAt? source number with
  | none =>
      rw [hcode] at htokens hdiagnostics hsummaries
      rw [hdiagnostics] at herrors
      exact .discarded htokens hsummaries herrors hdiagnostics
  | some code =>
      have hpiece : (number, code) ∈ codeLines source := mem_codeLines_iff.mpr hcode
      have hvalues := values_tokens_ofCode (variablesOf source) (number, code)
      rw [hcode] at htokens hdiagnostics hsummaries
      simp only [Option.map_some, Option.toList_some, List.flatMap_cons, List.flatMap_nil,
        List.append_nil, Option.bind_some] at htokens hdiagnostics hsummaries
      rw [← htokens] at hvalues
      rcases valid_or_invalid_ofCode hpiece (variablesOf source) with
        ⟨hacc, hnone, hsome⟩ | ⟨d, hsome, hnone⟩
      · rw [hnone] at hdiagnostics
        rw [hdiagnostics] at herrors
        rw [hsome] at hsummaries
        refine .valid hacc ?_ ?_ herrors hdiagnostics
        · rw [hvalues, List.filter_eq_self.mpr hacc]
        · rw [hsummaries, summaryOf_analyze hpiece]
          rfl
      · rw [hsome] at hdiagnostics
        rw [hdiagnostics] at herrors
        rw [hnone] at hsummaries
        obtain ⟨-, hmem, hrej⟩ := of_error?_ofCode_eq_some _ _ hsome
        exact .invalid hmem hrej hvalues hsummaries herrors hdiagnostics

/-! ## The order of the lists -/

/-- Every piece of code gives one summary or one diagnostic. -/
theorem length_summaries_add_length_errors (source : String) :
    (analyze source).summaries.length + (analyze source).errors.length =
      (codeLines source).length := by
  rw [errors_analyze, List.length_map, summaries_eq_filterMap, diagnostics_eq_filterMap,
    List.length_filterMap_eq_countP, List.length_filterMap_eq_countP,
    List.length_eq_countP_add_countP fun piece =>
      (Line.ofCode (variablesOf source) piece).summary?.isSome]
  congr 1
  apply List.countP_congr
  intro piece hpiece
  rcases valid_or_invalid_ofCode hpiece (variablesOf source) with
    ⟨-, hnone, hsome⟩ | ⟨d, hsome, hnone⟩ <;> simp [hnone, hsome]

theorem length_codeLines (source : String) :
    (codeLines source).length =
      (List.range' 1 (lines source.toList).length).countP fun number =>
        (codeAt? source number).isSome := by
  rw [codeLines_eq, List.length_filterMap_eq_countP]
  simp only [Option.isSome_map]

theorem diagnostics_increasing (source : String) :
    ((analyze source).diagnostics.map Diagnostic.line).Pairwise (· < ·) := by
  rw [List.pairwise_map, diagnostics_eq_filterMap]
  refine (codeLines_increasing source).filterMap _ ?_
  intro a b hlt d hd e he
  rw [(of_error?_ofCode_eq_some _ _ hd).1, (of_error?_ofCode_eq_some _ _ he).1]
  exact hlt

theorem tokens_ordered (source : String) :
    ((analyze source).tokens.map Token.line).Pairwise (· ≤ ·) := by
  have hplaced : ((analyze source).tokens.map Token.placed).Pairwise fun a b => a.1 ≤ b.1 := by
    rw [placed_tokens]
    exact (placedValues_ordered source).filter _
  rw [List.pairwise_map] at hplaced ⊢
  exact hplaced

/-- The numbers of the lines that have a summary. -/
def summaryNumbers (source : String) : List ℕ :=
  ((codeLines source).filter fun piece =>
    (Line.ofCode (variablesOf source) piece).summary?.isSome).map Prod.fst

theorem summaryNumbers_increasing (source : String) :
    (summaryNumbers source).Pairwise (· < ·) := by
  rw [summaryNumbers, List.pairwise_map]
  exact (codeLines_increasing source).filter _

theorem summaries_eq_map (source : String) :
    (analyze source).summaries = (summaryNumbers source).map (analyze source).summaryOf := by
  rw [summaries_eq_filterMap, summaryNumbers, List.map_map, ← List.filterMap_eq_map,
    List.filterMap_filter]
  apply List.filterMap_congr
  intro piece hpiece
  rw [Function.comp_apply, Function.comp_apply, summaryOf_analyze hpiece]
  rcases valid_or_invalid_ofCode hpiece (variablesOf source) with
    ⟨-, -, hsome⟩ | ⟨d, -, hnone⟩
  · rw [hsome]
    rfl
  · rw [hnone]
    rfl

/-- **Every line is accounted for once.** Under every number the report holds
what the code of that line asks for, so a summary or an error stands for each
line with code. The messages are those of the diagnostics. The diagnostics and
the summaries are in the strict order of their lines, the tokens in the order of
theirs. -/
theorem every_line_accounted_once (source : String) :
    (∀ number, (analyze source).Accounts number (codeAt? source number)) ∧
      (analyze source).summaries.length + (analyze source).errors.length =
        (List.range' 1 (lines source.toList).length).countP
          (fun number => (codeAt? source number).isSome) ∧
      (analyze source).errors = (analyze source).diagnostics.map Diagnostic.message ∧
      ((analyze source).diagnostics.map Diagnostic.line).Pairwise (· < ·) ∧
      (∃ numbers : List ℕ, numbers.Pairwise (· < ·) ∧
        (analyze source).summaries = numbers.map (analyze source).summaryOf) ∧
      ((analyze source).tokens.map Token.line).Pairwise (· ≤ ·) := by
  refine ⟨accounts_analyze source, ?_, errors_analyze source, diagnostics_increasing source,
    ?_, tokens_ordered source⟩
  · rw [length_summaries_add_length_errors, length_codeLines]
  · exact ⟨summaryNumbers source, summaryNumbers_increasing source, summaries_eq_map source⟩

end FlowLex
