import FlowLex.Proofs.Caret
import FlowLex.Proofs.FirstOccurrence
import FlowLex.Proofs.Respacing
import FlowLex.Proofs.Summary
import FlowLex.Report.Output

/-!
# Text output can be read back

A report is written as lines, and no line feed comes in with a spelling, a name or a
source line. The output can therefore be cut into the lines it was made of: the two
tables, the summaries, and the lines that show the errors, five for each diagnostic
when source lines are asked for. The rows of the token table end at the first empty
line, and each row shows its number, its class and its spelling whatever the columns
hold, so the tokens are known from the output.
-/

namespace FlowLex

open Text

/-! ## No line feed in what is shown -/

theorem not_newline_mem_of_mem_values {source : String} {piece : ℕ × List Char}
    (hpiece : piece ∈ codeLines source) {value : String} (h : value ∈ values piece.2) :
    '\n' ∉ value.toList :=
  fun hmem => not_newline_mem_code hpiece ((infix_of_mem_values h).subset hmem)

theorem not_newline_mem_of_mem_tokens {source : String} {token : Token}
    (h : token ∈ (analyze source).tokens) : '\n' ∉ token.value.toList := by
  rw [tokens_eq_flatMap, List.mem_flatMap] at h
  obtain ⟨piece, hpiece, htoken⟩ := h
  exact not_newline_mem_of_mem_values hpiece (of_mem_tokens_ofCode htoken).2.1

theorem not_newline_mem_of_mem_vars {source : String} {v : Variable}
    (h : v ∈ (analyze source).vars) : '\n' ∉ v.name.toList := by
  have hname : v.name ∈ (variablesOf source).names := by
    rw [vars_analyze] at h
    exact List.mem_map_of_mem h
  rw [names_variablesOf, List.mem_eraseDups, List.mem_map] at hname
  obtain ⟨token, htoken, hvalue⟩ := hname
  rw [← hvalue]
  exact not_newline_mem_of_mem_tokens (List.mem_of_mem_filter htoken)

theorem not_newline_mem_tag (kind : TokenClass) : '\n' ∉ kind.tag.toList :=
  kind.isWord_tag.not_mem (by decide)

theorem not_newline_mem_text {token : Token} (h : '\n' ∉ token.value.toList) :
    '\n' ∉ token.text.toList := by
  rw [toList_text]
  simp [not_newline_mem_tag, h]

theorem not_newline_mem_of_mem_summaries {source summary : String}
    (h : summary ∈ (analyze source).summaries) : '\n' ∉ summary.toList := by
  rw [summaries_eq_filterMap, List.mem_filterMap] at h
  obtain ⟨piece, hpiece, hsummary⟩ := h
  rw [Line.summary?, Option.ite_none_left_eq_some] at hsummary
  rw [← Option.some.inj hsummary.2, toList_summary, List.mem_append, List.mem_append]
  rintro (hmem | hmem | hmem)
  · exact absurd hmem (by decide)
  · exact not_newline_mem_repr _ hmem
  · obtain ⟨token, htoken, hmem⟩ := List.mem_flatMap.mp hmem
    rcases List.mem_cons.mp hmem with heq | hmem
    · exact absurd heq (by decide)
    · exact not_newline_mem_text
        (not_newline_mem_of_mem_values hpiece (of_mem_tokens_ofCode htoken).2.1) hmem

/-- A diagnostic of a report is shown in five lines. -/
theorem renderLines_of_mem_diagnostics {source : String} {d : Diagnostic}
    (h : d ∈ (analyze source).diagnostics) :
    (d.renderLines source).length = 5 ∧ ∀ text ∈ d.renderLines source, '\n' ∉ text.toList := by
  obtain ⟨line, front, back, hline, hfeed, htext, hcol, -⟩ := exists_line_of_mem_diagnostics h
  have hlexeme : '\n' ∉ d.lexeme.toList := by
    intro hmem
    apply hfeed
    rw [htext]
    simp [hmem]
  rw [List.append_assoc] at htext
  rw [Diagnostic.renderLines_of_column hline htext hcol]
  refine ⟨rfl, ?_⟩
  simp only [List.forall_mem_cons, List.not_mem_nil, false_implies, implies_true, and_true]
  exact ⟨d.not_newline_mem_message, Diagnostic.not_newline_mem_heading hlexeme,
    d.not_newline_mem_gutter, Diagnostic.not_newline_mem_shownLine hfeed,
    d.not_newline_mem_caretLine front⟩

namespace Report

/-! ## Rows -/

theorem toList_tableRow (line kind value : String) :
    (tableRow line kind value).toList =
      line.toList ++ (List.replicate (6 - line.length) ' ' ++ ' ' ::
        (kind.toList ++ (List.replicate (12 - kind.length) ' ' ++ ' ' :: value.toList))) := by
  simp [tableRow, padEnd]

theorem endsWord_replicate_blank (n : ℕ) (rest : List Char) :
    EndsWord (List.replicate n ' ' ++ ' ' :: rest) := by
  cases n with
  | zero => exact endsWord_cons.mpr (by decide)
  | succ n => exact endsWord_cons.mpr (by decide)

/-- A row shows all of its token, also where a column is too wide for its field. -/
theorem tokenRow_injective : Function.Injective tokenRow := by
  intro token other h
  rw [tokenRow, tokenRow, ← String.toList_inj, toList_tableRow, toList_tableRow] at h
  obtain ⟨hline, h⟩ :=
    repr_append_inj (endsWord_replicate_blank _ _) (endsWord_replicate_blank _ _) h
  -- Equal numbers are followed by equal blanks, and so are equal tags.
  rw [hline, List.append_cancel_left_eq, List.cons.injEq] at h
  obtain ⟨hkind, h⟩ := TokenClass.tag_append_inj (endsWord_replicate_blank _ _)
    (endsWord_replicate_blank _ _) h.2
  rw [hkind, List.append_cancel_left_eq, List.cons.injEq, String.toList_inj] at h
  obtain ⟨line, kind, value⟩ := token
  rw [Token.mk.injEq]
  exact ⟨hline, hkind, h.2⟩

theorem tokenRow_ne_empty (token : Token) : tokenRow token ≠ "" := by
  intro h
  have hlist := congrArg String.toList h
  rw [tokenRow, toList_tableRow] at hlist
  exact (isWord_repr token.line).1 (List.append_eq_nil_iff.mp hlist).1

theorem not_newline_mem_tableRow {line kind value : String} (hline : '\n' ∉ line.toList)
    (hkind : '\n' ∉ kind.toList) (hvalue : '\n' ∉ value.toList) :
    '\n' ∉ (tableRow line kind value).toList := by
  rw [toList_tableRow]
  simp [hline, hkind, hvalue]

theorem not_newline_mem_variableRow {v : Variable} (h : '\n' ∉ v.name.toList) :
    '\n' ∉ (variableRow v).toList := by
  have hid : '\n' ∉ (idTag v.id).toList := not_newline_mem_tag (.name v.id)
  simp [variableRow, padEnd, hid, h]

/-! ## Lines of the output -/

/-- The lines of a table: none when it has no rows, else its heading, the rows and an
empty line. -/
def shownTable (heading rows : List String) : List String :=
  if rows.isEmpty then [] else heading ++ rows ++ [""]

/-- What is shown of each error, error by error. -/
def errorBlocks (report : Report) (source : String) (settings : Settings) :
    List (List String) :=
  if settings.showSource then report.diagnostics.map (·.renderLines source)
  else report.errors.map ([·])

/-- The lines of a text output, section by section. -/
def sections (report : Report) (source : String) (settings : Settings) : List (List String) :=
  [if settings.showTokens then
      shownTable ["Symbol Table", "Line   Class Part   Value Part"] (report.tokens.map tokenRow)
    else [],
   if settings.showVariables then
      shownTable ["Variables"] (report.vars.map variableRow)
    else [],
   report.summaries,
   if report.errors.isEmpty then []
    else (if report.summaries.isEmpty then [] else [""]) ++
      (report.errorBlocks source settings).flatten]

theorem tokenTable_eq_shownTable (tokens : List Token) :
    tokenTable tokens =
      shownTable ["Symbol Table", "Line   Class Part   Value Part"] (tokens.map tokenRow) := by
  cases tokens with
  | nil => rfl
  | cons token tokens => rfl

theorem variableTable_eq_shownTable (vars : List Variable) :
    variableTable vars = shownTable ["Variables"] (vars.map variableRow) := by
  cases vars with
  | nil => rfl
  | cons v vars => rfl

theorem errorLines_eq_flatten (report : Report) (source : String) (settings : Settings) :
    report.errorLines source settings = (report.errorBlocks source settings).flatten := by
  unfold errorLines errorBlocks
  cases settings.showSource with
  | true => rfl
  | false => exact (List.flatMap_singleton' _).symm

end Report

section Output

variable (source : String) (settings : Settings)

theorem textLines_eq_flatten : (analyze source).textLines source settings =
    ((analyze source).sections source settings).flatten := by
  rw [Report.textLines, Report.tokenTable_eq_shownTable, Report.variableTable_eq_shownTable,
    Report.errorLines_eq_flatten, Report.gap, Report.isOk]
  cases herrors : (analyze source).errors.isEmpty with
  | false => simp [Report.sections, herrors]
  | true =>
      -- Without messages there are no diagnostics either.
      have hnone : (analyze source).diagnostics = [] := by
        rw [errors_analyze, List.isEmpty_iff, List.map_eq_nil_iff] at herrors
        exact herrors
      simp [Report.sections, Report.errorBlocks, hnone, List.isEmpty_iff.mp herrors]

theorem not_newline_mem_errorBlocks :
    ∀ text ∈ ((analyze source).errorBlocks source settings).flatten, '\n' ∉ text.toList := by
  intro text htext
  obtain ⟨block, hblock, htext⟩ := List.mem_flatten.mp htext
  unfold Report.errorBlocks at hblock
  split at hblock
  · obtain ⟨d, hd, rfl⟩ := List.mem_map.mp hblock
    exact (renderLines_of_mem_diagnostics hd).2 text htext
  · obtain ⟨message, hmessage, rfl⟩ := List.mem_map.mp hblock
    rw [errors_analyze] at hmessage
    obtain ⟨d, -, rfl⟩ := List.mem_map.mp hmessage
    rw [List.mem_singleton.mp htext]
    exact d.not_newline_mem_message

theorem not_newline_mem_shownTable {heading rows : List String}
    (hheading : ∀ text ∈ heading, '\n' ∉ text.toList)
    (hrows : ∀ text ∈ rows, '\n' ∉ text.toList) :
    ∀ text ∈ Report.shownTable heading rows, '\n' ∉ text.toList := by
  intro text htext
  unfold Report.shownTable at htext
  split at htext
  · exact absurd htext List.not_mem_nil
  · simp only [List.mem_append, List.mem_singleton] at htext
    rcases htext with (htext | htext) | rfl
    · exact hheading text htext
    · exact hrows text htext
    · decide

theorem not_newline_mem_sections :
    ∀ part ∈ (analyze source).sections source settings, ∀ text ∈ part, '\n' ∉ text.toList := by
  simp only [Report.sections, List.forall_mem_cons, List.not_mem_nil, false_implies,
    implies_true, and_true]
  refine ⟨?tokens, ?vars, ?summaries, ?errors⟩
  case tokens =>
    split
    · apply not_newline_mem_shownTable (by decide)
      rw [List.forall_mem_map]
      intro token htoken
      exact Report.not_newline_mem_tableRow (not_newline_mem_repr _) (not_newline_mem_tag _)
        (not_newline_mem_of_mem_tokens htoken)
    · exact fun text htext => absurd htext List.not_mem_nil
  case vars =>
    split
    · apply not_newline_mem_shownTable (by decide)
      rw [List.forall_mem_map]
      intro v hv
      exact Report.not_newline_mem_variableRow (not_newline_mem_of_mem_vars hv)
    · exact fun text htext => absurd htext List.not_mem_nil
  case summaries => exact fun summary hsummary => not_newline_mem_of_mem_summaries hsummary
  case errors =>
    split
    · exact fun text htext => absurd htext List.not_mem_nil
    · intro text htext
      rcases List.mem_append.mp htext with htext | htext
      · split at htext
        · exact absurd htext List.not_mem_nil
        · rw [List.mem_singleton.mp htext]
          decide
      · exact not_newline_mem_errorBlocks source settings text htext

/-- The output is cut at its line feeds into the lines of its sections. -/
theorem lines_write {settings : Settings} (hformat : settings.format = .text) :
    lines ((analyze source).write source settings).toList =
      ((analyze source).sections source settings).flatten.map String.toList ++ [[]] := by
  have hwrite : (analyze source).write source settings =
      unlines ((analyze source).sections source settings).flatten := by
    rw [Report.write, hformat, ← textLines_eq_flatten]
    rfl
  rw [hwrite]
  apply lines_unlines
  intro text htext
  obtain ⟨part, hpart, htext⟩ := List.mem_flatten.mp htext
  exact not_newline_mem_sections source settings part hpart text htext

/-! ## Reading the token table -/

/-- Without tokens there is nothing to show but errors. -/
theorem textLines_of_no_tokens (h : (analyze source).tokens = []) :
    (analyze source).textLines source settings =
      (analyze source).errorLines source settings := by
  have hvars : (analyze source).vars = [] := by
    have hnames := names_variablesOf source
    rw [h] at hnames
    rw [vars_analyze]
    exact List.map_eq_nil_iff.mp hnames
  have hsummaries : (analyze source).summaries = [] := by
    rw [summaries_eq_filterMap, List.filterMap_eq_nil_iff]
    rw [tokens_eq_flatMap, List.flatMap_eq_nil_iff] at h
    intro piece hpiece
    simp [Line.summary?, h piece hpiece]
  simp [Report.textLines, Report.tokenTable, Report.variableTable, Report.gap, h, hvars,
    hsummaries]

/-- The first line that shows an error is a message. -/
theorem head?_errorLines : ((analyze source).errorLines source settings).head? =
    (analyze source).diagnostics.head?.map Diagnostic.message := by
  unfold Report.errorLines
  rw [errors_analyze]
  cases (analyze source).diagnostics <;> cases settings.showSource <;> rfl

end Output

theorem message_ne_title (d : Diagnostic) : d.message ≠ "Symbol Table" := by
  intro h
  have hlist := congrArg (fun text => text.toList.head?) h
  simp [Diagnostic.message] at hlist

/-- A list is known in front of the first place of an element that is not in it. -/
theorem eq_of_append_cons_eq {α : Type} {a : α} {front other behind more : List α}
    (hfront : a ∉ front) (hother : a ∉ other) (h : front ++ a :: behind = other ++ a :: more) :
    front = other := by
  classical
  have hcut : ∀ {list rest : List α}, a ∉ list →
      (list ++ a :: rest).takeWhile (fun b => decide (b ≠ a)) = list := by
    intro list rest hlist
    rw [List.takeWhile_append_of_pos, List.takeWhile_cons_of_neg (by simp), List.append_nil]
    intro b hb
    rw [decide_eq_true_eq]
    rintro rfl
    exact hlist hb
  rw [← hcut hfront, h, hcut hother]

section TokenTable

variable {source other : String} {settings : Settings}

theorem textLines_of_tokens (hshow : settings.showTokens) (h : (analyze source).tokens ≠ []) :
    ∃ more, (analyze source).textLines source settings =
      "Symbol Table" :: Report.tableRow "Line" "Class Part" "Value Part" ::
        ((analyze source).tokens.map Report.tokenRow ++ "" :: more) := by
  obtain ⟨token, rest, htokens⟩ := List.exists_cons_of_ne_nil h
  rw [Report.textLines, if_pos hshow, htokens]
  simp only [Report.tokenTable, List.append_assoc, List.cons_append, List.nil_append]
  exact ⟨_, rfl⟩

/-- The title of the token table stands in front exactly when there are tokens. -/
theorem head?_textLines_iff (hshow : settings.showTokens) :
    ((analyze source).textLines source settings).head? = some "Symbol Table" ↔
      (analyze source).tokens ≠ [] := by
  constructor
  · intro hhead htokens
    rw [textLines_of_no_tokens source settings htokens, head?_errorLines,
      Option.map_eq_some_iff] at hhead
    obtain ⟨d, -, hmessage⟩ := hhead
    exact message_ne_title d hmessage
  · intro htokens
    obtain ⟨more, hlines⟩ := textLines_of_tokens hshow htokens
    rw [hlines]
    rfl

/-- The token table at the front of the output shows all tokens. -/
theorem tokens_eq_of_textLines_eq (hshow : settings.showTokens)
    (h : (analyze source).textLines source settings =
      (analyze other).textLines other settings) :
    (analyze source).tokens = (analyze other).tokens := by
  have hiff : (analyze source).tokens ≠ [] ↔ (analyze other).tokens ≠ [] := by
    rw [← head?_textLines_iff hshow, ← head?_textLines_iff hshow, h]
  by_cases htokens : (analyze source).tokens = []
  · rw [htokens, not_not.mp fun hother => hiff.mpr hother htokens]
  · obtain ⟨more, hlines⟩ := textLines_of_tokens hshow htokens
    obtain ⟨more', hlines'⟩ := textLines_of_tokens hshow (hiff.mp htokens)
    rw [hlines, hlines', List.cons.injEq, List.cons.injEq] at h
    -- No row is empty, so the rows end at the first empty line.
    have hrows : ∀ tokens : List Token, "" ∉ tokens.map Report.tokenRow := by
      intro tokens hmem
      obtain ⟨token, -, hrow⟩ := List.mem_map.mp hmem
      exact Report.tokenRow_ne_empty token hrow
    exact List.map_injective_iff.mpr Report.tokenRow_injective
      (eq_of_append_cons_eq (hrows _) (hrows _) h.2.2)

end TokenTable

/-- **Text output can be read back.** Cut at its line feeds the output gives the two
tables, the summaries and the errors, as far as they are shown, each error on five lines
when source lines are asked for and on one otherwise. With the token table in it, it is
the output for no source with other tokens. -/
theorem text_output_read_back {settings : Settings} (hformat : settings.format = .text)
    (source : String) :
    lines ((analyze source).write source settings).toList =
        ((analyze source).sections source settings).flatten.map String.toList ++ [[]] ∧
      ((analyze source).errorBlocks source settings).length =
        (analyze source).errors.length ∧
      (∀ block ∈ (analyze source).errorBlocks source settings,
        block.length = if settings.showSource then 5 else 1) ∧
      (settings.showTokens → ∀ other,
        (analyze other).write other settings = (analyze source).write source settings →
          (analyze other).tokens = (analyze source).tokens) := by
  refine ⟨lines_write source hformat, ?_, ?_, ?_⟩
  · rw [Report.errorBlocks, errors_analyze]
    split <;> simp
  · intro block hblock
    unfold Report.errorBlocks at hblock
    split at hblock
    · next hsource =>
        obtain ⟨d, hd, rfl⟩ := List.mem_map.mp hblock
        rw [if_pos hsource]
        exact (renderLines_of_mem_diagnostics hd).1
    · next hsource =>
        obtain ⟨message, -, rfl⟩ := List.mem_map.mp hblock
        rw [if_neg hsource]
        rfl
  · intro hshow other hwrite
    have hlines := congrArg (fun output => lines output.toList) hwrite
    simp only [lines_write _ hformat, List.append_cancel_right_eq] at hlines
    have hflat := List.map_injective_iff.mpr (fun _ _ => String.toList_inj.mp) hlines
    rw [← textLines_eq_flatten, ← textLines_eq_flatten] at hflat
    exact tokens_eq_of_textLines_eq hshow hflat

/-- Another source with the same output has the same tokens: the blanks around its
lines and the comment between them are not shown. -/
theorem text_output_read_back_other_blanks :
    (⟨.text, true, false, true⟩ : Settings).format = .text ∧
      (analyze "x \"1\"\n9a").write "x \"1\"\n9a" ⟨.text, true, false, true⟩ =
        unlines ["Symbol Table", "Line   Class Part   Value Part", "1      id1          x",
          "1      string       \"1\"", "", "Line 1 (id1, x) (string, \"1\")", "",
          "Error on Line 2: Invalid syntax or unrecognized token.",
          "  InvalidLexeme (Names cannot start with a digit: `9a`)", "  |", "2 | 9a",
          "  | ^"] ∧
      (analyze "\tx \"1\" // x\r\n 9a\n").write "\tx \"1\" // x\r\n 9a\n"
          ⟨.text, true, false, true⟩ =
        (analyze "x \"1\"\n9a").write "x \"1\"\n9a" ⟨.text, true, false, true⟩ ∧
      (analyze "\tx \"1\" // x\r\n 9a\n").tokens = (analyze "x \"1\"\n9a").tokens := by
  have hreport : analyze "x \"1\"\n9a" =
      { tokens := [⟨1, .name 1, "x"⟩, ⟨1, .string, "\"1\""⟩]
        summaries := ["Line 1 (id1, x) (string, \"1\")"]
        errors := ["Error on Line 2: Invalid syntax or unrecognized token."]
        vars := [⟨"x", 1⟩]
        diagnostics := [⟨"9a", 2, some 0⟩] } := by
    cbv
  have hother : analyze "\tx \"1\" // x\r\n 9a\n" = analyze "x \"1\"\n9a" := by
    rw [hreport]
    cbv
  have hwritten : (analyze "\tx \"1\" // x\r\n 9a\n").write "\tx \"1\" // x\r\n 9a\n"
      ⟨.text, true, false, true⟩ =
        (analyze "x \"1\"\n9a").write "x \"1\"\n9a" ⟨.text, true, false, true⟩ := by
    rw [hother, hreport]
    exact congrArg unlines rfl
  obtain ⟨-, -, -, htokens⟩ := text_output_read_back
    (rfl : (⟨.text, true, false, true⟩ : Settings).format = .text) "x \"1\"\n9a"
  refine ⟨rfl, ?_, hwritten, htokens rfl _ hwritten⟩
  rw [hreport]
  exact congrArg unlines rfl

end FlowLex
