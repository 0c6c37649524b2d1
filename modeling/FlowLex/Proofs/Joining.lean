import FlowLex.Proofs.FirstOccurrence
import FlowLex.Proofs.Relocation
import Mathlib

/-!
# Sources put together

A source can be cut at any line feed. What is known about the part above stands
at the front of what is known about the whole, whatever the part below holds.
When no block comment is open at the cut, the rest is what is known about the
part below by itself, further down and with the variable numbers of the whole.
-/

namespace FlowLex

open Text

/-- Every list of a report stands at the front of the same list of a later one. -/
structure Report.Extends (later report : Report) : Prop where
  tokens : report.tokens <+: later.tokens
  summaries : report.summaries <+: later.summaries
  errors : report.errors <+: later.errors
  vars : report.vars <+: later.vars
  diagnostics : report.diagnostics <+: later.diagnostics

theorem ofLines_append_extends {table later : Variables} (hext : later.Extends table)
    (front back : List Line) :
    (Report.ofLines (front ++ back) later).Extends (Report.ofLines front table) := by
  refine ⟨?_, ?_, ?_, hext, ?_⟩
  · simp only [Report.ofLines, List.flatMap_append]
    exact List.prefix_append _ _
  · simp only [Report.ofLines, List.filterMap_append]
    exact List.prefix_append _ _
  · simp only [Report.ofLines, List.filterMap_append, List.map_append]
    exact List.prefix_append _ _
  · simp only [Report.ofLines, List.filterMap_append]
    exact List.prefix_append _ _

/-! ## The two parts -/

section Parts

variable (above below : String)

/-- The lines of the part below and the session after them, read behind the part
above. -/
def readBelow : List Line × Session :=
  (Session.start.readSource above).2.readLines (1 + (lines above.toList).length)
    (lines below.toList)

theorem readSource_joined :
    Session.start.readSource (above ++ "\n" ++ below) =
      ((Session.start.readSource above).1 ++ (readBelow above below).1,
        (readBelow above below).2) := by
  have hlines : lines (above ++ "\n" ++ below).toList =
      lines above.toList ++ lines below.toList := by
    rw [String.toList_append, String.toList_append, List.append_assoc]
    exact lines_append_newline _ _
  rw [Session.readSource, hlines]
  exact readLines_append _ _ _ _

theorem analyze_joined :
    analyze (above ++ "\n" ++ below) =
      .ofLines ((Session.start.readSource above).1 ++ (readBelow above below).1)
        (readBelow above below).2.table := by
  simp only [analyze, readSource_joined]

theorem readBelow_table :
    (readBelow above below).2.table =
      (variablesOf above).learn (namesIn
        ((Session.start.readSource above).2.mode.codeLines 1 (lines below.toList))) := by
  rw [readBelow, readLines_table, namesIn_codeLines_run_add, readSource_table]

theorem analyze_joined_extends :
    (analyze (above ++ "\n" ++ below)).Extends (analyze above) := by
  rw [analyze_joined]
  apply ofLines_append_extends
  show (readBelow above below).2.table.Extends (Session.start.readSource above).2.table
  rw [readBelow_table, readSource_table]
  exact Variables.learn_extends _ _

end Parts

section Code

variable {above : String} (hmode : (Session.start.readSource above).2.mode = .code)
  (below : String)

include hmode

theorem readBelow_lines :
    (readBelow above below).1 = (Session.start.readSource below).1.map fun line =>
      (line.moveDown (lines above.toList).length).renumber (readBelow above below).2.table :=
  readLines_moveDown hmode 1 _ _

/-- The names of the whole: those above, then those below that are not among
them. -/
theorem names_readBelow :
    (readBelow above below).2.table.names =
      (variablesOf above).names ++
        (variablesOf below).names.removeAll (variablesOf above).names := by
  rw [readBelow_table, hmode]
  exact Variables.names_learn_beside_empty _ _

theorem tokens_joined :
    (analyze (above ++ "\n" ++ below)).tokens =
      (analyze above).tokens ++ (analyze below).tokens.map fun token =>
        (token.moveDown (lines above.toList).length).renumber
          ⟨(analyze (above ++ "\n" ++ below)).vars⟩ := by
  rw [analyze_joined, readBelow_lines hmode below]
  show ((Session.start.readSource above).1 ++ _).flatMap Line.tokens =
    (Session.start.readSource above).1.flatMap Line.tokens ++
      ((Session.start.readSource below).1.flatMap Line.tokens).map _
  rw [List.flatMap_append, List.flatMap_map, List.map_flatMap]
  congr 2
  funext line
  exact List.map_map

theorem diagnostics_joined :
    (analyze (above ++ "\n" ++ below)).diagnostics =
      (analyze above).diagnostics ++
        (analyze below).diagnostics.map (Diagnostic.moveDown (lines above.toList).length) := by
  rw [analyze_joined, readBelow_lines hmode below]
  show ((Session.start.readSource above).1 ++ _).filterMap Line.error? =
    (Session.start.readSource above).1.filterMap Line.error? ++
      ((Session.start.readSource below).1.filterMap Line.error?).map _
  rw [List.filterMap_append, List.filterMap_map, List.map_filterMap]
  rfl

theorem vars_joined :
    (analyze (above ++ "\n" ++ below)).vars.map Variable.name =
      (analyze above).vars.map Variable.name ++
        ((analyze below).vars.map Variable.name).removeAll
          ((analyze above).vars.map Variable.name) := by
  rw [analyze_joined, vars_analyze, vars_analyze]
  exact names_readBelow hmode below

/-- Every variable of the part below is a variable of the whole. -/
theorem mem_vars_joined {token : Token} (hmem : token ∈ (analyze below).tokens)
    (hvar : token.isVariable) :
    token.value ∈ (analyze (above ++ "\n" ++ below)).vars.map Variable.name := by
  obtain ⟨id, hid⟩ := Token.isVariable_iff.mp hvar
  have hbelow : token.value ∈ (analyze below).vars.map Variable.name :=
    List.mem_map_of_mem (mem_vars_of_variableToken hmem hid)
  rw [vars_joined hmode]
  exact Variables.mem_append_removeAll hbelow

end Code

/-- **A source is read as its parts are.** At any line feed, the report on the
part above stands at the front of the report on the whole. When no block comment
is open there, the rest is what the report on the part below has: diagnostics and
tokens as many lines further down as there are above, each variable with the
number that its spelling has in the whole, where the names of the part above are
followed by those of the part below that are new. -/
theorem analyze_append (above below : String) :
    (analyze (above ++ "\n" ++ below)).Extends (analyze above) ∧
      ((Session.start.readSource above).2.mode = .code →
        (analyze (above ++ "\n" ++ below)).diagnostics =
            (analyze above).diagnostics ++
              (analyze below).diagnostics.map
                (Diagnostic.moveDown (lines above.toList).length) ∧
          (analyze (above ++ "\n" ++ below)).tokens =
            (analyze above).tokens ++ (analyze below).tokens.map (fun token =>
              (token.moveDown (lines above.toList).length).renumber
                ⟨(analyze (above ++ "\n" ++ below)).vars⟩) ∧
          (∀ token ∈ (analyze below).tokens, token.isVariable →
            token.value ∈ (analyze (above ++ "\n" ++ below)).vars.map Variable.name) ∧
          (analyze (above ++ "\n" ++ below)).vars.map Variable.name =
            (analyze above).vars.map Variable.name ++
              ((analyze below).vars.map Variable.name).removeAll
                ((analyze above).vars.map Variable.name)) := by
  refine ⟨analyze_joined_extends above below, fun hmode => ?_⟩
  exact ⟨diagnostics_joined hmode below, tokens_joined hmode below,
    fun _ hmem hvar => mem_vars_joined hmode below hmem hvar, vars_joined hmode below⟩

/-- The diagnostic of a line put below an invalid one moves to the third line, and
the name that both parts have is listed once. -/
theorem analyze_append_below_invalid_line :
    (Session.start.readSource "a = 1\n@ b").2.mode = .code ∧
      (analyze ("a = 1\n@ b" ++ "\n" ++ "b # c")).diagnostics =
        [⟨"@", 2, some 0⟩, ⟨"#", 3, some 2⟩] ∧
      (analyze ("a = 1\n@ b" ++ "\n" ++ "b # c")).vars.map Variable.name = ["a", "b", "c"] := by
  have hmode : (Session.start.readSource "a = 1\n@ b").2.mode = .code := by cbv
  have habove : (analyze "a = 1\n@ b").diagnostics = [⟨"@", 2, some 0⟩] := by cbv
  have hfront : (analyze "a = 1\n@ b").vars = [⟨"a", 1⟩, ⟨"b", 2⟩] := by cbv
  have hbelow : (analyze "b # c").diagnostics = [⟨"#", 1, some 2⟩] := by cbv
  have hback : (analyze "b # c").vars = [⟨"b", 1⟩, ⟨"c", 2⟩] := by cbv
  obtain ⟨hdiagnostics, -, -, hnames⟩ := (analyze_append "a = 1\n@ b" "b # c").2 hmode
  refine ⟨hmode, ?_, ?_⟩
  · rw [hdiagnostics, habove, hbelow]
    rfl
  · rw [hnames, hfront, hback]
    rfl

end FlowLex
