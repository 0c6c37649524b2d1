import FlowLex.Proofs.Classification
import FlowLex.Proofs.Code
import FlowLex.Report

/-!
# Reading a source in two goes

A source is read line by line with a table of variables that grows on the way.
The result is the same when the code of all lines is taken first, the names in
it are numbered, and each line is then looked at under the finished table. All
fields of a report are told by the code of the source and that one table.
-/

namespace FlowLex

open Text

/-- The names in pieces of code, in order and with repetitions. -/
def namesIn (pieces : List (ℕ × List Char)) : List String :=
  pieces.flatMap fun piece => (values piece.2).filter isName

theorem namesIn_append (front back : List (ℕ × List Char)) :
    namesIn (front ++ back) = namesIn front ++ namesIn back := by
  simp [namesIn]

/-- The line that a piece of code makes when `table` numbers the names. -/
def Line.ofCode (table : Variables) (piece : ℕ × List Char) : Line :=
  .ofOutcomes piece.1 ((scanFrom 0 piece.2).map (·.outcome piece.1 table))

/-! ## One line -/

theorem readLine_of_none {session : Session} {text : List Char}
    (h : session.mode.codeOf? text = none) (number : ℕ) :
    session.readLine number text =
      (none, { session with mode := session.mode.next text }) := by
  simp [Session.readLine, h]

theorem readLine_of_some {session : Session} {text code : List Char}
    (h : session.mode.codeOf? text = some code) (number : ℕ) :
    session.readLine number text =
      (some (.ofOutcomes number
          (classifyAll number session.table (scanFrom 0 code)).1),
        { mode := session.mode.next text
          table := (classifyAll number session.table (scanFrom 0 code)).2
          scanner := (session.scanner.scanLine code).2 }) := by
  simp [Session.readLine, h, Scanner.lexemes_scanLine]

theorem readLine_mode (session : Session) (number : ℕ) (text : List Char) :
    (session.readLine number text).2.mode = session.mode.next text := by
  cases h : session.mode.codeOf? text with
  | none => rw [readLine_of_none h]
  | some code => rw [readLine_of_some h]

/-- A line adds the names in its code to the table. -/
theorem readLine_table (session : Session) (number : ℕ) (text : List Char) :
    (session.readLine number text).2.table = session.table.learn
      (namesIn ((session.mode.codeOf? text).map (number, ·)).toList) := by
  cases h : session.mode.codeOf? text with
  | none =>
      rw [readLine_of_none h]
      rfl
  | some code =>
      rw [readLine_of_some h, classifyAll_table]
      simp [namesIn, values]

theorem readLine_line {session : Session} {number : ℕ} {text : List Char}
    {later : Variables} (hext : later.Extends (session.readLine number text).2.table) :
    (session.readLine number text).1 =
      ((session.mode.codeOf? text).map (number, ·)).map (Line.ofCode later) := by
  cases h : session.mode.codeOf? text with
  | none => simp [readLine_of_none h]
  | some code =>
      rw [readLine_of_some h] at hext
      rw [readLine_of_some h, classifyAll_outcomes hext]
      rfl

/-! ## All lines -/

theorem readLines_cons (session : Session) (number : ℕ) (text : List Char)
    (rest : List (List Char)) :
    session.readLines number (text :: rest) =
      ((session.readLine number text).1.toList ++
          ((session.readLine number text).2.readLines (number + 1) rest).1,
        ((session.readLine number text).2.readLines (number + 1) rest).2) := rfl

theorem readLines_table (session : Session) (number : ℕ) (texts : List (List Char)) :
    (session.readLines number texts).2.table =
      session.table.learn (namesIn (session.mode.codeLines number texts)) := by
  induction texts generalizing session number with
  | nil => rfl
  | cons text rest ih =>
      rw [readLines_cons, ih, readLine_table, readLine_mode, Mode.codeLines,
        namesIn_append, Variables.learn_append]

/-- The lines that are read are those of the code under any table that goes on
from the one that is left behind. -/
theorem readLines_lines {session : Session} {number : ℕ} {texts : List (List Char)}
    {later : Variables}
    (hext : later.Extends (session.readLines number texts).2.table) :
    (session.readLines number texts).1 =
      (session.mode.codeLines number texts).map (Line.ofCode later) := by
  induction texts generalizing session number with
  | nil => rfl
  | cons text rest ih =>
      rw [readLines_cons] at hext ⊢
      -- The lines behind only add to the table that the first one leaves.
      have hfirst : later.Extends (session.readLine number text).2.table := by
        refine hext.trans ?_
        rw [readLines_table]
        exact Variables.learn_extends _ _
      rw [ih hext, readLine_line hfirst, readLine_mode, Mode.codeLines, List.map_append,
        Option.toList_map]

/-! ## Reports -/

/-- The variables of a whole source. -/
def variablesOf (source : String) : Variables :=
  Variables.empty.learn (namesIn (codeLines source))

theorem readSource_table (source : String) :
    (Session.start.readSource source).2.table = variablesOf source :=
  readLines_table _ _ _

theorem readSource_lines (source : String) :
    (Session.start.readSource source).1 =
      (codeLines source).map (Line.ofCode (variablesOf source)) := by
  apply readLines_lines
  rw [← readSource_table]
  exact Variables.Extends.refl _

/-- **Reading in two goes.** The report on a source is made of the lines of its
code, each under the finished table of variables. -/
theorem analyze_eq (source : String) :
    analyze source =
      .ofLines ((codeLines source).map (Line.ofCode (variablesOf source)))
        (variablesOf source) := by
  show Report.ofLines (Session.start.readSource source).1
    (Session.start.readSource source).2.table = _
  rw [readSource_lines, readSource_table]

/-- A report depends on the code of the source alone. -/
theorem analyze_congr {source other : String} (h : codeLines source = codeLines other) :
    analyze source = analyze other := by
  rw [analyze_eq, analyze_eq, variablesOf, variablesOf, h]

theorem vars_analyze (source : String) :
    (analyze source).vars = (variablesOf source).entries := by
  rw [analyze_eq]
  rfl

/-! ## The lists of a report, piece by piece -/

section Lists

variable (source : String)

theorem tokens_eq_flatMap : (analyze source).tokens =
    (codeLines source).flatMap fun piece =>
      (Line.ofCode (variablesOf source) piece).tokens := by
  rw [analyze_eq, ← List.flatMap_map]
  rfl

theorem summaries_eq_filterMap : (analyze source).summaries =
    (codeLines source).filterMap fun piece =>
      (Line.ofCode (variablesOf source) piece).summary? := by
  rw [analyze_eq]
  exact List.filterMap_map

theorem diagnostics_eq_filterMap : (analyze source).diagnostics =
    (codeLines source).filterMap fun piece =>
      (Line.ofCode (variablesOf source) piece).error? := by
  rw [analyze_eq]
  exact List.filterMap_map

end Lists

/-! ## Tokens -/

/-- The lexemes of a source, each with the number of its line. -/
def placedValues (source : String) : List (ℕ × String) :=
  (codeLines source).flatMap fun piece => (values piece.2).map (piece.1, ·)

theorem mem_placedValues {source : String} {placed : ℕ × String} :
    placed ∈ placedValues source ↔
      ∃ piece ∈ codeLines source, piece.1 = placed.1 ∧ placed.2 ∈ values piece.2 := by
  rw [placedValues, List.mem_flatMap]
  constructor
  · rintro ⟨piece, hpiece, hmem⟩
    obtain ⟨value, hvalue, rfl⟩ := List.mem_map.mp hmem
    exact ⟨piece, hpiece, rfl, hvalue⟩
  · rintro ⟨piece, hpiece, hline, hvalue⟩
    refine ⟨piece, hpiece, List.mem_map.mpr ⟨placed.2, hvalue, ?_⟩⟩
    rw [hline]

/-- The names of a source are those among its lexemes. -/
theorem namesIn_codeLines (source : String) :
    namesIn (codeLines source) =
      ((placedValues source).filter (isName ·.2)).map Prod.snd := by
  unfold namesIn placedValues
  induction codeLines source with
  | nil => rfl
  | cons piece rest ih =>
      rw [List.flatMap_cons, List.flatMap_cons, List.filter_append, List.map_append, ih,
        List.filter_map, List.map_map]
      congr 1
      exact (List.map_id' _).symm

/-- Lexemes come in the order of their lines. -/
theorem placedValues_ordered (source : String) :
    (placedValues source).Pairwise fun a b => a.1 ≤ b.1 := by
  rw [placedValues, List.pairwise_flatMap]
  refine ⟨?_, ?_⟩
  · intro piece _
    rw [List.pairwise_map]
    exact List.pairwise_of_forall fun _ _ => le_refl _
  · apply (codeLines_increasing source).imp
    intro a b hlt x hx y hy
    obtain ⟨-, -, rfl⟩ := List.mem_map.mp hx
    obtain ⟨-, -, rfl⟩ := List.mem_map.mp hy
    exact Nat.le_of_lt hlt

/-- The token that the lexeme of a line becomes when `table` numbers the names. -/
def tokenIn? (table : Variables) (placed : ℕ × String) : Option Token :=
  (classify placed.2 placed.1 table).1.toOption

theorem toOption_outcome (lexeme : Lexeme) (line : ℕ) (table : Variables) :
    (lexeme.outcome line table).toOption = tokenIn? table (line, lexeme.value) := by
  unfold Lexeme.outcome tokenIn?
  cases (classify lexeme.value line table).1 <;> rfl

theorem tokens_ofCode (table : Variables) (piece : ℕ × List Char) :
    (Line.ofCode table piece).tokens =
      ((values piece.2).map (piece.1, ·)).filterMap (tokenIn? table) := by
  simp only [Line.ofCode, Line.ofOutcomes, values, List.filterMap_map]
  apply List.filterMap_congr
  intro lexeme _
  exact toOption_outcome lexeme piece.1 table

/-- The tokens of a source are what its lexemes become, from the first line to
the last and from left to right. -/
theorem tokens_analyze (source : String) :
    (analyze source).tokens = (placedValues source).filterMap (tokenIn? (variablesOf source)) := by
  rw [tokens_eq_flatMap, placedValues, List.filterMap_flatMap]
  apply List.flatMap_congr
  intro piece _
  exact tokens_ofCode (variablesOf source) piece

theorem tokenIn?_of_not_accepted {placed : ℕ × String} (h : isAccepted placed.2 = false)
    (table : Variables) : tokenIn? table placed = none := by
  rw [tokenIn?, classify_of_not_accepted h]
  rfl

/-- An accepted lexeme becomes a token that shows its line and its spelling, and
a variable token exactly when it is a name. -/
theorem tokenIn?_of_accepted {placed : ℕ × String} (h : isAccepted placed.2)
    (table : Variables) :
    ∃ token, tokenIn? table placed = some token ∧ token.line = placed.1 ∧
      token.value = placed.2 ∧ token.isVariable = isName placed.2 ∧
      ∀ id, token.kind = .name id → id = (table.resolve placed.2).1 := by
  obtain ⟨kind, hok, hkind⟩ := classify_of_accepted h placed.1 table
  refine ⟨⟨placed.1, kind, placed.2⟩, by rw [tokenIn?, hok]; rfl, rfl, rfl,
    isVariable_of_classify hok, ?_⟩
  intro id hid
  exact ((hkind id).mp hid).2

theorem tokenIn?_eq_some {table : Variables} {placed : ℕ × String} {token : Token}
    (h : tokenIn? table placed = some token) :
    token.line = placed.1 ∧ token.value = placed.2 ∧ isAccepted placed.2 ∧
      token.isVariable = isName placed.2 ∧
      ∀ id, token.kind = .name id → id = (table.resolve placed.2).1 := by
  cases hacc : isAccepted placed.2 with
  | false =>
      rw [tokenIn?_of_not_accepted hacc] at h
      simp at h
  | true =>
      obtain ⟨t, ht, hline, hvalue, hvar, hid⟩ := tokenIn?_of_accepted hacc table
      rw [h] at ht
      obtain rfl := Option.some.inj ht
      exact ⟨hline, hvalue, rfl, hvar, hid⟩

/-- A token of some code has the number of the code and is spelled by an accepted
lexeme in it. -/
theorem of_mem_tokens_ofCode {table : Variables} {piece : ℕ × List Char} {token : Token}
    (h : token ∈ (Line.ofCode table piece).tokens) :
    token.line = piece.1 ∧ token.value ∈ values piece.2 ∧ isAccepted token.value := by
  rw [tokens_ofCode, List.mem_filterMap] at h
  obtain ⟨placed, hplaced, htoken⟩ := h
  obtain ⟨value, hmem, rfl⟩ := List.mem_map.mp hplaced
  obtain ⟨hline, hvalue, hacc, -, -⟩ := tokenIn?_eq_some htoken
  rw [hvalue]
  exact ⟨hline, hmem, hacc⟩

/-- The line and the spelling of a token. -/
def Token.placed (token : Token) : ℕ × String := (token.line, token.value)

theorem placed_filterMap_tokenIn? (table : Variables) (lexemes : List (ℕ × String)) :
    (lexemes.filterMap (tokenIn? table)).map Token.placed =
      lexemes.filter (isAccepted ·.2) := by
  induction lexemes with
  | nil => rfl
  | cons placed rest ih =>
      cases hacc : isAccepted placed.2 with
      | false =>
          rw [List.filterMap_cons_none (tokenIn?_of_not_accepted hacc table), ih,
            List.filter_cons_of_neg (by simp [hacc])]
      | true =>
          obtain ⟨token, htoken, hline, hvalue, -, -⟩ := tokenIn?_of_accepted hacc table
          have hplaced : token.placed = placed := by
            rw [Token.placed, hline, hvalue]
          rw [List.filterMap_cons_some htoken, List.map_cons, ih, hplaced,
            List.filter_cons_of_pos (by simpa using hacc)]

/-- **Tokens are the accepted lexemes**, each with its line and its spelling. -/
theorem placed_tokens (source : String) :
    (analyze source).tokens.map Token.placed =
      (placedValues source).filter (isAccepted ·.2) := by
  rw [tokens_analyze, placed_filterMap_tokenIn?]

theorem isVariable_of_mem_tokens {source : String} {token : Token}
    (h : token ∈ (analyze source).tokens) : token.isVariable = isName token.value := by
  rw [tokens_analyze, List.mem_filterMap] at h
  obtain ⟨placed, -, htoken⟩ := h
  obtain ⟨-, hvalue, -, hvar, -⟩ := tokenIn?_eq_some htoken
  rw [hvar, hvalue]

/-- A variable token of some code is spelled by a name in it and has the number of
that name. -/
theorem of_mem_tokens_of_name {table : Variables} {pieces : List (ℕ × List Char)}
    {token : Token} {id : ℕ}
    (hmem : token ∈ (pieces.map (Line.ofCode table)).flatMap Line.tokens)
    (hid : token.kind = .name id) :
    token.value ∈ namesIn pieces ∧ id = (table.resolve token.value).1 := by
  rw [List.flatMap_map, List.mem_flatMap] at hmem
  obtain ⟨piece, hpiece, htoken⟩ := hmem
  rw [tokens_ofCode, List.mem_filterMap] at htoken
  obtain ⟨placed, hplaced, htoken⟩ := htoken
  obtain ⟨value, hvalue, rfl⟩ := List.mem_map.mp hplaced
  obtain ⟨-, hsame, -, hvar, hnumber⟩ := tokenIn?_eq_some htoken
  rw [Token.isVariable_iff.mpr ⟨id, hid⟩] at hvar
  rw [hsame]
  exact ⟨List.mem_flatMap.mpr ⟨piece, hpiece, List.mem_filter.mpr ⟨hvalue, hvar.symm⟩⟩,
    hnumber id hid⟩

/-! ## Diagnostics -/

/-- The diagnostic for a lexeme of a line that no rule accepts. -/
def Lexeme.rejection? (lexeme : Lexeme) (line : ℕ) : Option Diagnostic :=
  if isAccepted lexeme.value then none
  else some { lexeme := lexeme.value, line, column := some lexeme.column }

/-- No table has a say in which lexemes are rejected. -/
theorem error?_outcome (lexeme : Lexeme) (line : ℕ) (table : Variables) :
    (lexeme.outcome line table).error? = lexeme.rejection? line := by
  unfold Lexeme.rejection?
  cases h : isAccepted lexeme.value with
  | true =>
      obtain ⟨token, hok⟩ := outcome_of_accepted h line table
      rw [hok, if_pos rfl]
      rfl
  | false =>
      rw [outcome_of_not_accepted h, if_neg (by simp)]
      rfl

theorem error?_ofCode (table : Variables) (piece : ℕ × List Char) :
    (Line.ofCode table piece).error? =
      (scanFrom 0 piece.2).findSome? (·.rejection? piece.1) := by
  simp only [Line.ofCode, Line.ofOutcomes, List.findSome?_map]
  congr 1
  funext lexeme
  exact error?_outcome lexeme piece.1 table

theorem rejection?_eq_none_iff {lexeme : Lexeme} {line : ℕ} :
    lexeme.rejection? line = none ↔ isAccepted lexeme.value := by
  simp [Lexeme.rejection?]

theorem rejection?_eq_some_iff {lexeme : Lexeme} {line : ℕ} {d : Diagnostic} :
    lexeme.rejection? line = some d ↔ isAccepted lexeme.value = false ∧
      d = { lexeme := lexeme.value, line, column := some lexeme.column } := by
  rw [Lexeme.rejection?, Option.ite_none_left_eq_some, Bool.not_eq_true, Option.some.injEq,
    @eq_comm _ d]

theorem outcome_of_rejection? {lexeme : Lexeme} {line : ℕ} {d : Diagnostic}
    (h : lexeme.rejection? line = some d) (table : Variables) :
    lexeme.outcome line table = .error d := by
  obtain ⟨hrej, rfl⟩ := rejection?_eq_some_iff.mp h
  exact outcome_of_not_accepted hrej line table

/-- A line has no error when every lexeme in its code is accepted. -/
theorem error?_ofCode_eq_none_iff {table : Variables} {piece : ℕ × List Char} :
    (Line.ofCode table piece).error? = none ↔ ∀ value ∈ values piece.2, isAccepted value := by
  rw [error?_ofCode, List.findSome?_eq_none_iff, values, List.forall_mem_map]
  simp only [rejection?_eq_none_iff]

/-- The error of a line is about a rejected lexeme in its code. -/
theorem exists_of_error?_ofCode {table : Variables} {piece : ℕ × List Char} {d : Diagnostic}
    (h : (Line.ofCode table piece).error? = some d) :
    ∃ lexeme ∈ scanFrom 0 piece.2, isAccepted lexeme.value = false ∧
      d = { lexeme := lexeme.value, line := piece.1, column := some lexeme.column } := by
  rw [error?_ofCode] at h
  obtain ⟨lexeme, hlex, hrej⟩ := List.exists_of_findSome?_eq_some h
  exact ⟨lexeme, hlex, rejection?_eq_some_iff.mp hrej⟩

/-- Each piece of code gives the diagnostic of its first rejected lexeme. -/
theorem diagnostics_analyze (source : String) :
    (analyze source).diagnostics = (codeLines source).filterMap fun piece =>
      (scanFrom 0 piece.2).findSome? (·.rejection? piece.1) := by
  rw [diagnostics_eq_filterMap]
  apply List.filterMap_congr
  intro piece _
  exact error?_ofCode (variablesOf source) piece

theorem errors_analyze (source : String) :
    (analyze source).errors = (analyze source).diagnostics.map Diagnostic.message := by
  rw [analyze_eq]
  rfl

/-- A diagnostic is about a rejected lexeme in the code of its line. -/
theorem exists_of_mem_diagnostics {source : String} {d : Diagnostic}
    (h : d ∈ (analyze source).diagnostics) :
    ∃ piece ∈ codeLines source, ∃ lexeme ∈ scanFrom 0 piece.2,
      isAccepted lexeme.value = false ∧
        d = { lexeme := lexeme.value, line := piece.1, column := some lexeme.column } := by
  rw [diagnostics_eq_filterMap, List.mem_filterMap] at h
  obtain ⟨piece, hpiece, herror⟩ := h
  exact ⟨piece, hpiece, exists_of_error?_ofCode herror⟩

/-- A source is in order when every lexeme in its code is accepted. -/
theorem isOk_analyze_iff {source : String} :
    (analyze source).isOk ↔
      ∀ piece ∈ codeLines source, ∀ value ∈ values piece.2, isAccepted value := by
  rw [Report.isOk, errors_analyze, diagnostics_eq_filterMap, List.isEmpty_iff,
    List.map_eq_nil_iff, List.filterMap_eq_nil_iff]
  simp only [error?_ofCode_eq_none_iff]

end FlowLex
