import FlowLex.Proofs.Progress

/-!
# The same lines in another place

Lines can be read further down in a source and by a session that knows more
names. What they become differs in the line numbers, which move by the same
count everywhere, and in the numbers of variables, which are those that the
other session gives to the same spellings.
-/

namespace FlowLex

open Text

/-! ## Other line numbers -/

/-- The token with another line number. -/
def Token.mapLine (f : ℕ → ℕ) (token : Token) : Token :=
  { token with line := f token.line }

/-- The diagnostic with another line number. -/
def Diagnostic.mapLine (f : ℕ → ℕ) (d : Diagnostic) : Diagnostic :=
  { d with line := f d.line }

/-- The line with another number, which its tokens and its error take over. -/
def Line.mapNumber (f : ℕ → ℕ) (line : Line) : Line where
  number := f line.number
  tokens := line.tokens.map (Token.mapLine f)
  error? := line.error?.map (Diagnostic.mapLine f)

theorem tokenIn?_mapLine (table : Variables) (f : ℕ → ℕ) (number : ℕ) (value : String) :
    tokenIn? table (f number, value) =
      (tokenIn? table (number, value)).map (Token.mapLine f) := by
  unfold tokenIn? classify classifyBy
  cases Rule.all.find? (·.accepts value) <;> rfl

theorem rejection?_mapLine (lexeme : Lexeme) (f : ℕ → ℕ) (number : ℕ) :
    lexeme.rejection? (f number) = (lexeme.rejection? number).map (Diagnostic.mapLine f) := by
  unfold Lexeme.rejection?
  cases isAccepted lexeme.value <;> rfl

/-- The number of a line has no part in what its code becomes. -/
theorem ofCode_mapNumber (table : Variables) (f : ℕ → ℕ) (number : ℕ) (code : List Char) :
    Line.ofCode table (f number, code) = (Line.ofCode table (number, code)).mapNumber f := by
  have htokens : (Line.ofCode table (f number, code)).tokens =
      (Line.ofCode table (number, code)).tokens.map (Token.mapLine f) := by
    rw [tokens_ofCode, tokens_ofCode, List.filterMap_map, List.filterMap_map,
      List.map_filterMap]
    congr 1
    funext value
    exact tokenIn?_mapLine table f number value
  have herror : (Line.ofCode table (f number, code)).error? =
      (Line.ofCode table (number, code)).error?.map (Diagnostic.mapLine f) := by
    rw [error?_ofCode, error?_ofCode, List.map_findSome?]
    congr 1
    funext lexeme
    exact rejection?_mapLine lexeme f number
  rw [Line.mapNumber, ← htokens, ← herror]
  rfl

/-! ## Further down -/

/-- The token with its line further down. -/
def Token.moveDown (count : ℕ) (token : Token) : Token :=
  { token with line := token.line + count }

/-- The diagnostic with its line further down. -/
def Diagnostic.moveDown (count : ℕ) (d : Diagnostic) : Diagnostic :=
  { d with line := d.line + count }

/-- The line with its number further down. -/
def Line.moveDown (count : ℕ) (line : Line) : Line where
  number := line.number + count
  tokens := line.tokens.map (Token.moveDown count)
  error? := line.error?.map (Diagnostic.moveDown count)

theorem ofCode_moveDown (table : Variables) (number count : ℕ) (code : List Char) :
    Line.ofCode table (number + count, code) =
      (Line.ofCode table (number, code)).moveDown count :=
  ofCode_mapNumber table (· + count) number code

theorem codeLines_run_add (mode : Mode) (number count : ℕ) (texts : List (List Char)) :
    mode.codeLines (number + count) texts =
      (mode.codeLines number texts).map fun piece => (piece.1 + count, piece.2) := by
  induction texts generalizing mode number with
  | nil => rfl
  | cons text rest ih =>
      rw [Mode.codeLines, Mode.codeLines, List.map_append, Nat.add_right_comm, ih]
      cases mode.codeOf? text <;> rfl

/-! ## Another table -/

/-- The token with the number that the table gives its spelling, if it is a
variable that the table knows. -/
def Token.renumber (table : Variables) (token : Token) : Token :=
  match token.kind, table.get? token.value with
  | .name _, some id => { token with kind := .name id }
  | _, _ => token

/-- The line with its variables numbered by the table. -/
def Line.renumber (table : Variables) (line : Line) : Line :=
  { line with tokens := line.tokens.map (Token.renumber table) }

theorem Token.renumber_of_not_variable {token : Token} (h : token.isVariable = false)
    (table : Variables) : token.renumber table = token := by
  unfold Token.isVariable at h
  unfold Token.renumber
  cases hkind : token.kind <;> simp_all

theorem Token.renumber_of_get? {token : Token} {number id : ℕ}
    (hkind : token.kind = .name number) {table : Variables}
    (h : table.get? token.value = some id) :
    token.renumber table = { token with kind := .name id } := by
  simp [Token.renumber, hkind, h]

/-- A lexeme becomes the same token under every table that knows it, up to the
number of a name. -/
theorem tokenIn?_renumber {later : Variables} {placed : ℕ × String}
    (hknown : isName placed.2 → placed.2 ∈ later.names) (table : Variables) :
    tokenIn? later placed = (tokenIn? table placed).map (Token.renumber later) := by
  cases hname : isName placed.2 with
  | false =>
      have hsame : tokenIn? later placed = tokenIn? table placed := by
        rw [tokenIn?, tokenIn?, classify_of_not_name hname placed.1 later table]
      rw [hsame]
      cases htoken : tokenIn? table placed with
      | none => rfl
      | some token =>
          obtain ⟨-, -, -, hvar, -⟩ := tokenIn?_eq_some htoken
          rw [Option.map_some, Token.renumber_of_not_variable (hvar.trans hname)]
  | true =>
      obtain ⟨id, hid⟩ := Variables.exists_get?_of_mem (hknown hname)
      rw [tokenIn?, tokenIn?, classify_name hname, classify_name hname,
        Variables.resolve_of_get? hid]
      show some _ = some (Token.renumber later _)
      rw [Token.renumber_of_get? rfl hid]

theorem ofCode_renumber {later : Variables} {piece : ℕ × List Char}
    (hknown : ∀ name ∈ values piece.2, isName name → name ∈ later.names)
    (table : Variables) :
    Line.ofCode later piece = (Line.ofCode table piece).renumber later := by
  have htokens : (Line.ofCode later piece).tokens =
      (Line.ofCode table piece).tokens.map (Token.renumber later) := by
    rw [tokens_ofCode, tokens_ofCode, List.map_filterMap]
    apply List.filterMap_congr
    intro placed hplaced
    obtain ⟨value, hvalue, rfl⟩ := List.mem_map.mp hplaced
    exact tokenIn?_renumber (hknown value hvalue) table
  have herror : (Line.ofCode later piece).error? = (Line.ofCode table piece).error? := by
    rw [error?_ofCode, error?_ofCode]
  rw [Line.renumber, ← htokens, ← herror]
  rfl

/-! ## Another place and another table -/

theorem namesIn_codeLines_run_add (mode : Mode) (number count : ℕ)
    (texts : List (List Char)) :
    namesIn (mode.codeLines (number + count) texts) =
      namesIn (mode.codeLines number texts) := by
  rw [codeLines_run_add, namesIn, List.flatMap_map]
  rfl

/-- The same lines further down. -/
theorem readLines_add (session : Session) (number count : ℕ) (texts : List (List Char)) :
    (session.readLines (number + count) texts).1 =
      (session.readLines number texts).1.map (Line.moveDown count) := by
  have htable : (session.readLines (number + count) texts).2.table =
      (session.readLines number texts).2.table := by
    rw [readLines_table, readLines_table, namesIn_codeLines_run_add]
  rw [readLines_lines (Variables.Extends.refl (session.readLines _ texts).2.table), htable,
    readLines_lines (Variables.Extends.refl (session.readLines number texts).2.table),
    codeLines_run_add, List.map_map, List.map_map]
  apply List.map_congr_left
  intro piece _
  exact ofCode_moveDown _ piece.1 count piece.2

/-- The same lines in another session, which knows other names and has another
scanner. -/
theorem readLines_renumber {session other : Session} (hmode : other.mode = session.mode)
    (number : ℕ) (texts : List (List Char)) :
    (other.readLines number texts).1 =
      (session.readLines number texts).1.map
        (Line.renumber (other.readLines number texts).2.table) := by
  rw [readLines_lines (Variables.Extends.refl (other.readLines _ texts).2.table),
    readLines_lines (Variables.Extends.refl (session.readLines number texts).2.table),
    hmode, List.map_map]
  apply List.map_congr_left
  intro piece hpiece
  -- The other session has learned every name that it has read.
  apply ofCode_renumber
  intro name hvalue hname
  rw [readLines_table, hmode]
  apply Variables.mem_names_learn
  exact List.mem_flatMap.mpr ⟨piece, hpiece, List.mem_filter.mpr ⟨hvalue, hname⟩⟩

/-- **The same lines in another place.** Two sessions in the same mode make the
same lines out of the same texts, but for where the lines stand and for the
numbers of the variables. -/
theorem readLines_moveDown {session other : Session} (hmode : other.mode = session.mode)
    (number count : ℕ) (texts : List (List Char)) :
    (other.readLines (number + count) texts).1 =
      (session.readLines number texts).1.map fun line =>
        (line.moveDown count).renumber (other.readLines (number + count) texts).2.table := by
  rw [readLines_renumber hmode, readLines_add, List.map_map]
  rfl

end FlowLex
