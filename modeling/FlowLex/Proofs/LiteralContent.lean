import FlowLex.Proofs.Caret
import FlowLex.Proofs.FirstRejection
import FlowLex.Proofs.Locality
import Mathlib

/-!
# The content of a literal is opaque

Between the quotes of a string literal another text is put, one without quotes, slashes
and line feeds. Comment markers, names, digits and signs in it mean nothing there: the
line keeps its comment and its other lexemes, those behind the literal some bytes
further on, and all other lines are read as before. The report changes in the spelling
of one token and in the columns of the errors behind it.
-/

namespace FlowLex

open Text

/-! ## Another content in a piece of code -/

theorem stringLiteral_injective : Function.Injective stringLiteral := by
  intro content other h
  rw [stringLiteral, stringLiteral, List.cons_append, List.cons_append, List.cons.injEq,
    List.append_cancel_right_eq] at h
  exact h.2

theorem getLast?_append_stringLiteral (front content : List Char) :
    (front ++ stringLiteral content).getLast? = some '"' := by
  rw [stringLiteral, ← List.append_assoc]
  exact List.getLast?_concat

theorem not_quote_mem_of_isLexeme {content behind : List Char}
    (h : IsLexeme (stringLiteral content) behind) : '"' ∉ content := by
  generalize hvalue : stringLiteral content = value at h
  cases h with
  | word hword _ =>
      rw [← hvalue] at hword
      exact absurd List.mem_cons_self (hword.not_mem isWordChar_quote)
  | literal hcontent =>
      rw [stringLiteral_injective hvalue]
      exact hcontent
  | alone _ _ _ => simp [stringLiteral] at hvalue

/-- A lexeme in front of a literal does not depend on its content. -/
theorem IsLexeme.with_content {value front content behind : List Char}
    (h : IsLexeme value (front ++ stringLiteral content ++ behind)) (other : List Char) :
    IsLexeme value (front ++ stringLiteral other ++ behind) := by
  cases h with
  | word hword hend =>
      refine .word hword ?_
      cases front with
      | nil => exact endsWord_cons.mpr isWordChar_quote
      | cons c front => exact endsWord_cons.mpr (endsWord_cons.mp hend)
  | literal hcontent => exact .literal hcontent
  | alone hblank hword hquote =>
      refine .alone hblank hword fun hc => ?_
      exact absurd (by simp [stringLiteral]) (hquote hc)

/-- Whatever stands in the literal between `front` and `behind`, a scan finds the same
lexemes in front of it, the literal at byte `column`, and then what is behind it. -/
def IsOpaqueBetween (start column : ℕ) (found : List Lexeme) (front behind : List Char) :
    Prop :=
  ∀ content, '"' ∉ content → scanFrom start (front ++ stringLiteral content ++ behind) =
    found ++ ⟨String.ofList (stringLiteral content), column⟩ ::
      scanFrom (column + byteSize (stringLiteral content)) behind

/-- Every literal that a scan finds is opaque. -/
theorem exists_isOpaqueBetween {start column : ℕ} {content text : List Char}
    (h : ⟨String.ofList (stringLiteral content), column⟩ ∈ scanFrom start text) :
    ∃ front behind found, text = front ++ stringLiteral content ++ behind ∧
      column = start + byteSize front ∧ '"' ∉ content ∧
      IsOpaqueBetween start column found front behind := by
  induction text using scan_induction generalizing start with
  | nil => simp at h
  | blank c rest hc ih =>
      rw [scanFrom_blank hc] at h
      obtain ⟨front, behind, found, rfl, hcol, hcontent, hbetween⟩ := ih h
      refine ⟨c :: front, behind, found, rfl, by rw [hcol, byteSize_cons, Nat.add_assoc],
        hcontent, ?_⟩
      intro other hother
      rw [List.cons_append, List.cons_append, scanFrom_blank hc]
      exact hbetween other hother
  | lexeme value rest hlex ih =>
      rw [scanFrom_lexeme hlex, List.mem_cons] at h
      rcases h with h | h
      · obtain ⟨hvalue, rfl⟩ := Lexeme.mk.inj h
        obtain rfl := String.ofList_injective hvalue
        refine ⟨[], rest, [], rfl, rfl, not_quote_mem_of_isLexeme hlex, ?_⟩
        intro other hother
        exact scanFrom_lexeme (.literal hother) column
      · obtain ⟨front, behind, found, rfl, hcol, hcontent, hbetween⟩ := ih h
        refine ⟨value ++ front, behind, ⟨String.ofList value, start⟩ :: found, by simp,
          by rw [hcol, byteSize_append, Nat.add_assoc], hcontent, ?_⟩
        intro other hother
        rw [List.append_assoc value, List.append_assoc value,
          scanFrom_lexeme (hlex.with_content other), hbetween other hother]
        rfl

section OpaquePiece

variable {column number : ℕ} {found : List Lexeme} {front behind content other : List Char}

theorem values_around (h : IsOpaqueBetween 0 column found front behind)
    (hcontent : '"' ∉ content) : values (front ++ stringLiteral content ++ behind) =
      found.map Lexeme.value ++ String.ofList (stringLiteral content) :: values behind := by
  rw [values, h content hcontent, List.map_append, List.map_cons, map_value_scanFrom]

theorem isName_literal (content : List Char) :
    isName (String.ofList (stringLiteral content)) = false := by
  rw [← Bool.not_eq_true, isName, Bool.and_eq_true]
  rintro ⟨hid, -⟩
  apply (isIdentifier_iff.mp hid).1.not_mem isWordChar_quote
  rw [String.toList_ofList]
  exact List.mem_cons_self

theorem filter_isName_around (h : IsOpaqueBetween 0 column found front behind)
    (hcontent : '"' ∉ content) :
    (values (front ++ stringLiteral content ++ behind)).filter isName =
      (found.map Lexeme.value ++ values behind).filter isName := by
  rw [values_around h hcontent, List.filter_append, List.filter_append,
    List.filter_cons_of_neg (by simp [isName_literal])]

/-- The other diagnostic is about the same lexeme. It stands some bytes further on when
the first one is on the line with the given number behind the given column. -/
structure Diagnostic.IsShifted (number column : ℕ) (shift : ℤ) (d other : Diagnostic) :
    Prop where
  lexeme_eq : other.lexeme = d.lexeme
  line_eq : other.line = d.line
  column_eq : ∃ c c' : ℕ, d.column = some c ∧ other.column = some c' ∧
    (c' : ℤ) = if d.line = number ∧ column < c then c + shift else c

theorem isShifted_self {d : Diagnostic} {c : ℕ} {shift : ℤ} (hc : d.column = some c)
    (h : d.line = number → c ≤ column) : d.IsShifted number column shift d := by
  refine ⟨rfl, rfl, c, c, hc, hc, ?_⟩
  rw [if_neg]
  rintro ⟨hline, hlt⟩
  have hle := h hline
  omega

theorem rejection?_moveRight (lexeme : Lexeme) (size : ℕ) :
    (lexeme.moveRight size).rejection? number =
      (lexeme.rejection? number).map fun d =>
        { d with column := d.column.map (· + size) } := by
  cases hacc : isAccepted lexeme.value <;> simp [Lexeme.rejection?, Lexeme.moveRight, hacc]

theorem rejection?_literal (hcontent : '"' ∉ content) :
    Lexeme.rejection? ⟨String.ofList (stringLiteral content), column⟩ number = none :=
  rejection?_eq_none_iff.mpr (isAccepted_literal hcontent)

theorem findSome?_rejection?_moved (size : ℕ) (text : List Char) :
    (scanFrom size text).findSome? (·.rejection? number) =
      ((scanFrom 0 text).findSome? (·.rejection? number)).map fun d =>
        { d with column := d.column.map (· + size) } := by
  rw [← Nat.zero_add size, scanFrom_add, Nat.zero_add, List.findSome?_map, List.map_findSome?]
  congr 1
  funext lexeme
  exact rejection?_moveRight lexeme size

/-- The diagnostic of the first rejected lexeme in a piece of code. -/
def firstRejection? (piece : ℕ × List Char) : Option Diagnostic :=
  (scanFrom 0 piece.2).findSome? (·.rejection? piece.1)

/-- The first rejected lexeme is in front of the literal or behind it. -/
theorem firstRejection?_around (h : IsOpaqueBetween 0 column found front behind)
    (hcontent : '"' ∉ content) :
    firstRejection? (number, front ++ stringLiteral content ++ behind) =
      (found.findSome? (·.rejection? number)).or
        (((scanFrom 0 behind).findSome? (·.rejection? number)).map fun d =>
          { d with column := d.column.map (· + (column + byteSize (stringLiteral content))) }) := by
  rw [firstRejection?, h content hcontent, List.findSome?_append, List.findSome?_cons,
    rejection?_literal hcontent, findSome?_rejection?_moved]

theorem column_lt_of_mem_found (h : IsOpaqueBetween 0 column found front behind) :
    ∀ lexeme ∈ found, lexeme.column < column := by
  intro lexeme hmem
  have hordered := columns_increasing 0 (front ++ stringLiteral [] ++ behind)
  rw [h [] List.not_mem_nil, List.pairwise_append] at hordered
  exact hordered.2.2 lexeme hmem _ List.mem_cons_self

theorem byteSize_stringLiteral (content : List Char) :
    byteSize (stringLiteral content) = byteSize content + 2 := by
  simp [stringLiteral]
  have : '"'.utf8Size = 1 := by decide
  omega

/-- Both pieces of code have a rejected lexeme or none has, and the first one is the
same. -/
theorem firstRejection_shifted (h : IsOpaqueBetween 0 column found front behind)
    (hcontent : '"' ∉ content) (hother : '"' ∉ other) :
    Option.Rel (Diagnostic.IsShifted number column (byteSize other - byteSize content))
      (firstRejection? (number, front ++ stringLiteral content ++ behind))
      (firstRejection? (number, front ++ stringLiteral other ++ behind)) := by
  rw [firstRejection?_around h hcontent, firstRejection?_around h hother]
  cases hfront : found.findSome? (·.rejection? number) with
  | some d =>
      obtain ⟨lexeme, hmem, hrej⟩ := List.exists_of_findSome?_eq_some hfront
      obtain ⟨-, rfl⟩ := rejection?_eq_some_iff.mp hrej
      exact .some (isShifted_self rfl fun _ => (column_lt_of_mem_found h lexeme hmem).le)
  | none =>
      cases hbehind : (scanFrom 0 behind).findSome? (·.rejection? number) with
      | none => exact .none
      | some d =>
          obtain ⟨lexeme, -, hrej⟩ := List.exists_of_findSome?_eq_some hbehind
          obtain ⟨-, rfl⟩ := rejection?_eq_some_iff.mp hrej
          refine .some ⟨rfl, rfl, lexeme.column + (column + byteSize (stringLiteral content)),
            lexeme.column + (column + byteSize (stringLiteral other)), rfl, rfl, ?_⟩
          rw [byteSize_stringLiteral, byteSize_stringLiteral, if_pos ⟨rfl, by omega⟩]
          push_cast
          ring

end OpaquePiece

/-! ## Another content in a line -/

section OneLine

variable {lead front content other behind tail : List Char}

/-- A marker that starts with a slash comes about neither in the literal nor at its
quotes. -/
theorem not_marker_infix_with_content {b : Char} (hb : b ≠ '"') (hother : '/' ∉ other)
    (h : ¬ ['/', b] <:+: front ++ stringLiteral content ++ tail) :
    ¬ ['/', b] <:+: front ++ stringLiteral other ++ tail := by
  rw [pair_infix_append, pair_infix_append, not_or, not_or, not_or, not_or] at h
  obtain ⟨⟨hfront, -, -⟩, htail, -⟩ := h
  rw [pair_infix_append, pair_infix_append]
  rintro ((hinf | hinf | ⟨-, hhead⟩) | hinf | ⟨hlast, -⟩)
  · exact hfront hinf
  · have hmem : '/' ∈ stringLiteral other := hinf.subset List.mem_cons_self
    simp [stringLiteral, hother] at hmem
  · exact hb (by simpa [stringLiteral] using hhead.symm)
  · exact htail hinf
  · rw [getLast?_append_stringLiteral] at hlast
    simp at hlast

/-- A line comment behind the literal is where it was. -/
theorem before_lineComment_literal (hlead : IsGap lead)
    (h : ¬ lineComment <:+: front ++ stringLiteral content) (tail : List Char) :
    before lineComment (lead ++ (front ++ stringLiteral content ++ tail)) =
      lead ++ (front ++ stringLiteral content ++ before lineComment tail) := by
  have hnone : ¬ lineComment <:+: lead ++ (front ++ stringLiteral content) := by
    rwa [lineComment, pair_infix_gap_append (by decide) hlead]
  have hlast : (lead ++ (front ++ stringLiteral content)).getLast? ≠ some '/' := by
    rw [← List.append_assoc, getLast?_append_stringLiteral]
    decide
  rw [← List.append_assoc lead, lineComment, before_append_of_apart hnone hlast,
    List.append_assoc lead]

/-- The blanks around a text with a literal are cut off behind the literal. -/
theorem trim_literal (hlead : IsGap lead) (hhead : ∀ c ∈ front.head?, isBlank c = false)
    (back : List Char) : trim (lead ++ (front ++ stringLiteral content ++ back)) =
      front ++ stringLiteral content ++ trimRight back := by
  have hleft : trimLeft (front ++ stringLiteral content ++ back) =
      front ++ stringLiteral content ++ back := by
    cases front with
    | nil => exact List.dropWhile_cons_of_neg (by decide)
    | cons c front => exact List.dropWhile_cons_of_neg (by simp [hhead c rfl])
  rw [trim_gap_append hlead, trim, hleft,
    trimRight_append_of_getLast? (getLast?_append_stringLiteral front content) isBlank_quote]

/-- A line with another content in a literal of its code has the same code but for this
content. -/
theorem codeOf?_with_content (hlead : IsGap lead) (hother : '/' ∉ other)
    (hcode : Mode.code.codeOf? (lead ++ (front ++ stringLiteral content ++ tail)) =
      some (front ++ stringLiteral content ++ behind)) :
    Mode.code.codeOf? (lead ++ (front ++ stringLiteral other ++ tail)) =
      some (front ++ stringLiteral other ++ behind) := by
  obtain ⟨-, hopen, htrim, -⟩ := codeOf?_eq_some_iff.mp hcode
  have hcomment : ¬ lineComment <:+: front ++ stringLiteral content := fun hinf =>
    not_lineComment_infix_code hcode (hinf.trans (List.prefix_append _ _).isInfix)
  have hcomment' : ¬ lineComment <:+: front ++ stringLiteral other := by
    rw [← List.append_nil (front ++ stringLiteral content)] at hcomment
    rw [← List.append_nil (front ++ stringLiteral other)]
    exact not_marker_infix_with_content (by decide) hother hcomment
  have hopen' : ¬ blockOpen <:+: lead ++ (front ++ stringLiteral other ++ tail) := by
    rw [blockOpen, pair_infix_gap_append (by decide) hlead] at hopen ⊢
    exact not_marker_infix_with_content (by decide) hother hopen
  have hhead : ∀ c ∈ front.head?, isBlank c = false := by
    intro c hc
    apply isBlank_head?_trim (before lineComment (lead ++ (front ++ stringLiteral content ++ tail)))
    rw [← htrim]
    obtain ⟨rest, rfl⟩ := List.head?_eq_some_iff.mp hc
    rfl
  -- Behind the literal the same is left in both lines.
  rw [before_lineComment_literal hlead hcomment, trim_literal hlead hhead,
    List.append_cancel_left_eq] at htrim
  refine codeOf?_eq_some_iff.mpr ⟨rfl, hopen', ?_, ?_⟩
  · rw [before_lineComment_literal hlead hcomment', trim_literal hlead hhead, htrim]
  · simp [stringLiteral]

end OneLine

/-- The code of a source around a line with code. -/
theorem codeLines_of_codeOf? {source : String} {index : ℕ} {line code : List Char}
    (hline : (lines source.toList)[index]? = some line)
    (hmode : (sessionAt source index).mode = .code)
    (hcode : Mode.code.codeOf? line = some code) :
    codeLines source =
      Mode.code.codeLines 1 ((lines source.toList).take index) ++ (index + 1, code) ::
        Mode.code.codeLines (index + 2) ((lines source.toList).drop (index + 1)) := by
  have hnext : (sessionAt source (index + 1)).mode = .code := by
    obtain ⟨-, hopen, -, -⟩ := codeOf?_eq_some_iff.mp hcode
    rw [mode_sessionAt_succ hline, hmode, next_of_no_marker hopen]
  rw [codeLines_eq_around hline, codeAt?_succ hline, hmode, hcode, hnext]
  rfl

theorem codeLines_replaceLine {source text : String} {index : ℕ} {code : List Char}
    (hindex : index < (lines source.toList).length) (htext : '\n' ∉ text.toList)
    (hmode : (sessionAt source index).mode = .code)
    (hcode : Mode.code.codeOf? text.toList = some code) :
    codeLines (replaceLine source index text) =
      Mode.code.codeLines 1 ((lines source.toList).take index) ++ (index + 1, code) ::
        Mode.code.codeLines (index + 2) ((lines source.toList).drop (index + 1)) := by
  have hmode' := mode_sessionAt_replaceLine htext source index
  rw [hmode] at hmode'
  rw [codeLines_of_codeOf? (getElem?_replaceLine hindex htext) hmode' hcode,
    lines_replaceLine htext, List.take_set_of_le (Nat.le_refl index),
    List.drop_set_of_lt (Nat.lt_succ_self index)]

/-- With another content in a literal of one of its lines a source has the same code but
for this content. -/
theorem codeLines_with_content {source : String} {index : ℕ}
    {line front content other behind tail : List Char}
    (hline : (lines source.toList)[index]? = some line)
    (hmode : (sessionAt source index).mode = .code)
    (hcode : Mode.code.codeOf? line = some (front ++ stringLiteral content ++ behind))
    (htext : trimLeft line = front ++ stringLiteral content ++ tail)
    (hslash : '/' ∉ other) (hnewline : '\n' ∉ other) :
    codeLines (replaceLine source index
        (String.ofList (line.takeWhile isBlank ++ (front ++ stringLiteral other ++ tail)))) =
      Mode.code.codeLines 1 ((lines source.toList).take index) ++
        (index + 1, front ++ stringLiteral other ++ behind) ::
          Mode.code.codeLines (index + 2) ((lines source.toList).drop (index + 1)) := by
  obtain ⟨hindex, -⟩ := List.getElem?_eq_some_iff.mp hline
  have hlead : IsGap (line.takeWhile isBlank) := fun _ hc => List.mem_takeWhile_imp hc
  have hsplit : line = line.takeWhile isBlank ++ (front ++ stringLiteral content ++ tail) := by
    rw [← htext]
    exact List.takeWhile_append_dropWhile.symm
  apply codeLines_replaceLine hindex _ hmode
  · rw [String.toList_ofList]
    rw [hsplit] at hcode
    exact codeOf?_with_content hlead hslash hcode
  · have hfeed := not_newline_mem_of_mem_lines (List.mem_of_getElem? hline)
    rw [hsplit] at hfeed
    rw [String.toList_ofList]
    simp only [stringLiteral, List.mem_append, List.mem_cons, not_or] at hfeed ⊢
    tauto

/-! ## Another content in a source -/

/-- The lines with code, each with its number and whether it is invalid. -/
def verdicts (source : String) : List (ℕ × Bool) :=
  (Session.start.readSource source).1.map fun line => (line.number, line.isInvalid)

/-- The number of tokens in front of a place. -/
def tokensBefore (source : String) (place : ℕ ×ₗ ℕ) : ℕ :=
  (placedLexemes source).countP fun placed =>
    isAccepted placed.2.value && decide (placeOf placed < place)

/-- The reports on the two sources tell the contents `u` and `t` of the literal with
a given number of its line and a given column apart in one token only. Errors behind the
literal are as much further on as `t` has more bytes. -/
structure OpaqueAt (source other : String) (number column : ℕ) (u t : List Char) : Prop where
  tokens_eq : ∃ before behind : List Token,
    (analyze source).tokens =
      before ++ ⟨number, .string, String.ofList (stringLiteral u)⟩ :: behind ∧
    (analyze other).tokens =
      before ++ ⟨number, .string, String.ofList (stringLiteral t)⟩ :: behind ∧
    before.length = tokensBefore source (toLex (number, column))
  vars_eq : (analyze other).vars = (analyze source).vars
  verdicts_eq : verdicts other = verdicts source
  diagnostics_shifted : List.Forall₂
    (Diagnostic.IsShifted number column (byteSize t - byteSize u))
    (analyze source).diagnostics (analyze other).diagnostics

section OneSource

variable {source : String} {number column : ℕ} {found : List Lexeme}
  {front behind content : List Char} {above below : List (ℕ × List Char)}

theorem namesIn_around (h : IsOpaqueBetween 0 column found front behind)
    (hcontent : '"' ∉ content) :
    namesIn (above ++ (number, front ++ stringLiteral content ++ behind) :: below) =
      namesIn above ++
        ((found.map Lexeme.value ++ values behind).filter isName ++ namesIn below) := by
  rw [namesIn_append, namesIn, namesIn, List.flatMap_cons, filter_isName_around h hcontent]
  rfl

theorem placedLexemes_around (h : IsOpaqueBetween 0 column found front behind)
    (hcontent : '"' ∉ content)
    (hsource : codeLines source =
      above ++ (number, front ++ stringLiteral content ++ behind) :: below) :
    placedLexemes source =
      ((above.flatMap fun piece => (scanFrom 0 piece.2).map (piece.1, ·)) ++
          found.map (number, ·)) ++
        (number, ⟨String.ofList (stringLiteral content), column⟩) ::
          ((scanFrom (column + byteSize (stringLiteral content)) behind).map (number, ·) ++
            below.flatMap fun piece => (scanFrom 0 piece.2).map (piece.1, ·)) := by
  rw [placedLexemes, hsource, List.flatMap_append, List.flatMap_cons, h content hcontent]
  simp

/-- What is classified in front of a lexeme is what stands in front of its place. -/
theorem tokensBefore_eq_length (table : Variables) {first rest : List (ℕ × Lexeme)}
    {placed : ℕ × Lexeme} (hsplit : placedLexemes source = first ++ placed :: rest) :
    tokensBefore source (placeOf placed) = ((first.map fun placed =>
      (placed.1, placed.2.value)).filterMap (tokenIn? table)).length := by
  have hordered := places_increasing source
  rw [hsplit, List.pairwise_append, List.pairwise_cons] at hordered
  obtain ⟨-, ⟨hrest, -⟩, hfirst⟩ := hordered
  have hbehind : (placed :: rest).countP (fun other =>
      isAccepted other.2.value && decide (placeOf other < placeOf placed)) = 0 := by
    rw [List.countP_eq_zero]
    intro other hother
    rcases List.mem_cons.mp hother with rfl | hother
    · simp
    · simp [(hrest other hother).not_gt]
  rw [tokensBefore, hsplit, List.countP_append, hbehind, Nat.add_zero,
    ← List.length_map Token.placed, placed_filterMap_tokenIn?, ← List.countP_eq_length_filter,
    List.countP_map]
  apply List.countP_congr
  intro other hother
  simp [hfirst other hother placed List.mem_cons_self]

theorem tokens_around (h : IsOpaqueBetween 0 column found front behind)
    (hcontent : '"' ∉ content)
    (hsource : codeLines source =
      above ++ (number, front ++ stringLiteral content ++ behind) :: below) :
    (analyze source).tokens =
      (((above.flatMap fun piece => (values piece.2).map (piece.1, ·)) ++
          found.map (number, ·.value)).filterMap (tokenIn? (variablesOf source))) ++
        ⟨number, .string, String.ofList (stringLiteral content)⟩ ::
          (((values behind).map (number, ·) ++
            below.flatMap fun piece => (values piece.2).map (piece.1, ·)).filterMap
              (tokenIn? (variablesOf source))) := by
  have hliteral : tokenIn? (variablesOf source)
      (number, String.ofList (stringLiteral content)) =
        some ⟨number, .string, String.ofList (stringLiteral content)⟩ := by
    rw [tokenIn?, classify_literal hcontent]
    rfl
  rw [tokens_analyze, placedValues, hsource, List.flatMap_append, List.flatMap_cons,
    values_around h hcontent, List.map_append, List.map_cons, List.map_map]
  simp [List.filterMap_append, hliteral]

end OneSource

theorem verdicts_eq_map (source : String) :
    verdicts source = (codeLines source).map fun piece =>
      (piece.1, (firstRejection? piece).isSome) := by
  rw [verdicts, readSource_lines, List.map_map]
  apply List.map_congr_left
  intro piece _
  rw [Function.comp_apply, Line.isInvalid, error?_ofCode]
  rfl

section TwoSources

variable {source other : String} {number column : ℕ} {found : List Lexeme}
  {front behind u t : List Char} {above below : List (ℕ × List Char)}

/-- No error on other lines moves. -/
theorem isShifted_elsewhere {pieces : List (ℕ × List Char)} {shift : ℤ}
    (hpieces : ∀ piece ∈ pieces, piece.1 ≠ number) :
    List.Forall₂ (Diagnostic.IsShifted number column shift)
      (pieces.filterMap firstRejection?) (pieces.filterMap firstRejection?) := by
  rw [List.forall₂_same]
  intro d hd
  obtain ⟨piece, hpiece, hfirst⟩ := List.mem_filterMap.mp hd
  obtain ⟨lexeme, -, hrej⟩ := List.exists_of_findSome?_eq_some hfirst
  obtain ⟨-, rfl⟩ := rejection?_eq_some_iff.mp hrej
  exact isShifted_self rfl fun hline => absurd hline (hpieces piece hpiece)

/-- Sources whose code is the same but for the content of a literal. -/
theorem opaqueAt_of_codeLines (h : IsOpaqueBetween 0 column found front behind)
    (hu : '"' ∉ u) (ht : '"' ∉ t)
    (hsource : codeLines source =
      above ++ (number, front ++ stringLiteral u ++ behind) :: below)
    (hother : codeLines other =
      above ++ (number, front ++ stringLiteral t ++ behind) :: below) :
    OpaqueAt source other number column u t := by
  obtain ⟨first, hfirst⟩ : ∃ first,
      firstRejection? (number, front ++ stringLiteral u ++ behind) = first := ⟨_, rfl⟩
  obtain ⟨second, hsecond⟩ : ∃ second,
      firstRejection? (number, front ++ stringLiteral t ++ behind) = second := ⟨_, rfl⟩
  have hnames : variablesOf other = variablesOf source := by
    rw [variablesOf, variablesOf, hsource, hother, namesIn_around h ht,
      namesIn_around h hu]
  have hrel : Option.Rel (Diagnostic.IsShifted number column (byteSize t - byteSize u))
      first second := by
    rw [← hfirst, ← hsecond]
    exact firstRejection_shifted h hu ht
  refine ⟨⟨_, _, tokens_around h hu hsource, ?_, ?_⟩, ?_, ?_, ?_⟩
  · rw [← hnames]
    exact tokens_around h ht hother
  · have hbefore := tokensBefore_eq_length (variablesOf source)
      (placedLexemes_around h hu hsource)
    rw [placeOf] at hbefore
    rw [hbefore]
    simp [List.map_flatMap, values, Function.comp_def]
  · rw [vars_analyze, vars_analyze, hnames]
  · have hsame : second.isSome = first.isSome := by
      cases hrel <;> rfl
    rw [verdicts_eq_map, verdicts_eq_map, hsource, hother, List.map_append, List.map_append,
      List.map_cons, List.map_cons, hfirst, hsecond, hsame]
  · -- Numbers increase, so the line with the literal is the only one with its number.
    have hordered := codeLines_increasing source
    rw [hsource, List.pairwise_append, List.pairwise_cons] at hordered
    obtain ⟨-, ⟨hbelow, -⟩, habove⟩ := hordered
    have hdiagnostics : ∀ text, (analyze text).diagnostics =
        (codeLines text).filterMap firstRejection? := diagnostics_analyze
    rw [hdiagnostics, hdiagnostics, hsource, hother, List.filterMap_append,
      List.filterMap_append, List.filterMap_cons, List.filterMap_cons, hfirst, hsecond]
    apply List.rel_append
    · exact isShifted_elsewhere fun piece hpiece =>
        (habove piece hpiece _ List.mem_cons_self).ne
    · have htail : List.Forall₂
          (Diagnostic.IsShifted number column (byteSize t - byteSize u))
          (below.filterMap firstRejection?) (below.filterMap firstRejection?) :=
        isShifted_elsewhere fun piece hpiece => (hbelow piece hpiece).ne'
      cases hrel with
      | none => exact htail
      | some hd => exact .cons hd htail

end TwoSources

/-- **The content of a literal is opaque.** Another text without quotes, slashes and line
feeds is put between the quotes of a literal in the code of a line. The report on the
source then has the same tokens but for the spelling of this one, the same variables, the
same valid and invalid lines and the same diagnostics, those behind the literal moved by
the bytes that the line has got or lost. -/
theorem opaqueAt_with_content {source : String} {index column : ℕ}
    {line code u t : List Char} (hline : (lines source.toList)[index]? = some line)
    (hcode : codeAt? source (index + 1) = some code)
    (hliteral : ⟨String.ofList (stringLiteral u), column⟩ ∈ scanFrom 0 code)
    (hquote : '"' ∉ t) (hslash : '/' ∉ t) (hnewline : '\n' ∉ t) :
    ∃ front tail, trimLeft line = front ++ stringLiteral u ++ tail ∧
      byteSize front = column ∧
      OpaqueAt source
        (replaceLine source index
          (String.ofList (line.takeWhile isBlank ++ (front ++ stringLiteral t ++ tail))))
        (index + 1) column u t := by
  rw [codeAt?_succ hline] at hcode
  obtain ⟨hmode, -, htrim, -⟩ := codeOf?_eq_some_iff.mp hcode
  rw [hmode] at hcode
  obtain ⟨front, behind, found, rfl, hcol, hu, hbetween⟩ := exists_isOpaqueBetween hliteral
  obtain ⟨more, hmore⟩ := (code_prefix_trim hcode).trans (trimRight_prefix_self (trimLeft line))
  have htext : trimLeft line = front ++ stringLiteral u ++ (behind ++ more) := by
    rw [← hmore, List.append_assoc _ behind]
  refine ⟨front, behind ++ more, htext, by omega, ?_⟩
  exact opaqueAt_of_codeLines hbetween hu hquote (codeLines_of_codeOf? hline hmode hcode)
    (codeLines_with_content hline hmode hcode htext hslash hnewline)

/-- `@` moves by seven bytes when `a` gives way to `é $x 1+`. The name and the signs in
the literal stay unseen, and so do the quotes in the comment. -/
theorem opaqueAt_with_content_first_literal :
    OpaqueAt "  x \"a\" @ \"b\" // \"c\"\ny #" "  x \"é $x 1+\" @ \"b\" // \"c\"\ny #" 1 2
        ['a'] "é $x 1+".toList ∧
      (analyze "  x \"a\" @ \"b\" // \"c\"\ny #").diagnostics =
        [⟨"@", 1, some 6⟩, ⟨"#", 2, some 2⟩] ∧
      (analyze "  x \"é $x 1+\" @ \"b\" // \"c\"\ny #").diagnostics =
        [⟨"@", 1, some 13⟩, ⟨"#", 2, some 2⟩] := by
  have hline : (lines "  x \"a\" @ \"b\" // \"c\"\ny #".toList)[0]? =
      some "  x \"a\" @ \"b\" // \"c\"".toList := by decide
  have hcode : codeAt? "  x \"a\" @ \"b\" // \"c\"\ny #" (0 + 1) =
      some "x \"a\" @ \"b\"".toList := by cbv
  have hliteral : ⟨String.ofList (stringLiteral ['a']), 2⟩ ∈
      scanFrom 0 "x \"a\" @ \"b\"".toList := by
    have hscan : scanFrom 0 "x \"a\" @ \"b\"".toList =
        [⟨"x", 0⟩, ⟨"\"a\"", 2⟩, ⟨"@", 6⟩, ⟨"\"b\"", 8⟩] := by cbv
    rw [hscan]
    decide
  obtain ⟨front, tail, htext, hsize, hbetween⟩ :=
    opaqueAt_with_content (t := "é $x 1+".toList) hline hcode hliteral
      (by decide) (by decide) (by decide)
  -- The bytes in front of the literal tell where the line is cut.
  have hfront : takeBytes? 2 (trimLeft "  x \"a\" @ \"b\" // \"c\"".toList) = some front := by
    rw [htext, ← hsize, List.append_assoc, takeBytes?_byteSize]
  obtain rfl : ['x', ' '] = front := Option.some.inj hfront
  have hcut : trimLeft "  x \"a\" @ \"b\" // \"c\"".toList =
      ['x', ' '] ++ stringLiteral ['a'] ++ " @ \"b\" // \"c\"".toList := by decide
  rw [hcut, List.append_cancel_left_eq] at htext
  subst htext
  refine ⟨hbetween, ?_, ?_⟩
  · cbv
  · cbv

end FlowLex
