import FlowLex.Proofs.FirstOccurrence
import FlowLex.Proofs.Progress
import Mathlib

/-!
# What stands on a line stays on it

The text of one line is replaced by another that leaves the same mode behind. The
results of all other lines are the same then but for the numbers of variables:
no line becomes valid or invalid, no error moves, no token comes or goes. The
table of variables can give other numbers, but it tells the names on the other
lines apart as before.
-/

namespace FlowLex

open Text

/-! ## Results up to numbers of variables -/

def TokenClass.withoutId : TokenClass → TokenClass
  | .name _ => .name 0
  | kind => kind

def Token.withoutId (token : Token) : Token :=
  { token with kind := token.kind.withoutId }

/-- The line with all its variables numbered 0. -/
def Line.withoutIds (line : Line) : Line :=
  { line with tokens := line.tokens.map Token.withoutId }

/-- The class of the token at a place among the tokens of some lines. -/
def kindAt (results : List Line) (place : ℕ) : Option TokenClass :=
  ((results.flatMap Line.tokens)[place]?).map Token.kind

/-- The spelling of the token at a place among the tokens of some lines. -/
def valueAt (results : List Line) (place : ℕ) : Option String :=
  ((results.flatMap Line.tokens)[place]?).map Token.value

/-- The lines are the same but for the numbers of variables, and two variable
tokens have the same number on the ones when they have it on the others. -/
structure AlikeUpToIds (results others : List Line) : Prop where
  sameShape : results.map Line.withoutIds = others.map Line.withoutIds
  sameId_iff : ∀ (i j a b a' b' : ℕ),
    kindAt results i = some (.name a) → kindAt results j = some (.name b) →
    kindAt others i = some (.name a') → kindAt others j = some (.name b') →
      (a = b ↔ a' = b')

theorem withoutId_tokenIn? (table other : Variables) (placed : ℕ × String) :
    (tokenIn? table placed).map Token.withoutId =
      (tokenIn? other placed).map Token.withoutId := by
  cases hname : isName placed.2 with
  | false => rw [tokenIn?, tokenIn?, classify_of_not_name hname placed.1 table other]
  | true =>
      rw [tokenIn?, tokenIn?, classify_name hname, classify_name hname]
      rfl

/-- The table has a part in the numbers of variables only. -/
theorem withoutIds_ofCode (table other : Variables) (piece : ℕ × List Char) :
    (Line.ofCode table piece).withoutIds = (Line.ofCode other piece).withoutIds := by
  have htokens : (Line.ofCode table piece).tokens.map Token.withoutId =
      (Line.ofCode other piece).tokens.map Token.withoutId := by
    rw [tokens_ofCode, tokens_ofCode, List.map_filterMap, List.map_filterMap]
    apply List.filterMap_congr
    intro placed _
    exact withoutId_tokenIn? table other placed
  have herror : (Line.ofCode table piece).error? = (Line.ofCode other piece).error? := by
    rw [error?_ofCode, error?_ofCode]
  rw [Line.withoutIds, Line.withoutIds, htokens, herror]
  rfl

theorem map_withoutId_tokens (results : List Line) :
    (results.flatMap Line.tokens).map Token.withoutId =
      (results.map Line.withoutIds).flatMap Line.tokens := by
  rw [List.map_flatMap, List.flatMap_map]
  rfl

theorem valueAt_eq_of_sameShape {results others : List Line}
    (h : results.map Line.withoutIds = others.map Line.withoutIds) (place : ℕ) :
    valueAt results place = valueAt others place := by
  have hvalue : ∀ lines : List Line, valueAt lines place =
      ((((lines.map Line.withoutIds).flatMap Line.tokens)[place]?).map Token.value) := by
    intro lines
    rw [← map_withoutId_tokens, List.getElem?_map, Option.map_map]
    rfl
  rw [hvalue, hvalue, h]

/-- A variable token of some code has the number of its spelling. -/
theorem exists_value_of_kindAt {table : Variables} {pieces : List (ℕ × List Char)}
    {place id : ℕ} (h : kindAt (pieces.map (Line.ofCode table)) place = some (.name id)) :
    ∃ value, valueAt (pieces.map (Line.ofCode table)) place = some value ∧
      value ∈ namesIn pieces ∧ id = (table.resolve value).1 := by
  obtain ⟨token, htoken, hkind⟩ := Option.map_eq_some_iff.mp h
  obtain ⟨hname, hid⟩ := of_mem_tokens_of_name (List.mem_of_getElem? htoken) hkind
  refine ⟨token.value, ?_, hname, hid⟩
  rw [valueAt, htoken]
  rfl

/-- Tables that number the names of some code without repetition make lines of it
that are alike. -/
theorem alikeUpToIds_ofCode {table other : Variables} (htable : table.WellNumbered)
    (hother : other.WellNumbered) {pieces : List (ℕ × List Char)}
    (hknown : ∀ name ∈ namesIn pieces, name ∈ table.names ∧ name ∈ other.names) :
    AlikeUpToIds (pieces.map (Line.ofCode table)) (pieces.map (Line.ofCode other)) := by
  have hshape : (pieces.map (Line.ofCode table)).map Line.withoutIds =
      (pieces.map (Line.ofCode other)).map Line.withoutIds := by
    rw [List.map_map, List.map_map]
    apply List.map_congr_left
    intro piece _
    exact withoutIds_ofCode table other piece
  refine ⟨hshape, ?_⟩
  intro i j a b a' b' hi hj hi' hj'
  obtain ⟨fst, hfst, hfstname, rfl⟩ := exists_value_of_kindAt hi
  obtain ⟨snd, hsnd, hsndname, rfl⟩ := exists_value_of_kindAt hj
  obtain ⟨fst', hfst', -, rfl⟩ := exists_value_of_kindAt hi'
  obtain ⟨snd', hsnd', -, rfl⟩ := exists_value_of_kindAt hj'
  -- The spellings are the same, and both tables tell them apart.
  rw [valueAt_eq_of_sameShape hshape, hfst', Option.some.injEq] at hfst
  rw [valueAt_eq_of_sameShape hshape, hsnd', Option.some.injEq] at hsnd
  subst hfst hsnd
  obtain ⟨hfst₁, hfst₂⟩ := hknown _ hfstname
  obtain ⟨hsnd₁, hsnd₂⟩ := hknown _ hsndname
  rw [htable.resolve_eq_iff hfst₁ hsnd₁, hother.resolve_eq_iff hfst₂ hsnd₂]

/-! ## Another text on one line -/

/-- The source with another text on the line at a place, the lines counted from 0. -/
def replaceLine (source : String) (index : ℕ) (text : String) : String :=
  ofLines ((lines source.toList).set index text.toList)

/-- The results of all lines but the one with a given number. -/
def resultsElsewhere (source : String) (number : ℕ) : List Line :=
  (Session.start.readSource source).1.filter (·.number != number)

/-- The code of all lines but the one with a given number. -/
def codeElsewhere (source : String) (number : ℕ) : List (ℕ × List Char) :=
  (codeLines source).filter (·.1 != number)

theorem resultsElsewhere_eq (source : String) (number : ℕ) :
    resultsElsewhere source number =
      (codeElsewhere source number).map (Line.ofCode (variablesOf source)) := by
  rw [resultsElsewhere, readSource_lines, List.filter_map]
  rfl

theorem mem_names_of_mem_codeElsewhere {source name : String} {number : ℕ}
    (h : name ∈ namesIn (codeElsewhere source number)) : name ∈ (variablesOf source).names := by
  obtain ⟨piece, hpiece, hname⟩ := List.mem_flatMap.mp h
  apply Variables.mem_names_learn
  exact List.mem_flatMap.mpr ⟨piece, List.mem_of_mem_filter hpiece, hname⟩

theorem lines_replaceLine {text : String} (htext : '\n' ∉ text.toList) (source : String)
    (index : ℕ) :
    lines (replaceLine source index text).toList =
      (lines source.toList).set index text.toList := by
  apply lines_ofLines
  · simpa using lines_ne_nil source.toList
  · intro line hline
    rcases List.mem_or_eq_of_mem_set hline with hline | rfl
    · exact not_newline_mem_of_mem_lines hline
    · exact htext

theorem getElem?_replaceLine {source text : String} {index : ℕ}
    (hindex : index < (lines source.toList).length) (htext : '\n' ∉ text.toList) :
    (lines (replaceLine source index text).toList)[index]? = some text.toList := by
  rw [lines_replaceLine htext, List.getElem?_set_self hindex]

/-- The lines in front of the replaced one are the same, so it is read in the same
mode. -/
theorem mode_sessionAt_replaceLine {text : String} (htext : '\n' ∉ text.toList)
    (source : String) (index : ℕ) :
    (sessionAt (replaceLine source index text) index).mode =
      (sessionAt source index).mode := by
  rw [mode_sessionAt, mode_sessionAt, lines_replaceLine htext,
    List.take_set_of_le (Nat.le_refl index)]

/-- The code on the other lines is told by these lines and the mode behind the one
left out. -/
theorem codeElsewhere_eq {source : String} {index : ℕ} {line : List Char}
    (hline : (lines source.toList)[index]? = some line) :
    codeElsewhere source (index + 1) =
      (Mode.code.codeLines 1 ((lines source.toList).take index)).filter (·.1 != index + 1) ++
        ((sessionAt source (index + 1)).mode.codeLines (index + 2)
          ((lines source.toList).drop (index + 1))).filter (·.1 != index + 1) := by
  have hleftOut : ((codeAt? source (index + 1)).map (index + 1, ·)).toList.filter
      (·.1 != index + 1) = [] := by
    cases codeAt? source (index + 1) <;> simp
  rw [codeElsewhere, codeLines_eq_around hline, List.filter_append, List.filter_append,
    hleftOut, List.nil_append]

theorem codeElsewhere_replaceLine {source text : String} {index : ℕ}
    (hindex : index < (lines source.toList).length) (htext : '\n' ∉ text.toList)
    (hmode : (sessionAt (replaceLine source index text) (index + 1)).mode =
      (sessionAt source (index + 1)).mode) :
    codeElsewhere (replaceLine source index text) (index + 1) =
      codeElsewhere source (index + 1) := by
  have hlines := lines_replaceLine htext source index
  have hline : (lines source.toList)[index]? = some ((lines source.toList)[index]) :=
    List.getElem?_eq_getElem hindex
  rw [codeElsewhere_eq hline, codeElsewhere_eq (getElem?_replaceLine hindex htext), hmode,
    hlines, List.take_set_of_le (Nat.le_refl index),
    List.drop_set_of_lt (Nat.lt_succ_self index)]

/-- **What stands on a line stays on it.** When the text of a line is replaced by one
that leaves the same mode behind, the results of all other lines stay what they
were, errors and tokens included, but for the numbers of variables. These agree and
differ between the tokens on other lines as they did. -/
theorem alikeUpToIds_replaceLine {source text : String} {index : ℕ}
    (hindex : index < (lines source.toList).length) (htext : '\n' ∉ text.toList)
    (hmode : (sessionAt (replaceLine source index text) (index + 1)).mode =
      (sessionAt source (index + 1)).mode) :
    AlikeUpToIds (resultsElsewhere (replaceLine source index text) (index + 1))
      (resultsElsewhere source (index + 1)) := by
  have hcode := codeElsewhere_replaceLine hindex htext hmode
  rw [resultsElsewhere_eq, resultsElsewhere_eq, hcode]
  apply alikeUpToIds_ofCode (wellNumbered_variablesOf _) (wellNumbered_variablesOf _)
  intro name hname
  refine ⟨?_, mem_names_of_mem_codeElsewhere hname⟩
  rw [← hcode] at hname
  exact mem_names_of_mem_codeElsewhere hname

/-- With another first line the names below it swap their numbers, and `@` stays the
error of the second line. -/
theorem alikeUpToIds_replaceLine_first_line :
    replaceLine "a\nb @\na b" 0 "# b" = "# b\nb @\na b" ∧
      AlikeUpToIds (resultsElsewhere "# b\nb @\na b" 1) (resultsElsewhere "a\nb @\na b" 1) ∧
      resultsElsewhere "a\nb @\na b" 1 =
        [⟨2, [⟨2, .name 2, "b"⟩], some ⟨"@", 2, some 2⟩⟩,
          ⟨3, [⟨3, .name 1, "a"⟩, ⟨3, .name 2, "b"⟩], none⟩] ∧
      resultsElsewhere "# b\nb @\na b" 1 =
        [⟨2, [⟨2, .name 1, "b"⟩], some ⟨"@", 2, some 2⟩⟩,
          ⟨3, [⟨3, .name 2, "a"⟩, ⟨3, .name 1, "b"⟩], none⟩] := by
  have hsource : replaceLine "a\nb @\na b" 0 "# b" = "# b\nb @\na b" := by decide
  have hmode : (sessionAt (replaceLine "a\nb @\na b" 0 "# b") 1).mode =
      (sessionAt "a\nb @\na b" 1).mode := by
    rw [mode_sessionAt, mode_sessionAt]
    decide
  have halike : AlikeUpToIds (resultsElsewhere (replaceLine "a\nb @\na b" 0 "# b") 1)
      (resultsElsewhere "a\nb @\na b" 1) :=
    alikeUpToIds_replaceLine (by decide) (by decide) hmode
  rw [hsource] at halike
  refine ⟨hsource, halike, ?_, ?_⟩
  · cbv
  · cbv

end FlowLex
