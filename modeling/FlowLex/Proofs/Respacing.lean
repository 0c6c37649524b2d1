import FlowLex.Proofs.Scan
import FlowLex.Scanner
import Mathlib

/-!
# Lexemes written down again

Some of the lexemes of a line, rejected ones included, are written down in their
order with other blanks between and around them. A scan of the result finds just
these lexemes again. Leaving lexemes out pairs up no quotes that were apart: all
quotes but the last come in closed literals.
-/

namespace FlowLex

open Text

/-! ## Values that can stand apart -/

/-- What the values of a text have in common with any choice from them: each is a
lexeme when it stands alone, and no quote follows a lone one. -/
structure Separable (values : List String) : Prop where
  shapes : ∀ value ∈ values, IsLexeme value.toList []
  quotes : values.Pairwise fun value later => value.toList = ['"'] → '"' ∉ later.toList

theorem IsLexeme.of_nothing_behind {value behind : List Char} (h : IsLexeme value [])
    (hend : EndsWord behind) (hquote : value = ['"'] → '"' ∉ behind) :
    IsLexeme value behind := by
  cases h with
  | word hword _ => exact .word hword hend
  | literal hcontent => exact .literal hcontent
  | alone hblank hword _ =>
      refine .alone hblank hword ?_
      rintro rfl
      exact hquote rfl

theorem IsLexeme.nothing_behind {value behind : List Char} (h : IsLexeme value behind) :
    IsLexeme value [] := by
  cases h with
  | word hword _ => exact .word hword endsWord_nil
  | literal hcontent => exact .literal hcontent
  | alone hblank hword _ => exact .alone hblank hword fun _ => List.not_mem_nil

/-- A quote is the lexeme at the front only when no other one follows. -/
theorem IsLexeme.not_quote_mem {behind : List Char} (h : IsLexeme ['"'] behind) :
    '"' ∉ behind := by
  generalize hvalue : ['"'] = value at h
  cases h with
  | word hword _ =>
      rw [← hvalue] at hword
      exact absurd List.mem_cons_self (hword.not_mem isWordChar_quote)
  | literal _ => simp [stringLiteral] at hvalue
  | alone _ _ hquote =>
      rw [List.singleton_inj] at hvalue
      exact hquote hvalue.symm

theorem infix_of_mem_values {text : List Char} {value : String} (h : value ∈ values text) :
    value.toList <:+: text := by
  obtain ⟨lexeme, hlex, rfl⟩ := List.mem_map.mp h
  obtain ⟨front, back, heq, -, -⟩ := exists_append_of_mem_scanFrom hlex
  exact ⟨front, back, heq.symm⟩

theorem separable_values (text : List Char) : Separable (values text) := by
  induction text using scan_induction with
  | nil =>
      rw [values_nil]
      exact ⟨by simp, List.Pairwise.nil⟩
  | blank c rest hc ih =>
      rw [← List.singleton_append, values_gap_append (isGap_cons.mpr ⟨hc, isGap_nil⟩)]
      exact ih
  | lexeme value rest hlex ih =>
      rw [values_lexeme hlex]
      refine ⟨?_, List.pairwise_cons.mpr ⟨?_, ih.quotes⟩⟩
      · rw [List.forall_mem_cons, String.toList_ofList]
        exact ⟨hlex.nothing_behind, ih.shapes⟩
      · intro later hlater hvalue hmem
        rw [String.toList_ofList] at hvalue
        subst hvalue
        exact hlex.not_quote_mem ((infix_of_mem_values hlater).subset hmem)

theorem Separable.sublist {values chosen : List String} (h : Separable values)
    (hsub : chosen.Sublist values) : Separable chosen :=
  ⟨fun value hmem => h.shapes value (hsub.subset hmem), h.quotes.sublist hsub⟩

/-! ## Writing them down -/

/-- Values in order, each with the blanks that are put behind it. -/
def written (parts : List (String × List Char)) : List Char :=
  parts.flatMap fun part => part.1.toList ++ part.2

/-- Blanks in front of everything and behind each value, at least one between any two. -/
structure IsSpacing (lead : List Char) (parts : List (String × List Char)) : Prop where
  lead : IsGap lead
  gaps : ∀ part ∈ parts, IsGap part.2
  apart : ∀ part ∈ parts.dropLast, part.2 ≠ []

theorem written_cons (value : String) (gap : List Char) (more : List (String × List Char)) :
    written ((value, gap) :: more) = value.toList ++ (gap ++ written more) := by
  simp [written]

section First

variable {lead gap : List Char} {value : String} {more : List (String × List Char)}

/-- The blanks behind the first value are those in front of the others. -/
theorem IsSpacing.behind_first (h : IsSpacing lead ((value, gap) :: more)) :
    IsSpacing gap more := by
  obtain ⟨hgap, hgaps⟩ := List.forall_mem_cons.mp h.gaps
  refine ⟨hgap, hgaps, ?_⟩
  intro part hpart
  apply h.apart part
  rw [List.dropLast_cons_of_ne_nil (List.ne_nil_of_mem (List.mem_of_mem_dropLast hpart))]
  exact List.mem_cons_of_mem _ hpart

/-- The first value goes on in nothing that is written behind it. -/
theorem IsSpacing.endsWord (h : IsSpacing lead ((value, gap) :: more)) :
    EndsWord (gap ++ written more) := by
  apply endsWord_gap_append h.behind_first.lead
  intro hwritten
  have hne : more ≠ [] := by
    rintro rfl
    exact hwritten rfl
  apply h.apart (value, gap)
  rw [List.dropLast_cons_of_ne_nil hne]
  exact List.mem_cons_self

/-- Only a quote of some value is a quote of the whole. -/
theorem IsSpacing.not_quote_mem (h : IsSpacing lead more)
    (hvalues : ∀ value ∈ more.map Prod.fst, '"' ∉ value.toList) :
    '"' ∉ lead ++ written more := by
  intro hmem
  rcases List.mem_append.mp hmem with hin | hin
  · exact not_mem_gap h.lead isBlank_quote hin
  · obtain ⟨part, hpart, hin⟩ := List.mem_flatMap.mp hin
    rcases List.mem_append.mp hin with hin | hin
    · exact hvalues part.1 (List.mem_map_of_mem hpart) hin
    · exact not_mem_gap (h.gaps part hpart) isBlank_quote hin

/-- The first value is the lexeme at the front of what is written. -/
theorem IsSpacing.isLexeme_first (h : IsSpacing lead ((value, gap) :: more))
    (hsep : Separable (value :: more.map Prod.fst)) :
    IsLexeme value.toList (gap ++ written more) := by
  apply (hsep.shapes value List.mem_cons_self).of_nothing_behind h.endsWord
  intro hquote
  apply h.behind_first.not_quote_mem
  intro later hlater
  exact (List.pairwise_cons.mp hsep.quotes).1 later hlater hquote

end First

/-- **Reading what was written.** A scan finds the values, each behind all that was
written before it. -/
theorem scanFrom_written {lead : List Char} {parts : List (String × List Char)}
    (hsep : Separable (parts.map Prod.fst)) (h : IsSpacing lead parts) (column : ℕ) :
    (scanFrom column (lead ++ written parts)).map Lexeme.value = parts.map Prod.fst ∧
      ∀ (i : ℕ) (lexeme : Lexeme), (scanFrom column (lead ++ written parts))[i]? = some lexeme →
        lexeme.column = column + byteSize (lead ++ written (parts.take i)) := by
  rw [scanFrom_gap_append h.lead]
  induction parts generalizing lead column with
  | nil => simp [written]
  | cons part more ih =>
      obtain ⟨value, gap⟩ := part
      have hmore : Separable (more.map Prod.fst) := hsep.sublist (List.sublist_cons_self _ _)
      obtain ⟨hvalues, hcolumns⟩ := ih hmore h.behind_first
        (column + byteSize lead + byteSize value.toList)
      rw [written_cons, scanFrom_lexeme (h.isLexeme_first hsep), String.ofList_toList,
        scanFrom_gap_append h.behind_first.lead]
      refine ⟨?_, ?_⟩
      · rw [List.map_cons, hvalues]
        rfl
      · intro i lexeme hget
        cases i with
        | zero =>
            obtain rfl := Option.some.inj hget
            simp [written]
        | succ i =>
            rw [hcolumns i lexeme hget, List.take_succ_cons, written_cons]
            simp only [byteSize_append]
            omega

/-- **Extraction is stable under dropping lexemes and spacing.** Some of the lexemes of a
line, written down in order with any blanks around them and at least one between two,
are what a scanner finds in the result. Each has as its column the size of what stands
in front of it. -/
theorem scanLine_written (scanner other : Scanner) {line lead : List Char}
    {parts : List (String × List Char)}
    (hsub : (parts.map Prod.fst).Sublist ((scanner.scanLine line).1.map Lexeme.value))
    (h : IsSpacing lead parts) :
    (other.scanLine (lead ++ written parts)).1.map Lexeme.value = parts.map Prod.fst ∧
      ∀ (i : ℕ) (lexeme : Lexeme),
        (other.scanLine (lead ++ written parts)).1[i]? = some lexeme →
          lexeme.column = byteSize (lead ++ written (parts.take i)) := by
  rw [Scanner.lexemes_scanLine] at hsub
  have hsep : Separable (parts.map Prod.fst) := (separable_values line).sublist hsub
  rw [Scanner.lexemes_scanLine]
  obtain ⟨hvalues, hcolumns⟩ := scanFrom_written hsep h 0
  refine ⟨hvalues, ?_⟩
  intro i lexeme hget
  rw [hcolumns i lexeme hget, Nat.zero_add]

/-- The first two lexemes of a line are left out. A literal, a stray character and an
open quote remain, and one of the blanks between them is a line feed. -/
theorem scanLine_written_behind_dropped :
    (["\"b +c\"", "é", "\""] : List String).Sublist
        ((Scanner.scanLine ⟨#[⟨"z", 3⟩], 4⟩ "x5=\"b +c\"é \"d".toList).1.map Lexeme.value) ∧
      IsSpacing [' '] [("\"b +c\"", ['\n', ' ']), ("é", ['\t']), ("\"", [])] ∧
      (Scanner.scanLine {} " \"b +c\"\n é\t\"".toList).1.map Lexeme.value =
        ["\"b +c\"", "é", "\""] ∧
      ∀ lexeme, (Scanner.scanLine {} " \"b +c\"\n é\t\"".toList).1[2]? = some lexeme →
        lexeme.column = 12 := by
  have hfound : (Scanner.scanLine ⟨#[⟨"z", 3⟩], 4⟩ "x5=\"b +c\"é \"d".toList).1 =
      [⟨"x5", 0⟩, ⟨"=", 2⟩, ⟨"\"b +c\"", 3⟩, ⟨"é", 9⟩, ⟨"\"", 12⟩, ⟨"d", 13⟩] := by
    cbv
  have hsub : (["\"b +c\"", "é", "\""] : List String).Sublist
      ((Scanner.scanLine ⟨#[⟨"z", 3⟩], 4⟩ "x5=\"b +c\"é \"d".toList).1.map Lexeme.value) := by
    rw [hfound]
    decide
  have hspacing : IsSpacing [' '] [("\"b +c\"", ['\n', ' ']), ("é", ['\t']), ("\"", [])] :=
    ⟨by decide, by decide, by decide⟩
  obtain ⟨hvalues, hcolumns⟩ := @scanLine_written ⟨#[⟨"z", 3⟩], 4⟩ {}
    "x5=\"b +c\"é \"d".toList [' '] [("\"b +c\"", ['\n', ' ']), ("é", ['\t']), ("\"", [])]
    hsub hspacing
  exact ⟨hsub, hspacing, hvalues, hcolumns 2⟩

end FlowLex
