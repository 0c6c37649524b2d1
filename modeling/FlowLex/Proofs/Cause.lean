import FlowLex.Proofs.Grammar
import FlowLex.Proofs.Progress
import Mathlib

/-!
# Why a lexeme is rejected

A diagnostic is about the first lexeme of its line that classification rejects.
There are three causes: a string that is not closed, a name that starts with a digit
and a character that no lexeme of another kind holds. The cause can be seen in the
code of the line, it is the only one, and the tip goes with it.
-/

namespace FlowLex

open Text

/-! ## Causes -/

/-- Why a lexeme is rejected. -/
inductive Cause where
  | unclosedString
  | digitInFront
  | strayCharacter
  deriving DecidableEq, Repr

/-- `run` stands at byte `column` of a text and goes on at neither end. -/
def MaximalRunAt (column : ℕ) (run text : List Char) : Prop :=
  IsWord run ∧ ∃ front behind, text = front ++ run ++ behind ∧ column = byteSize front ∧
    (∀ c ∈ front.getLast?, isWordChar c = false) ∧
    (∀ c ∈ behind.head?, isWordChar c = false)

namespace Cause

/-- What the code of the line shows when a lexeme is rejected for some cause: a quote
that is the last of an odd number, a run of word characters that a digit leads
though not all of them are digits, or a character that is neither blank nor part of
any word, sign or literal. -/
def Fits (code : List Char) (d : Diagnostic) : Cause → Prop
  | unclosedString => d.lexeme = "\"" ∧ code.count '"' % 2 = 1 ∧
      ∃ front behind, code = front ++ '"' :: behind ∧ '"' ∉ behind ∧
        d.column = some (byteSize front)
  | digitInFront => (∃ column, d.column = some column ∧
        MaximalRunAt column d.lexeme.toList code) ∧
      (∃ c tail, d.lexeme.toList = c :: tail ∧ c.isDigit) ∧
      ∃ c ∈ d.lexeme.toList, c.isDigit = false
  | strayCharacter => ∃ c, d.lexeme.toList = [c] ∧ isBlank c = false ∧ c ≠ '"' ∧
      isWordChar c = false ∧ c ∉ signs

/-- What is said to the user. -/
def tip? (lexeme : String) : Cause → Option String
  | unclosedString => some "String literals must be closed on the same line"
  | digitInFront => some ("Names cannot start with a digit: `" ++ lexeme ++ "`")
  | strayCharacter => none

/-- The cause that the lexeme alone points to. -/
def ofLexeme (lexeme : List Char) : Cause :=
  match lexeme with
  | ['"'] => unclosedString
  | c :: _ => if c.isDigit then digitInFront else strayCharacter
  | [] => strayCharacter

theorem ofLexeme_of_isDigit {c : Char} (hc : c.isDigit) (tail : List Char) :
    ofLexeme (c :: tail) = digitInFront := by
  have hne : c ≠ '"' := by
    rintro rfl
    exact absurd hc (by decide)
  simp [ofLexeme, hc, hne]

theorem ofLexeme_of_stray {c : Char} (hquote : c ≠ '"') (hword : isWordChar c = false) :
    ofLexeme [c] = strayCharacter := by
  have hdigit : ¬ c.isDigit := by
    intro hdigit
    rw [isWordChar_of_isDigit hdigit] at hword
    exact Bool.noConfusion hword
  simp [ofLexeme, hdigit, hquote]

/-- What the code shows agrees with what the lexeme alone points to. -/
theorem Fits.eq_ofLexeme {code : List Char} {d : Diagnostic} {cause : Cause}
    (h : cause.Fits code d) : cause = ofLexeme d.lexeme.toList := by
  cases cause with
  | unclosedString =>
      rw [h.1]
      rfl
  | digitInFront =>
      obtain ⟨-, ⟨c, tail, heq, hdigit⟩, -⟩ := h
      rw [heq, ofLexeme_of_isDigit hdigit]
  | strayCharacter =>
      obtain ⟨c, heq, -, hquote, hword, -⟩ := h
      rw [heq, ofLexeme_of_stray hquote hword]

/-- Tips are chosen by the lexeme alone. -/
theorem tip?_eq (d : Diagnostic) : d.tip? = (ofLexeme d.lexeme.toList).tip? d.lexeme := by
  unfold Diagnostic.tip?
  split
  · next heq =>
      rw [heq]
      rfl
  · next c tail hquote heq =>
      rw [heq]
      split
      · next hdigit => rw [ofLexeme_of_isDigit hdigit, tip?]
      · next hdigit => simp [ofLexeme, hdigit, tip?]
  · next heq =>
      rw [heq]
      rfl

/-- There is a cause for each lexeme that no rule accepts. -/
theorem exists_fits {code front value behind : List Char}
    (hcode : code = front ++ value ++ behind) (h : IsLexemeBetween front value behind)
    (hrej : isAccepted (String.ofList value) = false) (line : ℕ) :
    ∃ cause : Cause, cause.Fits code ⟨String.ofList value, line, some (byteSize front)⟩ := by
  obtain ⟨hlex, hapart, hpaired⟩ := h
  cases hlex with
  | word hword hend =>
      rw [← Bool.not_eq_true, isAccepted_word hword] at hrej
      obtain ⟨hdigits, hlead⟩ := not_or.mp hrej
      refine ⟨digitInFront, ⟨byteSize front, rfl, ?_⟩, ?_, ?_⟩
      · rw [String.toList_ofList]
        exact ⟨hword, front, behind, hcode, rfl, hapart hword, hend⟩
      · obtain ⟨c, tail, rfl⟩ := List.exists_cons_of_ne_nil hword.1
        exact ⟨c, tail, String.toList_ofList, by simpa using hlead⟩
      · rw [String.toList_ofList]
        simpa using hdigits
  | literal hcontent =>
      rw [isAccepted_literal hcontent] at hrej
      exact Bool.noConfusion hrej
  | @alone c _ hblank hword hquote =>
      rw [← Bool.not_eq_true, isAccepted_alone hword, isSign_iff_mem_signs] at hrej
      by_cases hc : c = '"'
      · subst hc
        have hbehind := hquote rfl
        have hfront := hpaired List.mem_cons_self
        refine ⟨unclosedString, rfl, ?_, front, behind, by simp [hcode], hbehind, rfl⟩
        -- The quotes in front pair up, this one is left, and none follows.
        rw [hcode, List.count_append, List.count_append, List.count_eq_zero.mpr hbehind,
          List.count_singleton_self]
        omega
      · exact ⟨strayCharacter, c, String.toList_ofList, hblank, hc, hword, hrej⟩

end Cause

/-! ## The first rejected lexeme of a line -/

/-- The diagnostic is what becomes of the first lexeme that is rejected, whatever
variables are known. -/
def Diagnostic.IsFirstRejection (d : Diagnostic) (lexemes : List Lexeme) : Prop :=
  ∃ front lexeme behind, lexemes = front ++ lexeme :: behind ∧
    ∀ table : Variables, (∀ other ∈ front, ∃ token, other.outcome d.line table = .ok token) ∧
      lexeme.outcome d.line table = .error d

theorem isFirstRejection_of_findSome? {lexemes : List Lexeme} {line : ℕ} {d : Diagnostic}
    (h : lexemes.findSome? (·.rejection? line) = some d) : d.IsFirstRejection lexemes := by
  obtain ⟨front, lexeme, behind, heq, hrej, hfront⟩ := List.findSome?_eq_some_iff.mp h
  have hline : d.line = line := by rw [(rejection?_eq_some_iff.mp hrej).2]
  refine ⟨front, lexeme, behind, heq, ?_⟩
  intro table
  rw [hline]
  refine ⟨?_, outcome_of_rejection? hrej table⟩
  intro other hmem
  exact outcome_of_accepted (rejection?_eq_none_iff.mp (hfront other hmem)) line table

/-- **Rejections have one cause.** A diagnostic of a report is about the first lexeme
in the code of its line that is rejected, exactly one cause fits what the code shows
there, and the tip is the one for that cause. Signs and closed literals are never
rejected. -/
theorem rejections_have_one_cause (source : String) :
    (∀ d ∈ (analyze source).diagnostics, ∃ code, codeAt? source d.line = some code ∧
      d.IsFirstRejection (scanFrom 0 code) ∧
      ∃ cause : Cause, cause.Fits code d ∧ d.tip? = cause.tip? d.lexeme ∧
        ∀ other : Cause, other.Fits code d → other = cause) ∧
    ∀ (lexeme : Lexeme) (line : ℕ) (table : Variables),
      (∃ c ∈ signs, lexeme.value.toList = [c]) ∨
        (∃ content, '"' ∉ content ∧ lexeme.value.toList = stringLiteral content) →
      ∃ token, lexeme.outcome line table = .ok token := by
  refine ⟨?_, ?_⟩
  · intro d hd
    rw [diagnostics_analyze, List.mem_filterMap] at hd
    obtain ⟨⟨number, code⟩, hpiece, hfirst⟩ := hd
    obtain ⟨lexeme, hmem, hrej⟩ := List.exists_of_findSome?_eq_some hfirst
    obtain ⟨hnot, rfl⟩ := rejection?_eq_some_iff.mp hrej
    obtain ⟨front, behind, hcode, hcol, hbetween⟩ := exists_between_of_mem_scanFrom hmem
    rw [Nat.zero_add] at hcol
    rw [← String.ofList_toList (s := lexeme.value)] at hnot
    obtain ⟨cause, hfits⟩ := Cause.exists_fits hcode hbetween hnot number
    rw [String.ofList_toList, ← hcol] at hfits
    refine ⟨code, mem_codeLines_iff.mp hpiece, isFirstRejection_of_findSome? hfirst, cause,
      hfits, ?_, ?_⟩
    · rw [Cause.tip?_eq, ← hfits.eq_ofLexeme]
    · intro other hother
      rw [hother.eq_ofLexeme, hfits.eq_ofLexeme]
  · rintro lexeme line table (⟨c, hc, heq⟩ | ⟨content, hcontent, heq⟩)
    · have hsign : isSign c := isSign_iff_mem_signs.mpr hc
      exact outcome_of_accepted (isAccepted_iff_shape.mpr (Or.inr (Or.inr ⟨c, hsign, heq⟩)))
        line table
    · exact outcome_of_accepted
        (isAccepted_iff_shape.mpr (Or.inr (Or.inl ⟨content, hcontent, heq⟩))) line table

/-- A closed string and a number stand in front of the quote that is left open, and
the comment behind it closes nothing. -/
theorem rejections_have_one_cause_open_string :
    ⟨"\"", 2, some 12⟩ ∈ (analyze "show x;\n show \"é\" 9 \"b // \"").diagnostics ∧
      ∃ code, codeAt? "show x;\n show \"é\" 9 \"b // \"" 2 = some code ∧
        Cause.unclosedString.Fits code ⟨"\"", 2, some 12⟩ ∧
        Diagnostic.tip? ⟨"\"", 2, some 12⟩ = Cause.unclosedString.tip? "\"" := by
  have hmem : ⟨"\"", 2, some 12⟩ ∈
      (analyze "show x;\n show \"é\" 9 \"b // \"").diagnostics := by
    have hall : (analyze "show x;\n show \"é\" 9 \"b // \"").diagnostics =
        [⟨"\"", 2, some 12⟩] := by cbv
    rw [hall]
    exact List.mem_singleton_self _
  obtain ⟨code, hcode, -, cause, hfits, htip, -⟩ :=
    (rejections_have_one_cause "show x;\n show \"é\" 9 \"b // \"").1 _ hmem
  obtain rfl : cause = .unclosedString := hfits.eq_ofLexeme
  exact ⟨hmem, code, hcode, hfits, htip⟩

end FlowLex
