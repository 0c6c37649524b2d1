import FlowLex.Proofs.Decomposition
import FlowLex.Proofs.Reading
import Mathlib

/-!
# The first rejected lexeme of a source

The list of tokens is asked for as a whole. Where some lexeme is rejected there is a
diagnostic instead, and it is about the first of them all: no rejected lexeme stands
on an earlier line, or further to the left on the same one. Where none is rejected
every lexeme has become a token.
-/

namespace FlowLex

open Text

/-- The lexemes of a source from the first line to the last and from left to right,
each with the number of its line. -/
def placedLexemes (source : String) : List (ℕ × Lexeme) :=
  (codeLines source).flatMap fun piece => (scanFrom 0 piece.2).map (piece.1, ·)

/-- Where a lexeme stands, lines before columns. -/
def placeOf (placed : ℕ × Lexeme) : ℕ ×ₗ ℕ := toLex (placed.1, placed.2.column)

/-- No token comes of the lexeme when `table` numbers the names. -/
def IsRejected (table : Variables) (placed : ℕ × Lexeme) : Prop :=
  ∃ d, placed.2.outcome placed.1 table = .error d

/-- The places of the lexemes that are rejected. -/
def rejectedPlaces (source : String) (table : Variables) : Set (ℕ ×ₗ ℕ) :=
  {place | ∃ placed ∈ placedLexemes source, IsRejected table placed ∧ place = placeOf placed}

theorem placedValues_eq_map (source : String) :
    placedValues source =
      (placedLexemes source).map fun placed => (placed.1, placed.2.value) := by
  rw [placedValues, placedLexemes, List.map_flatMap]
  simp only [values, List.map_map, Function.comp_def]

/-! ## Places in order -/

theorem columns_increasing (start : ℕ) (text : List Char) :
    (scanFrom start text).Pairwise fun a b => a.column < b.column := by
  have h : Decomposes start text (scanFrom start text) := decomposes_iff_eq_scanFrom.mpr rfl
  apply h.ordered.imp_of_mem
  intro a b ha _ hle
  obtain ⟨front, behind, -, -, hshape⟩ := h.stands a ha
  have hsize := byteSize_pos (hasShape_iff_isLexeme.mp hshape).ne_nil
  have hstop : a.column + byteSize a.value.toList ≤ b.column := hle
  omega

theorem places_increasing (source : String) :
    (placedLexemes source).Pairwise fun a b => placeOf a < placeOf b := by
  rw [placedLexemes, List.pairwise_flatMap]
  refine ⟨?_, ?_⟩
  · intro piece _
    rw [List.pairwise_map]
    apply (columns_increasing 0 piece.2).imp
    intro a b hlt
    exact Prod.Lex.toLex_lt_toLex.mpr (Or.inr ⟨rfl, hlt⟩)
  · apply (codeLines_increasing source).imp
    intro a b hlt x hx y hy
    obtain ⟨-, -, rfl⟩ := List.mem_map.mp hx
    obtain ⟨-, -, rfl⟩ := List.mem_map.mp hy
    exact Prod.Lex.toLex_lt_toLex.mpr (Or.inl hlt)

/-! ## Rejected lexemes -/

theorem isRejected_iff {table : Variables} {placed : ℕ × Lexeme} :
    IsRejected table placed ↔ isAccepted placed.2.value = false := by
  constructor
  · rintro ⟨d, hd⟩
    by_contra hacc
    rw [Bool.not_eq_false] at hacc
    obtain ⟨token, htoken⟩ := outcome_of_accepted hacc placed.1 table
    rw [htoken] at hd
    cases hd
  · intro hrej
    exact ⟨_, outcome_of_not_accepted hrej placed.1 table⟩

/-- The first lexeme that is rejected is the one whose place comes first. -/
theorem isLeast_placeOf {source : String} {table : Variables} {placed : ℕ × Lexeme}
    {front behind : List (ℕ × Lexeme)} (hsplit : placedLexemes source = front ++ placed :: behind)
    (hfront : ∀ other ∈ front, isAccepted other.2.value) (hrej : IsRejected table placed) :
    IsLeast (rejectedPlaces source table) (placeOf placed) := by
  have hmem : placed ∈ placedLexemes source := by
    rw [hsplit]
    exact List.mem_append_right _ List.mem_cons_self
  have hordered := places_increasing source
  rw [hsplit, List.pairwise_append, List.pairwise_cons] at hordered
  obtain ⟨-, ⟨hbehind, -⟩, -⟩ := hordered
  refine ⟨⟨placed, hmem, hrej, rfl⟩, ?_⟩
  rintro place ⟨other, hother, hrejected, rfl⟩
  rw [hsplit, List.mem_append, List.mem_cons] at hother
  rcases hother with hother | rfl | hother
  · -- Nothing is rejected in front of the first.
    have hacc := hfront other hother
    rw [isRejected_iff.mp hrejected] at hacc
    exact Bool.noConfusion hacc
  · exact le_refl _
  · exact le_of_lt (hbehind other hother)

/-! ## The first diagnostic -/

/-- The first diagnostic is about the first rejected lexeme of the source. -/
theorem head?_diagnostics (source : String) :
    (analyze source).diagnostics.head? =
      (placedLexemes source).findSome? fun placed => placed.2.rejection? placed.1 := by
  rw [diagnostics_analyze, placedLexemes, ← List.head?_filterMap, List.filterMap_flatMap,
    List.head?_flatMap, List.head?_filterMap]
  simp only [List.head?_filterMap, List.findSome?_map, Function.comp_def]

theorem tokenize_eq_error_iff {source : String} {d : Diagnostic} :
    tokenize source = .error d ↔
      (placedLexemes source).findSome? (fun placed => placed.2.rejection? placed.1) = some d := by
  rw [← head?_diagnostics]
  simp only [tokenize]
  cases (analyze source).diagnostics <;> simp

/-- Every lexeme of a source without rejected ones has become a token. -/
theorem tokenize_of_all_accepted {source : String}
    (h : ∀ placed ∈ placedLexemes source, isAccepted placed.2.value) :
    ∃ tokens, tokenize source = .ok tokens ∧
      tokens.map Token.placed =
        (placedLexemes source).map fun placed => (placed.1, placed.2.value) := by
  have hnone : (analyze source).diagnostics = [] := by
    rw [← List.head?_eq_none_iff, head?_diagnostics, List.findSome?_eq_none_iff]
    intro placed hmem
    exact rejection?_eq_none_iff.mpr (h placed hmem)
  refine ⟨(analyze source).tokens, by simp [tokenize, hnone], ?_⟩
  rw [placed_tokens, placedValues_eq_map, List.filter_eq_self]
  intro entry hentry
  obtain ⟨placed, hmem, rfl⟩ := List.mem_map.mp hentry
  exact h placed hmem

/-- There is a diagnostic when some lexeme is rejected. -/
theorem exists_tokenize_eq_error_iff {source : String} (table : Variables) :
    (∃ d, tokenize source = .error d) ↔
      ∃ placed ∈ placedLexemes source, IsRejected table placed := by
  simp only [tokenize_eq_error_iff, isRejected_iff]
  rw [← Option.isSome_iff_exists, List.findSome?_isSome_iff]
  constructor
  · rintro ⟨placed, hmem, hsome⟩
    obtain ⟨d, hd⟩ := Option.isSome_iff_exists.mp hsome
    exact ⟨placed, hmem, (rejection?_eq_some_iff.mp hd).1⟩
  · rintro ⟨placed, hmem, hrej⟩
    refine ⟨placed, hmem, ?_⟩
    rw [rejection?_eq_some_iff.mpr ⟨hrej, rfl⟩]
    rfl

/-- **The first rejected lexeme of a source decides.** There is a diagnostic instead of
tokens when some lexeme is rejected, and it is about the one whose line and column
come first. Otherwise there is one token for each lexeme, in their order. The table
under which lexemes are looked at makes no difference. -/
theorem tokenize_finds_first_rejection (source : String) (table : Variables) :
    ((∃ d, tokenize source = .error d) ↔
        ∃ placed ∈ placedLexemes source, IsRejected table placed) ∧
      (∀ d, tokenize source = .error d → ∃ placed ∈ placedLexemes source,
        placed.2.outcome placed.1 table = .error d ∧
          d.lexeme = placed.2.value ∧ d.line = placed.1 ∧ d.column = some placed.2.column ∧
          IsLeast (rejectedPlaces source table) (placeOf placed)) ∧
      ((∀ placed ∈ placedLexemes source, ¬ IsRejected table placed) →
        ∃ tokens, tokenize source = .ok tokens ∧
          tokens.map Token.placed =
            (placedLexemes source).map fun placed => (placed.1, placed.2.value)) := by
  refine ⟨exists_tokenize_eq_error_iff table, ?_, ?_⟩
  · intro d hd
    rw [tokenize_eq_error_iff, List.findSome?_eq_some_iff] at hd
    obtain ⟨front, placed, behind, hsplit, hrej, hfront⟩ := hd
    have hout := outcome_of_rejection? hrej table
    have hleast : IsLeast (rejectedPlaces source table) (placeOf placed) := by
      apply isLeast_placeOf hsplit _ ⟨d, hout⟩
      intro other hother
      exact rejection?_eq_none_iff.mp (hfront other hother)
    have hmem : placed ∈ placedLexemes source := by
      rw [hsplit]
      exact List.mem_append_right _ List.mem_cons_self
    obtain ⟨-, rfl⟩ := rejection?_eq_some_iff.mp hrej
    exact ⟨placed, hmem, hout, rfl, rfl, rfl, hleast⟩
  · intro h
    apply tokenize_of_all_accepted
    intro placed hmem
    rw [← Bool.not_eq_false, ← isRejected_iff]
    exact h placed hmem

/-- `@` is in a string on the second line and rejected on the third only, behind the
two lexemes that are rejected on the second. -/
theorem tokenize_finds_first_rejection_second_line :
    tokenize "show x;\n  a \"b @\" # $; // @\n@" = .error ⟨"#", 2, some 8⟩ ∧
      IsLeast (rejectedPlaces "show x;\n  a \"b @\" # $; // @\n@" .empty) (toLex (2, 8)) := by
  have herror : tokenize "show x;\n  a \"b @\" # $; // @\n@" = .error ⟨"#", 2, some 8⟩ := by
    cbv
  obtain ⟨placed, -, -, -, hline, hcolumn, hleast⟩ :=
    (tokenize_finds_first_rejection "show x;\n  a \"b @\" # $; // @\n@" .empty).2.1 _ herror
  rw [placeOf, ← hline, ← Option.some.inj hcolumn] at hleast
  exact ⟨herror, hleast⟩

end FlowLex
