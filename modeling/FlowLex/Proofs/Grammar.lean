import FlowLex.Proofs.Reading
import FlowLex.Report.Output

/-!
# The lexical grammar

A piece of code is grammatical when its quotes pair up and what stands outside
the pairs is made of blanks, signs and words, none of them a name that starts
with a digit. Nothing here speaks of lexemes: quotes are counted and the code is
cut at each of them. A source is in order exactly when all its code is
grammatical.
-/

namespace FlowLex

open Text

/-! ## The grammar -/

/-- `run` stands in `text` and goes on at neither end. -/
def MaximalRun (run text : List Char) : Prop :=
  IsWord run ∧ ∃ front back, text = front ++ run ++ back ∧
    (∀ c ∈ front.getLast?, isWordChar c = false) ∧
    (∀ c ∈ back.head?, isWordChar c = false)

/-- The operators and the punctuation marks. -/
def signs : List Char :=
  ['+', '-', '*', '/', '=', '<', '>', '!', ';', '(', ')', ',', '\x7b', '\x7d']

/-- Text that may stand outside of string literals: blanks, signs and the
characters of words, a run of which is a number or starts with no digit. -/
structure IsPlain (text : List Char) : Prop where
  chars : ∀ c ∈ text, isBlank c ∨ isWordChar c ∨ c ∈ signs
  runs : ∀ run, MaximalRun run text → IsProperWord run

/-- Quotes pair up, and every segment between two quotes that is outside of a
pair is plain. Those are the segments with an even number, counted from 0. -/
structure Grammatical (code : List Char) : Prop where
  paired : code.count '"' % 2 = 0
  plain : ∀ (i : ℕ) (segment : List Char),
    (code.splitOn '"')[2 * i]? = some segment → IsPlain segment

theorem isSign_iff_mem_signs {c : Char} : isSign c ↔ c ∈ signs := by
  simp [isSign, Rule.operators, Rule.punctuationMarks, signs, or_assoc]

/-! ## Runs at the front of a text -/

theorem maximalRun_cons_iff {c : Char} (hc : isWordChar c = false)
    {run text : List Char} : MaximalRun run (c :: text) ↔ MaximalRun run text := by
  constructor
  · rintro ⟨hrun, front, back, heq, hfront, hback⟩
    refine ⟨hrun, ?_⟩
    cases front with
    | nil =>
        -- A run at the front would start with `c`.
        obtain ⟨d, tail, rfl⟩ := List.exists_cons_of_ne_nil hrun.1
        rw [List.nil_append, List.cons_append, List.cons.injEq] at heq
        rw [heq.1] at hc
        exact absurd List.mem_cons_self (hrun.not_mem hc)
    | cons d front =>
        rw [List.cons_append, List.cons_append, List.cons.injEq] at heq
        refine ⟨front, back, heq.2, ?_, hback⟩
        intro e he
        apply hfront
        cases front with
        | nil => simp at he
        | cons f front => simpa using he
  · rintro ⟨hrun, front, back, rfl, hfront, hback⟩
    refine ⟨hrun, c :: front, back, by simp, ?_, hback⟩
    intro e he
    cases front with
    | nil =>
        rw [List.getLast?_singleton, Option.mem_def, Option.some.injEq] at he
        rw [← he]
        exact hc
    | cons f front =>
        apply hfront
        simpa using he

theorem maximalRun_word_append_iff {word rest : List Char} (hword : IsWord word)
    (hrest : EndsWord rest) {run : List Char} :
    MaximalRun run (word ++ rest) ↔ run = word ∨ MaximalRun run rest := by
  constructor
  · rintro ⟨hrun, front, back, heq, hfront, hback⟩
    rcases List.eq_nil_or_concat front with rfl | ⟨init, last, rfl⟩
    · -- Both runs are what a scan of word characters takes from the front.
      left
      rw [List.nil_append] at heq
      rw [← takeWhile_word_append hrun.2 hback, ← heq, takeWhile_word_append hword.2 hrest]
    · right
      have hlast : isWordChar last = false := hfront last (by simp)
      rw [List.append_assoc, List.append_eq_append_iff] at heq
      rcases heq with ⟨inner, hinner, hrest'⟩ | ⟨inner, hinner, -⟩
      · refine ⟨hrun, inner, back, by simpa using hrest', ?_, hback⟩
        intro c hc
        apply hfront
        rw [hinner, List.getLast?_append, Option.mem_def.mp hc]
        rfl
      · have hmem : last ∈ word := by
          rw [hinner]
          simp
        exact absurd hmem (hword.not_mem hlast)
  · rintro (rfl | ⟨hrun, front, back, rfl, hfront, hback⟩)
    · exact ⟨hword, [], rest, by simp, by simp, hrest⟩
    · refine ⟨hrun, word ++ front, back, by simp, ?_, hback⟩
      intro c hc
      cases front with
      | nil =>
          obtain ⟨d, tail, rfl⟩ := List.exists_cons_of_ne_nil hrun.1
          have hd : isWordChar d = false := hrest d (by simp)
          exact absurd List.mem_cons_self (hrun.not_mem hd)
      | cons d front =>
          apply hfront
          simpa [List.getLast?_append] using hc

/-! ## Plain text -/

theorem isPlain_nil : IsPlain [] := by
  refine ⟨by simp, ?_⟩
  rintro run ⟨hrun, front, back, heq, -⟩
  simp [hrun.1] at heq

theorem isPlain_cons_iff {c : Char} (hc : isWordChar c = false) {text : List Char} :
    IsPlain (c :: text) ↔ (isBlank c ∨ c ∈ signs) ∧ IsPlain text := by
  constructor
  · rintro ⟨hchars, hruns⟩
    have hfirst := hchars c List.mem_cons_self
    rw [hc] at hfirst
    refine ⟨by simpa using hfirst, ⟨?_, ?_⟩⟩
    · exact fun d hd => hchars d (List.mem_cons_of_mem _ hd)
    · exact fun run hrun => hruns run ((maximalRun_cons_iff hc).mpr hrun)
  · rintro ⟨hfirst, hchars, hruns⟩
    refine ⟨?_, ?_⟩
    · intro d hd
      rcases List.mem_cons.mp hd with rfl | hd
      · tauto
      · exact hchars d hd
    · exact fun run hrun => hruns run ((maximalRun_cons_iff hc).mp hrun)

theorem isPlain_word_append_iff {word rest : List Char} (hword : IsWord word)
    (hrest : EndsWord rest) :
    IsPlain (word ++ rest) ↔ IsProperWord word ∧ IsPlain rest := by
  constructor
  · rintro ⟨hchars, hruns⟩
    refine ⟨?_, ⟨?_, ?_⟩⟩
    · exact hruns word ((maximalRun_word_append_iff hword hrest).mpr (Or.inl rfl))
    · exact fun c hc => hchars c (List.mem_append_right _ hc)
    · intro run hrun
      exact hruns run ((maximalRun_word_append_iff hword hrest).mpr (Or.inr hrun))
  · rintro ⟨hproper, hchars, hruns⟩
    refine ⟨?_, ?_⟩
    · intro c hc
      rcases List.mem_append.mp hc with hc | hc
      · exact Or.inr (Or.inl (hword.2 c hc))
      · exact hchars c hc
    · intro run hrun
      rcases (maximalRun_word_append_iff hword hrest).mp hrun with rfl | hrun
      · exact hproper
      · exact hruns run hrun

/-! ## Segments -/

theorem splitOn_append_of_not_mem {q : Char} {front : List Char} (h : q ∉ front)
    (rest : List Char) :
    (front ++ rest).splitOn q = (rest.splitOn q).modifyHead (front ++ ·) := by
  induction front with
  | nil =>
      rw [List.nil_append]
      cases rest.splitOn q <;> rfl
  | cons c front ih =>
      rw [List.mem_cons, not_or] at h
      rw [List.cons_append, List.splitOn_cons_eq_if_modifyHead, ih h.2,
        if_neg (by simpa using Ne.symm h.1)]
      cases rest.splitOn q <;> rfl

theorem exists_splitOn_eq_cons (q : Char) (text : List Char) :
    ∃ first more, text.splitOn q = first :: more ∧ first <+: text := by
  induction text with
  | nil => exact ⟨[], [], List.splitOn_nil q, List.prefix_refl _⟩
  | cons c text ih =>
      obtain ⟨first, more, heq, hpre⟩ := ih
      rw [List.splitOn_cons_eq_if_modifyHead, heq]
      by_cases hc : (c == q) = true
      · exact ⟨[], first :: more, by rw [if_pos hc], List.nil_prefix⟩
      · exact ⟨c :: first, more, by rw [if_neg hc]; rfl,
          List.cons_prefix_cons.mpr ⟨rfl, hpre⟩⟩

/-- What stands in front of the first quote only matters for the first segment. -/
theorem grammatical_append_iff {front rest : List Char} {good : Prop}
    (hquote : '"' ∉ front)
    (hplain : ∀ first, first <+: rest → (IsPlain (front ++ first) ↔ good ∧ IsPlain first)) :
    Grammatical (front ++ rest) ↔ good ∧ Grammatical rest := by
  obtain ⟨first, more, hrest, hpre⟩ := exists_splitOn_eq_cons '"' rest
  have hsplit : (front ++ rest).splitOn '"' = (front ++ first) :: more := by
    rw [splitOn_append_of_not_mem hquote, hrest, List.modifyHead_cons]
  have hcount : (front ++ rest).count '"' = rest.count '"' := by
    rw [List.count_append, List.count_eq_zero.mpr hquote, Nat.zero_add]
  constructor
  · rintro ⟨hpaired, hsegments⟩
    rw [hcount] at hpaired
    rw [hsplit] at hsegments
    have hfirst := (hplain first hpre).mp (hsegments 0 _ rfl)
    refine ⟨hfirst.1, hpaired, ?_⟩
    intro i segment hseg
    rw [hrest] at hseg
    cases i with
    | zero =>
        obtain rfl := Option.some.inj hseg
        exact hfirst.2
    | succ i => exact hsegments (i + 1) segment hseg
  · rintro ⟨hgood, hpaired, hsegments⟩
    rw [hrest] at hsegments
    refine ⟨by rw [hcount]; exact hpaired, ?_⟩
    intro i segment hseg
    rw [hsplit] at hseg
    cases i with
    | zero =>
        obtain rfl := Option.some.inj hseg
        exact (hplain first hpre).mpr ⟨hgood, hsegments 0 first rfl⟩
    | succ i => exact hsegments (i + 1) segment hseg

/-- A closed literal at the front takes two quotes and two segments away. -/
theorem grammatical_literal_append_iff {content : List Char} (hcontent : '"' ∉ content)
    (rest : List Char) :
    Grammatical (stringLiteral content ++ rest) ↔ Grammatical rest := by
  have hform : stringLiteral content ++ rest = [] ++ '"' :: (content ++ '"' :: rest) := by
    simp [stringLiteral]
  have hsplit : (stringLiteral content ++ rest).splitOn '"' =
      [] :: content :: rest.splitOn '"' := by
    rw [hform, List.splitOn_append_cons_self_of_not_mem (by simp),
      List.splitOn_append_cons_self_of_not_mem hcontent]
  have hcount : (stringLiteral content ++ rest).count '"' = rest.count '"' + 2 := by
    rw [hform]
    simp [List.count_eq_zero.mpr hcontent]
  constructor
  · rintro ⟨hpaired, hsegments⟩
    refine ⟨by omega, ?_⟩
    intro i segment hseg
    apply hsegments (i + 1) segment
    rw [hsplit]
    exact hseg
  · rintro ⟨hpaired, hsegments⟩
    refine ⟨by omega, ?_⟩
    intro i segment hseg
    rw [hsplit] at hseg
    cases i with
    | zero =>
        obtain rfl := Option.some.inj hseg
        exact isPlain_nil
    | succ i => exact hsegments i segment hseg

theorem not_grammatical_lone_quote {rest : List Char} (h : '"' ∉ rest) :
    ¬ Grammatical ('"' :: rest) := by
  intro hgram
  have hpaired := hgram.paired
  rw [List.count_cons_self, List.count_eq_zero.mpr h] at hpaired
  omega

theorem grammatical_nil : Grammatical [] := by
  refine ⟨rfl, ?_⟩
  intro i segment hseg
  cases i with
  | zero =>
      obtain rfl := Option.some.inj hseg
      exact isPlain_nil
  | succ i =>
      rw [List.splitOn_nil, List.getElem?_eq_none (by simp; omega)] at hseg
      simp at hseg

/-! ## Acceptance -/

/-- A lexeme at the front is accepted exactly when the grammar lets it stand
there. -/
theorem grammatical_lexeme_append_iff {value rest : List Char} (h : IsLexeme value rest) :
    Grammatical (value ++ rest) ↔
      isAccepted (String.ofList value) ∧ Grammatical rest := by
  cases h with
  | word hword hrest =>
      rw [isAccepted_word hword]
      apply grammatical_append_iff (hword.not_mem isWordChar_quote)
      intro first hpre
      apply isPlain_word_append_iff hword
      intro c hc
      obtain ⟨more, rfl⟩ := hpre
      apply hrest
      rw [List.head?_append, Option.mem_def.mp hc]
      rfl
  | literal hcontent =>
      -- Both quotes are in the literal, so the rest is cut as if it stood alone.
      rw [grammatical_literal_append_iff hcontent]
      simp [isAccepted_literal hcontent]
  | @alone c _ hblank hword hquote =>
      rw [isAccepted_alone hword]
      by_cases hc : c = '"'
      · subst hc
        have hsign : isSign '"' = false := by decide
        simp [hsign, not_grammatical_lone_quote (hquote rfl)]
      · apply grammatical_append_iff (by simpa using Ne.symm hc)
        intro first _
        rw [List.singleton_append, isPlain_cons_iff hword, hblank, isSign_iff_mem_signs]
        simp

/-- **Acceptance of code.** The rules accept all lexemes of a piece of code
exactly when the code is grammatical. -/
theorem forall_isAccepted_iff_grammatical (code : List Char) :
    (∀ value ∈ values code, isAccepted value) ↔ Grammatical code := by
  induction code using scan_induction with
  | nil => simp [grammatical_nil]
  | blank c rest hc ih =>
      have hgap : IsGap [c] := by simpa [IsGap] using hc
      have hquote : '"' ∉ [c] := not_mem_gap hgap isBlank_quote
      have hskip : Grammatical ([c] ++ rest) ↔ True ∧ Grammatical rest := by
        apply grammatical_append_iff hquote
        intro first _
        rw [List.singleton_append, isPlain_cons_iff (isWordChar_of_isBlank hc)]
        simp [hc]
      rw [← List.singleton_append, values_gap_append hgap, ih, hskip, true_and]
  | lexeme value rest hlex ih =>
      rw [values_lexeme hlex, List.forall_mem_cons, ih, grammatical_lexeme_append_iff hlex]

theorem exitStatus_eq_zero_iff (report : Report) : report.exitStatus = 0 ↔ report.isOk := by
  unfold Report.exitStatus
  cases report.isOk <;> simp

theorem isOk_iff_diagnostics_eq_nil (source : String) :
    (analyze source).isOk ↔ (analyze source).diagnostics = [] := by
  rw [Report.isOk, errors_analyze, List.isEmpty_iff, List.map_eq_nil_iff]

theorem tokenize_eq_ok_iff (source : String) :
    (∃ tokens, tokenize source = .ok tokens) ↔ (analyze source).isOk := by
  rw [isOk_iff_diagnostics_eq_nil]
  simp only [tokenize]
  cases (analyze source).diagnostics <;> simp

/-- **The lexer accepts its grammar.** A source has no invalid line exactly when
each piece of code that the comments leave is grammatical; the exit status and
the token list say the same. -/
theorem isOk_iff_grammatical (source : String) :
    ((analyze source).isOk ↔ ∀ piece ∈ codeLines source, Grammatical piece.2) ∧
      ((analyze source).exitStatus = 0 ↔ (analyze source).isOk) ∧
      ((∃ tokens, tokenize source = .ok tokens) ↔ (analyze source).isOk) := by
  refine ⟨?_, exitStatus_eq_zero_iff _, tokenize_eq_ok_iff source⟩
  rw [isOk_analyze_iff]
  constructor
  · intro h piece hpiece
    exact (forall_isAccepted_iff_grammatical piece.2).mp (h piece hpiece)
  · intro h piece hpiece
    exact (forall_isAccepted_iff_grammatical piece.2).mpr (h piece hpiece)

end FlowLex
