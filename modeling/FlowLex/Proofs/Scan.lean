import FlowLex.Lexeme
import FlowLex.Proofs.Text.Trim

/-!
# Cutting code into lexemes

A text is empty, or starts with a blank, or starts with a lexeme, which is a run
of word characters, a closed string literal or a character on its own. A scan
skips the blank and cuts the lexeme off. Facts about scans are proved by
`scan_induction`, which takes texts apart in the same way.
-/

namespace FlowLex

open Text

/-! ## Shapes of lexemes -/

/-- A run of word characters. -/
def IsWord (text : List Char) : Prop := text ≠ [] ∧ ∀ c ∈ text, isWordChar c

/-- No word at the end of what stands in front goes on in `rest`. -/
def EndsWord (rest : List Char) : Prop := ∀ c ∈ rest.head?, isWordChar c = false

/-- The string literal with a given content. -/
def stringLiteral (content : List Char) : List Char := '"' :: content ++ ['"']

/-- `IsLexeme value rest` says that `value` is the lexeme at the front of
`value ++ rest`. A quote is a lexeme of its own only where no other quote
closes a literal. -/
inductive IsLexeme : List Char → List Char → Prop
  | word {value rest : List Char} :
      IsWord value → EndsWord rest → IsLexeme value rest
  | literal {content rest : List Char} :
      '"' ∉ content → IsLexeme (stringLiteral content) rest
  | alone {c : Char} {rest : List Char} :
      isBlank c = false → isWordChar c = false → (c = '"' → '"' ∉ rest) →
      IsLexeme [c] rest

theorem IsLexeme.ne_nil {value rest : List Char} (h : IsLexeme value rest) :
    value ≠ [] := by
  cases h with
  | word hword _ => exact hword.1
  | literal _ => simp [stringLiteral]
  | alone _ _ _ => simp

theorem IsWord.not_mem {word : List Char} {c : Char} (hword : IsWord word)
    (hc : isWordChar c = false) : c ∉ word := by
  intro hmem
  rw [hword.2 c hmem] at hc
  exact Bool.noConfusion hc

theorem isBlank_quote : isBlank '"' = false := by decide

theorem isWordChar_quote : isWordChar '"' = false := by decide

theorem isAlpha_iff_toNat {c : Char} :
    c.isAlpha ↔ (65 ≤ c.toNat ∧ c.toNat ≤ 90) ∨ (97 ≤ c.toNat ∧ c.toNat ≤ 122) := by
  show (decide (65 ≤ c.val ∧ c.val ≤ 90) || (decide (97 ≤ c.val) && decide (c.val ≤ 122))) = true ↔
    (65 ≤ c.toNat ∧ c.toNat ≤ 90) ∨ (97 ≤ c.toNat ∧ c.toNat ≤ 122)
  rw [Bool.or_eq_true, Bool.and_eq_true, decide_eq_true_eq, decide_eq_true_eq,
    decide_eq_true_eq]
  exact Iff.rfl

theorem toNat_of_isWordChar {c : Char} (h : isWordChar c) :
    48 ≤ c.toNat ∧ c.toNat ≤ 122 := by
  simp only [isWordChar, Char.isAlphanum, Bool.or_eq_true, beq_iff_eq] at h
  rcases h with (halpha | hdigit) | rfl
  · have := isAlpha_iff_toNat.mp halpha
    omega
  · have hrange := Char.isDigit_iff_toNat.mp hdigit
    have h1 : 48 ≤ c.toNat := hrange.1
    have h2 : c.toNat ≤ 57 := hrange.2
    omega
  · decide

theorem isBlank_of_isWordChar {c : Char} (h : isWordChar c) : isBlank c = false := by
  have hrange := toNat_of_isWordChar h
  simp [isBlank, blankRanges]
  omega

theorem endsWord_nil : EndsWord [] := by simp [EndsWord]

theorem endsWord_cons {c : Char} {rest : List Char} :
    EndsWord (c :: rest) ↔ isWordChar c = false := by
  simp [EndsWord]

theorem isWordChar_of_isBlank {c : Char} (h : isBlank c) : isWordChar c = false := by
  by_contra hword
  rw [Bool.not_eq_false] at hword
  rw [isBlank_of_isWordChar hword] at h
  exact Bool.noConfusion h

theorem endsWord_gap {gap : List Char} (hgap : IsGap gap) : EndsWord gap := by
  intro c hc
  exact isWordChar_of_isBlank (hgap c (List.mem_of_mem_head? hc))

theorem EndsWord.append_gap {rest gap : List Char} (hrest : EndsWord rest)
    (hgap : IsGap gap) : EndsWord (rest ++ gap) := by
  cases rest with
  | nil => exact endsWord_gap hgap
  | cons c rest => exact endsWord_cons.mpr (endsWord_cons.mp hrest)

/-- Blanks end a word, and so does the end of the text. -/
theorem endsWord_gap_append {gap rest : List Char} (hgap : IsGap gap)
    (h : rest ≠ [] → gap ≠ []) : EndsWord (gap ++ rest) := by
  cases gap with
  | nil =>
      have hrest : rest = [] := by
        by_contra hne
        exact h hne rfl
      rw [hrest]
      exact endsWord_nil
  | cons c gap =>
      exact endsWord_cons.mpr (isWordChar_of_isBlank (hgap c List.mem_cons_self))

theorem IsLexeme.exists_cons {value behind : List Char} (h : IsLexeme value behind) :
    ∃ c tail, value = c :: tail ∧ isBlank c = false := by
  cases h with
  | word hword _ =>
      obtain ⟨c, tail, rfl⟩ := List.exists_cons_of_ne_nil hword.1
      exact ⟨c, tail, rfl, isBlank_of_isWordChar (hword.2 c List.mem_cons_self)⟩
  | literal _ => exact ⟨'"', _, rfl, isBlank_quote⟩
  | alone hblank _ _ => exact ⟨_, [], rfl, hblank⟩

/-! ## One step of a scan -/

@[simp] theorem scanFrom_nil (column : Nat) : scanFrom column [] = [] := by
  rw [scanFrom]

theorem scanFrom_blank {c : Char} (hc : isBlank c) (column : Nat) (rest : List Char) :
    scanFrom column (c :: rest) = scanFrom (column + c.utf8Size) rest := by
  rw [scanFrom, if_pos hc]

theorem scanFrom_gap_append {gap : List Char} (hgap : IsGap gap) (column : Nat)
    (rest : List Char) :
    scanFrom column (gap ++ rest) = scanFrom (column + byteSize gap) rest := by
  induction gap generalizing column with
  | nil => simp
  | cons c gap ih =>
      rw [isGap_cons] at hgap
      rw [List.cons_append, scanFrom_blank hgap.1, ih hgap.2, byteSize_cons,
        Nat.add_assoc]

theorem scanFrom_gap {gap : List Char} (hgap : IsGap gap) (column : Nat) :
    scanFrom column gap = [] := by
  rw [← List.append_nil gap, scanFrom_gap_append hgap, scanFrom_nil]

/-- The step at a character that is no blank, from the cut made there. -/
theorem scanFrom_of_splitLexeme {c : Char} {rest value behind : List Char}
    (hc : isBlank c = false) (h : splitLexeme c rest = (value, behind)) (column : Nat) :
    scanFrom column (c :: rest) =
      ⟨String.ofList value, column⟩ :: scanFrom (column + byteSize value) behind := by
  rw [scanFrom, if_neg (by simp [hc]), h]

theorem takeWhile_word_append {word rest : List Char} (hword : ∀ c ∈ word, isWordChar c)
    (hrest : EndsWord rest) : (word ++ rest).takeWhile isWordChar = word := by
  rw [List.takeWhile_append_of_pos hword]
  cases rest with
  | nil => simp
  | cons c rest => simp [endsWord_cons.mp hrest]

theorem dropWhile_word_append {word rest : List Char} (hword : ∀ c ∈ word, isWordChar c)
    (hrest : EndsWord rest) : (word ++ rest).dropWhile isWordChar = rest := by
  rw [List.dropWhile_append_of_pos hword]
  cases rest with
  | nil => simp
  | cons c rest => simp [endsWord_cons.mp hrest]

theorem splitLexeme_word {c : Char} {tail rest : List Char}
    (hword : ∀ d ∈ c :: tail, isWordChar d) (hrest : EndsWord rest) :
    splitLexeme c (tail ++ rest) = (c :: tail, rest) := by
  have hc := hword c List.mem_cons_self
  have htail : ∀ d ∈ tail, isWordChar d := fun d hd => hword d (List.mem_cons_of_mem _ hd)
  simp [splitLexeme, hc, takeWhile_word_append htail hrest,
    dropWhile_word_append htail hrest]

theorem splitLexeme_literal {content : List Char} (hcontent : '"' ∉ content)
    (rest : List Char) :
    splitLexeme '"' (content ++ '"' :: rest) = (stringLiteral content, rest) := by
  have hpos : ∀ c ∈ content, (c != '"') = true := by
    intro c hc
    rw [bne_iff_ne]
    rintro rfl
    exact hcontent hc
  simp [splitLexeme, isWordChar_quote, stringLiteral, List.takeWhile_append_of_pos hpos,
    List.dropWhile_append_of_pos hpos]

theorem splitLexeme_alone {c : Char} {rest : List Char} (hword : isWordChar c = false)
    (hquote : c = '"' → '"' ∉ rest) : splitLexeme c rest = ([c], rest) := by
  have hopen : ¬ (c = '"' ∧ '"' ∈ rest) := fun h => hquote h.1 h.2
  simp [splitLexeme, hword, hopen]

/-- A scan cuts the lexeme at the front off and goes on behind it. -/
theorem scanFrom_lexeme {value rest : List Char} (h : IsLexeme value rest)
    (column : Nat) :
    scanFrom column (value ++ rest) =
      ⟨String.ofList value, column⟩ :: scanFrom (column + byteSize value) rest := by
  cases h with
  | word hword hrest =>
      obtain ⟨c, tail, rfl⟩ := List.exists_cons_of_ne_nil hword.1
      have hblank := isBlank_of_isWordChar (hword.2 c List.mem_cons_self)
      exact scanFrom_of_splitLexeme hblank (splitLexeme_word hword.2 hrest) column
  | @literal content _ hcontent =>
      rw [show stringLiteral content ++ rest = '"' :: (content ++ '"' :: rest) from by
        simp [stringLiteral]]
      exact scanFrom_of_splitLexeme isBlank_quote (splitLexeme_literal hcontent rest) column
  | alone hblank hword hquote =>
      exact scanFrom_of_splitLexeme hblank (splitLexeme_alone hword hquote) column

/-- A text starts with one lexeme at most. -/
theorem IsLexeme.unique {value behind value' behind' : List Char} (h : IsLexeme value behind)
    (h' : IsLexeme value' behind') (heq : value ++ behind = value' ++ behind') :
    value = value' ∧ behind = behind' := by
  have hscan : scanFrom 0 (value ++ behind) = scanFrom 0 (value' ++ behind') := by rw [heq]
  rw [scanFrom_lexeme h, scanFrom_lexeme h', List.cons.injEq, Lexeme.mk.injEq] at hscan
  obtain rfl : value = value' := String.ofList_injective hscan.1.1
  exact ⟨rfl, List.append_cancel_left heq⟩

/-! ## Induction along a scan -/

theorem exists_word_append {c : Char} (hc : isWordChar c) (rest : List Char) :
    ∃ word behind, IsWord word ∧ EndsWord behind ∧ c :: rest = word ++ behind := by
  refine ⟨c :: rest.takeWhile isWordChar, rest.dropWhile isWordChar, ?_, ?_, ?_⟩
  · refine ⟨List.cons_ne_nil _ _, ?_⟩
    intro d hd
    rcases List.mem_cons.mp hd with rfl | hd
    · exact hc
    · exact List.mem_takeWhile_imp hd
  · intro d hd
    have hnot := List.head?_dropWhile_not isWordChar rest
    rw [Option.mem_def] at hd
    simpa [hd] using hnot
  · rw [List.cons_append, List.takeWhile_append_dropWhile]

theorem exists_literal_append {rest : List Char} (h : '"' ∈ rest) :
    ∃ content behind, '"' ∉ content ∧ '"' :: rest = stringLiteral content ++ behind := by
  obtain ⟨content, behind, heq, hcontent⟩ := List.eq_append_cons_of_mem h
  refine ⟨content, behind, hcontent, ?_⟩
  rw [heq]
  simp [stringLiteral]

theorem exists_lexeme_append {c : Char} (hc : isBlank c = false) (rest : List Char) :
    ∃ value behind, IsLexeme value behind ∧ c :: rest = value ++ behind := by
  by_cases hword : isWordChar c = true
  · obtain ⟨word, behind, hrun, hbehind, heq⟩ := exists_word_append hword rest
    exact ⟨word, behind, .word hrun hbehind, heq⟩
  rw [Bool.not_eq_true] at hword
  by_cases hquote : c = '"' ∧ '"' ∈ rest
  · obtain ⟨rfl, hmem⟩ := hquote
    obtain ⟨content, behind, hcontent, heq⟩ := exists_literal_append hmem
    exact ⟨stringLiteral content, behind, .literal hcontent, heq⟩
  · exact ⟨[c], rest, .alone hc hword fun heq hmem => hquote ⟨heq, hmem⟩, rfl⟩

/-- **Every text is cut into blanks and lexemes.** A fact about texts that holds
of the empty text and survives putting a blank or a lexeme in front holds of all
texts. -/
@[elab_as_elim]
theorem scan_induction {motive : List Char → Prop} (nil : motive [])
    (blank : ∀ c rest, isBlank c → motive rest → motive (c :: rest))
    (lexeme : ∀ value rest, IsLexeme value rest → motive rest → motive (value ++ rest))
    (text : List Char) : motive text := by
  induction hn : text.length using Nat.strong_induction_on generalizing text with
  | h n ih =>
      subst hn
      cases text with
      | nil => exact nil
      | cons c rest =>
          by_cases hc : isBlank c = true
          · exact blank c rest hc (ih _ (by simp) rest rfl)
          · rw [Bool.not_eq_true] at hc
            obtain ⟨value, behind, hlex, heq⟩ := exists_lexeme_append hc rest
            -- A lexeme is not empty, so less is left behind it.
            have hlt : behind.length < (c :: rest).length := by
              have := List.length_pos_iff.mpr hlex.ne_nil
              rw [heq, List.length_append]
              omega
            rw [heq]
            exact lexeme value behind hlex (ih _ hlt behind rfl)

/-! ## Lexemes between other text -/

/-- `value` is a lexeme with `front` in front of it and `behind` behind it. A word
goes on at neither end, and a quote is in no literal that starts in `front`. -/
structure IsLexemeBetween (front value behind : List Char) : Prop where
  isLexeme : IsLexeme value behind
  apart : IsWord value → ∀ c ∈ front.getLast?, isWordChar c = false
  paired : '"' ∈ value → front.count '"' % 2 = 0

theorem isLexemeBetween_first {value behind : List Char} (h : IsLexeme value behind) :
    IsLexemeBetween [] value behind :=
  ⟨h, by simp, by simp⟩

theorem IsLexemeBetween.blank_cons {front value behind : List Char} {c : Char}
    (h : IsLexemeBetween front value behind) (hc : isBlank c) :
    IsLexemeBetween (c :: front) value behind := by
  refine ⟨h.isLexeme, ?_, ?_⟩
  · intro hword d hd
    cases front with
    | nil =>
        rw [List.getLast?_singleton, Option.mem_def, Option.some.injEq] at hd
        rw [← hd]
        exact isWordChar_of_isBlank hc
    | cons e front => exact h.apart hword d (by simpa using hd)
  · intro hmem
    have hne : c ≠ '"' := by
      rintro rfl
      rw [isBlank_quote] at hc
      exact Bool.noConfusion hc
    rw [List.count_cons_of_ne hne]
    exact h.paired hmem

/-- A word that follows a lexeme directly does not go on in it. -/
theorem IsLexeme.apart_of_word_behind {first word more : List Char}
    (hfirst : IsLexeme first (word ++ more)) (hword : IsWord word) :
    ∀ c ∈ first.getLast?, isWordChar c = false := by
  intro c hc
  cases hfirst with
  | word _ hend =>
      obtain ⟨d, tail, rfl⟩ := List.exists_cons_of_ne_nil hword.1
      have hd : isWordChar d = false := hend d rfl
      exact absurd List.mem_cons_self (hword.not_mem hd)
  | literal _ =>
      simp only [stringLiteral, List.getLast?_concat, Option.mem_def, Option.some.injEq] at hc
      rw [← hc]
      exact isWordChar_quote
  | alone _ hc' _ =>
      rw [List.getLast?_singleton, Option.mem_def, Option.some.injEq] at hc
      rw [← hc]
      exact hc'

/-- The quotes of a lexeme pair up when another quote follows. -/
theorem IsLexeme.count_quote {first rest : List Char} (hfirst : IsLexeme first rest)
    (hmem : '"' ∈ rest) : first.count '"' % 2 = 0 := by
  cases hfirst with
  | word hword _ => rw [List.count_eq_zero.mpr (hword.not_mem isWordChar_quote)]
  | literal hcontent => simp [stringLiteral, List.count_eq_zero.mpr hcontent]
  | alone _ _ hquote =>
      have hne : _ ≠ '"' := fun heq => hquote heq hmem
      rw [List.count_cons_of_ne hne, List.count_nil]

theorem IsLexemeBetween.lexeme_append {first front value behind : List Char}
    (h : IsLexemeBetween front value behind)
    (hfirst : IsLexeme first (front ++ value ++ behind)) :
    IsLexemeBetween (first ++ front) value behind := by
  refine ⟨h.isLexeme, ?_, ?_⟩
  · intro hword c hc
    cases front with
    | nil =>
        rw [List.nil_append] at hfirst
        rw [List.append_nil] at hc
        exact hfirst.apart_of_word_behind hword c hc
    | cons d front => exact h.apart hword c (by simpa [List.getLast?_append] using hc)
  · intro hmem
    have hrest : '"' ∈ front ++ value ++ behind := by simp [hmem]
    have hcount := hfirst.count_quote hrest
    have hfront := h.paired hmem
    rw [List.count_append]
    omega

/-- Every lexeme of a text is found between other text. -/
theorem exists_between_of_mem_scanFrom {column : ℕ} {text : List Char} {lexeme : Lexeme}
    (h : lexeme ∈ scanFrom column text) :
    ∃ front behind, text = front ++ lexeme.value.toList ++ behind ∧
      lexeme.column = column + byteSize front ∧
      IsLexemeBetween front lexeme.value.toList behind := by
  induction text using scan_induction generalizing column with
  | nil => simp at h
  | blank c rest hc ih =>
      rw [scanFrom_blank hc] at h
      obtain ⟨front, behind, heq, hcol, hbetween⟩ := ih h
      refine ⟨c :: front, behind, by simp [heq], ?_, hbetween.blank_cons hc⟩
      rw [hcol, byteSize_cons, Nat.add_assoc]
  | lexeme value rest hlex ih =>
      rw [scanFrom_lexeme hlex, List.mem_cons] at h
      rcases h with rfl | h
      · refine ⟨[], rest, by simp, rfl, ?_⟩
        rw [String.toList_ofList]
        exact isLexemeBetween_first hlex
      · obtain ⟨front, behind, heq, hcol, hbetween⟩ := ih h
        rw [heq] at hlex
        refine ⟨value ++ front, behind, by simp [heq], ?_, hbetween.lexeme_append hlex⟩
        rw [hcol, byteSize_append, Nat.add_assoc]

/-! ## What a scan finds -/

/-- A lexeme stands in the text, as many bytes behind the start as its column
says, and is not empty. -/
theorem exists_append_of_mem_scanFrom {column : Nat} {text : List Char} {lexeme : Lexeme}
    (h : lexeme ∈ scanFrom column text) :
    ∃ front back, text = front ++ lexeme.value.toList ++ back ∧
      lexeme.column = column + byteSize front ∧ lexeme.value.toList ≠ [] := by
  obtain ⟨front, back, heq, hcol, hbetween⟩ := exists_between_of_mem_scanFrom h
  exact ⟨front, back, heq, hcol, hbetween.isLexeme.ne_nil⟩

theorem IsLexeme.append_gap {value rest gap : List Char} (h : IsLexeme value rest)
    (hgap : IsGap gap) : IsLexeme value (rest ++ gap) := by
  cases h with
  | word hword hrest => exact .word hword (hrest.append_gap hgap)
  | literal hcontent => exact .literal hcontent
  | alone hblank hword hquote =>
      refine .alone hblank hword fun hc hmem => ?_
      rcases List.mem_append.mp hmem with hrest | hgap'
      · exact hquote hc hrest
      · exact not_mem_gap hgap isBlank_quote hgap'

/-- Blanks at the end of a text hold no lexeme and change none. -/
theorem scanFrom_append_gap {gap : List Char} (hgap : IsGap gap) (column : Nat)
    (text : List Char) : scanFrom column (text ++ gap) = scanFrom column text := by
  induction text using scan_induction generalizing column with
  | nil => simp [scanFrom_gap hgap]
  | blank c rest hc ih =>
      rw [List.cons_append, scanFrom_blank hc, scanFrom_blank hc, ih]
  | lexeme value rest hlex ih =>
      rw [List.append_assoc, scanFrom_lexeme (hlex.append_gap hgap),
        scanFrom_lexeme hlex, ih]

/-- The lexemes of a text as strings. -/
def values (text : List Char) : List String := (scanFrom 0 text).map Lexeme.value

/-- The lexeme some bytes further to the right. -/
def Lexeme.moveRight (size : Nat) (lexeme : Lexeme) : Lexeme :=
  { lexeme with column := lexeme.column + size }

/-- Where a scan starts to count moves the columns only. -/
theorem scanFrom_add (column size : Nat) (text : List Char) :
    scanFrom (column + size) text = (scanFrom column text).map (Lexeme.moveRight size) := by
  induction text using scan_induction generalizing column with
  | nil => simp
  | blank c rest hc ih =>
      rw [scanFrom_blank hc, scanFrom_blank hc, Nat.add_right_comm, ih]
  | lexeme value rest hlex ih =>
      rw [scanFrom_lexeme hlex, scanFrom_lexeme hlex, Nat.add_right_comm, ih]
      rfl

theorem map_value_scanFrom (column : Nat) (text : List Char) :
    (scanFrom column text).map Lexeme.value = values text := by
  rw [← Nat.zero_add column, scanFrom_add, List.map_map]
  rfl

@[simp] theorem values_nil : values [] = [] := by simp [values]

theorem values_gap_append {gap : List Char} (hgap : IsGap gap) (text : List Char) :
    values (gap ++ text) = values text := by
  rw [values, scanFrom_gap_append hgap, map_value_scanFrom]

theorem values_lexeme {value rest : List Char} (h : IsLexeme value rest) :
    values (value ++ rest) = String.ofList value :: values rest := by
  rw [values, scanFrom_lexeme h, List.map_cons, map_value_scanFrom]

theorem values_trim (text : List Char) : values (trim text) = values text := by
  obtain ⟨front, back, hfront, hback, heq⟩ := eq_gap_append_trim_append_gap text
  conv_rhs => rw [heq, List.append_assoc, values_gap_append hfront]
  rw [values, values, scanFrom_append_gap hback]

end FlowLex
