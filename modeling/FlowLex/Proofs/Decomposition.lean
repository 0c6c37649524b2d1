import FlowLex.Proofs.Grammar
import FlowLex.Scanner

/-!
# The decomposition of a text into lexemes

Lexemes are told apart by what stands in the text, without going through it: each
stands at its column and has one of four shapes, they do not overlap, and what
lies outside of them is blank. A text has one such list of lexemes, and a scanner
finds it, whatever it has been used for before.
-/

namespace FlowLex

open Text

/-! ## What a decomposition is -/

/-- The byte offset at which a lexeme ends. -/
def Lexeme.stop (lexeme : Lexeme) : ℕ := lexeme.column + byteSize lexeme.value.toList

theorem stop_ofList (value : List Char) (column : ℕ) :
    (⟨String.ofList value, column⟩ : Lexeme).stop = column + byteSize value := by
  rw [Lexeme.stop, String.toList_ofList]

/-- What a lexeme can be when `behind` is the text that follows it. -/
inductive HasShape : List Char → List Char → Prop
  /-- Word characters, as many as there are. -/
  | word {value behind : List Char} :
      IsWord value → (∀ c ∈ behind.head?, isWordChar c = false) → HasShape value behind
  /-- A text in quotes that holds no quote. -/
  | literal {content behind : List Char} :
      '"' ∉ content → HasShape (stringLiteral content) behind
  /-- An operator or a punctuation mark. -/
  | sign {c : Char} {behind : List Char} : c ∈ signs → HasShape [c] behind
  /-- Any other character that is no blank. A quote is one of them where no other
  quote follows. -/
  | stray {c : Char} {behind : List Char} :
      isBlank c = false → isWordChar c = false → c ∉ signs → (c = '"' → '"' ∉ behind) →
      HasShape [c] behind

/-- The lexemes are a decomposition of a text that starts at byte `start`. -/
structure Decomposes (start : ℕ) (text : List Char) (lexemes : List Lexeme) : Prop where
  /-- Every lexeme stands at its column. -/
  stands : ∀ lexeme ∈ lexemes, ∃ front behind,
    text = front ++ lexeme.value.toList ++ behind ∧
      lexeme.column = start + byteSize front ∧ HasShape lexeme.value.toList behind
  /-- Every lexeme ends before the next ones start. -/
  ordered : lexemes.Pairwise fun a b => a.stop ≤ b.column
  /-- A character in front of, between or behind the lexemes is blank. -/
  blank_outside : ∀ (front : List Char) (c : Char) (behind : List Char),
    text = front ++ c :: behind →
    (∀ lexeme ∈ lexemes,
      start + byteSize front < lexeme.column ∨ lexeme.stop ≤ start + byteSize front) →
    isBlank c

/-! ## Lexemes at the front of a text -/

/-- Signs and strays are the characters that are lexemes on their own. -/
theorem hasShape_iff_isLexeme {value behind : List Char} :
    HasShape value behind ↔ IsLexeme value behind := by
  constructor
  · intro h
    cases h with
    | word hword hbehind => exact .word hword hbehind
    | literal hcontent => exact .literal hcontent
    | sign hc =>
        obtain ⟨hword, hblank, hquote⟩ := isSign_apart (isSign_iff_mem_signs.mpr hc)
        exact .alone hblank hword fun heq => absurd heq hquote
    | stray hblank hword _ hquote => exact .alone hblank hword hquote
  · intro h
    cases h with
    | word hword hbehind => exact .word hword hbehind
    | literal hcontent => exact .literal hcontent
    | @alone c _ hblank hword hquote =>
        by_cases hsign : c ∈ signs
        · exact .sign hsign
        · exact .stray hblank hword hsign hquote

/-! ## Offsets -/

theorem byteSize_pos {text : List Char} (h : text ≠ []) : 0 < byteSize text := by
  obtain ⟨c, tail, rfl⟩ := List.exists_cons_of_ne_nil h
  have := c.utf8Size_pos
  rw [byteSize_cons]
  omega

theorem byteSize_eq_zero_iff {text : List Char} : byteSize text = 0 ↔ text = [] := by
  constructor
  · intro h
    by_contra hne
    have := byteSize_pos hne
    omega
  · rintro rfl
    rfl

/-- Of two texts at the front of a third the one with more bytes goes on from the
other. -/
theorem exists_append_of_byteSize_le {front back front' back' : List Char}
    (heq : front ++ back = front' ++ back') (hle : byteSize front ≤ byteSize front') :
    ∃ more, front' = front ++ more ∧ back = more ++ back' := by
  rcases List.append_eq_append_iff.mp heq with ⟨more, hfront, hback⟩ | ⟨more, hfront, hback⟩
  · exact ⟨more, hfront, hback⟩
  · -- The other way round nothing can be left over.
    have hsize := congrArg byteSize hfront
    rw [byteSize_append] at hsize
    obtain rfl : more = [] := byteSize_eq_zero_iff.mp (by omega)
    exact ⟨[], by simpa using hfront.symm, by simpa using hback.symm⟩

/-! ## One step -/

theorem decomposes_nil_iff {start : ℕ} {lexemes : List Lexeme} :
    Decomposes start [] lexemes ↔ lexemes = [] := by
  constructor
  · intro h
    rw [List.eq_nil_iff_forall_not_mem]
    intro lexeme hmem
    obtain ⟨front, behind, heq, -, hshape⟩ := h.stands lexeme hmem
    rw [eq_comm, List.append_eq_nil_iff, List.append_eq_nil_iff] at heq
    exact (hasShape_iff_isLexeme.mp hshape).ne_nil heq.1.2
  · rintro rfl
    exact ⟨by simp, List.Pairwise.nil, by simp⟩

theorem decomposes_blank_iff {start : ℕ} {c : Char} (hc : isBlank c) {rest : List Char}
    {lexemes : List Lexeme} :
    Decomposes start (c :: rest) lexemes ↔ Decomposes (start + c.utf8Size) rest lexemes := by
  constructor
  · intro h
    refine ⟨?_, h.ordered, ?_⟩
    · intro lexeme hmem
      obtain ⟨front, behind, heq, hcol, hshape⟩ := h.stands lexeme hmem
      cases front with
      | nil =>
          -- A lexeme at the front would start with the blank.
          obtain ⟨d, tail, hvalue, hd⟩ := (hasShape_iff_isLexeme.mp hshape).exists_cons
          rw [List.nil_append, hvalue, List.cons_append, List.cons.injEq] at heq
          rw [heq.1, hd] at hc
          exact Bool.noConfusion hc
      | cons d front =>
          rw [List.cons_append, List.cons_append, List.cons.injEq] at heq
          obtain ⟨rfl, hrest⟩ := heq
          refine ⟨front, behind, hrest, ?_, hshape⟩
          rw [hcol, byteSize_cons, Nat.add_assoc]
    · intro front d behind heq hout
      apply h.blank_outside (c :: front) d behind (by rw [heq, List.cons_append])
      simpa [Nat.add_assoc] using hout
  · intro h
    refine ⟨?_, h.ordered, ?_⟩
    · intro lexeme hmem
      obtain ⟨front, behind, heq, hcol, hshape⟩ := h.stands lexeme hmem
      refine ⟨c :: front, behind, by rw [heq]; rfl, ?_, hshape⟩
      rw [hcol, byteSize_cons, Nat.add_assoc]
    · intro front d behind heq hout
      cases front with
      | nil =>
          obtain ⟨rfl, -⟩ := List.cons.inj heq
          exact hc
      | cons e front =>
          rw [List.cons_append, List.cons.injEq] at heq
          obtain ⟨rfl, hrest⟩ := heq
          apply h.blank_outside front d behind hrest
          simpa [Nat.add_assoc] using hout

/-- The first lexeme of a decomposition is the one at the front of the text. -/
theorem Decomposes.exists_cons {start : ℕ} {value rest : List Char} {lexemes : List Lexeme}
    (h : Decomposes start (value ++ rest) lexemes) (hlex : IsLexeme value rest) :
    ∃ more, lexemes = ⟨String.ofList value, start⟩ :: more := by
  obtain ⟨c, tail, rfl, hc⟩ := hlex.exists_cons
  -- The first character is no blank, so it cannot lie outside.
  have hinside : ¬ ∀ lexeme ∈ lexemes, start + byteSize [] < lexeme.column ∨
      lexeme.stop ≤ start + byteSize [] := by
    intro hout
    rw [h.blank_outside [] c (tail ++ rest) rfl hout] at hc
    exact Bool.noConfusion hc
  cases lexemes with
  | nil => exact absurd (by simp) hinside
  | cons first more =>
      obtain ⟨front, behind, heq, hcol, hshape⟩ := h.stands first List.mem_cons_self
      have hfirst := hasShape_iff_isLexeme.mp hshape
      have hsize := byteSize_pos hfirst.ne_nil
      obtain ⟨hbefore, -⟩ := List.pairwise_cons.mp h.ordered
      have hstart : first.column = start := by
        by_contra hne
        apply hinside
        intro lexeme hmem
        left
        rcases List.mem_cons.mp hmem with rfl | hmem
        · rw [byteSize_nil]
          omega
        · have hlater : first.column + byteSize first.value.toList ≤ lexeme.column :=
            hbefore lexeme hmem
          rw [byteSize_nil]
          omega
      obtain rfl : front = [] := byteSize_eq_zero_iff.mp (by omega)
      obtain ⟨hvalue, -⟩ := hlex.unique hfirst (by rw [heq, List.nil_append])
      refine ⟨more, ?_⟩
      rw [hvalue, String.ofList_toList, ← hstart]

/-- What is left of a decomposition decomposes what is left of the text. -/
theorem Decomposes.behind_first {start : ℕ} {value rest : List Char} {more : List Lexeme}
    (h : Decomposes start (value ++ rest) (⟨String.ofList value, start⟩ :: more)) :
    Decomposes (start + byteSize value) rest more := by
  obtain ⟨hbefore, hordered⟩ := List.pairwise_cons.mp h.ordered
  simp only [stop_ofList] at hbefore
  refine ⟨?_, hordered, ?_⟩
  · intro lexeme hmem
    obtain ⟨front, behind, heq, hcol, hshape⟩ := h.stands lexeme (List.mem_cons_of_mem _ hmem)
    have hlater := hbefore lexeme hmem
    rw [List.append_assoc] at heq
    obtain ⟨inner, rfl, hrest⟩ := exists_append_of_byteSize_le heq (by omega)
    refine ⟨inner, behind, by rw [hrest, List.append_assoc], ?_, hshape⟩
    rw [hcol, byteSize_append, Nat.add_assoc]
  · intro front c behind heq hout
    apply h.blank_outside (value ++ front) c behind (by rw [heq, List.append_assoc])
    rw [List.forall_mem_cons, byteSize_append, ← Nat.add_assoc, stop_ofList]
    exact ⟨Or.inr (Nat.le_add_right _ _), hout⟩

/-- A lexeme in front of a text comes first in the decomposition of the whole. -/
theorem Decomposes.lexeme_append {start : ℕ} {value rest : List Char} {more : List Lexeme}
    (h : Decomposes (start + byteSize value) rest more) (hlex : IsLexeme value rest) :
    Decomposes start (value ++ rest) (⟨String.ofList value, start⟩ :: more) := by
  refine ⟨?_, ?_, ?_⟩
  · rw [List.forall_mem_cons]
    refine ⟨⟨[], rest, by simp, rfl, ?_⟩, ?_⟩
    · rw [String.toList_ofList]
      exact hasShape_iff_isLexeme.mpr hlex
    · intro lexeme hmem
      obtain ⟨front, behind, heq, hcol, hshape⟩ := h.stands lexeme hmem
      refine ⟨value ++ front, behind, by simp [heq], ?_, hshape⟩
      rw [hcol, byteSize_append, Nat.add_assoc]
  · refine List.pairwise_cons.mpr ⟨?_, h.ordered⟩
    intro lexeme hmem
    obtain ⟨front, behind, -, hcol, -⟩ := h.stands lexeme hmem
    rw [stop_ofList, hcol]
    exact Nat.le_add_right _ _
  · intro front c behind heq hout
    rw [List.forall_mem_cons, stop_ofList] at hout
    -- A place outside of the first lexeme is a place behind it.
    have hbehind : byteSize value ≤ byteSize front := by
      rcases hout.1 with hlt | hle
      · exact absurd hlt (Nat.not_lt.mpr (Nat.le_add_right _ _))
      · exact Nat.le_of_add_le_add_left hle
    obtain ⟨inner, rfl, hrest⟩ := exists_append_of_byteSize_le heq hbehind
    apply h.blank_outside inner c behind hrest
    simpa [Nat.add_assoc] using hout.2

theorem decomposes_lexeme_iff {start : ℕ} {value rest : List Char} (hlex : IsLexeme value rest)
    {lexemes : List Lexeme} :
    Decomposes start (value ++ rest) lexemes ↔
      ∃ more, lexemes = ⟨String.ofList value, start⟩ :: more ∧
        Decomposes (start + byteSize value) rest more := by
  constructor
  · intro h
    obtain ⟨more, rfl⟩ := h.exists_cons hlex
    exact ⟨more, rfl, h.behind_first⟩
  · rintro ⟨more, rfl, h⟩
    exact h.lexeme_append hlex

/-! ## The whole text -/

/-- A scan finds the decomposition, and there is no other. -/
theorem decomposes_iff_eq_scanFrom {start : ℕ} {text : List Char} {lexemes : List Lexeme} :
    Decomposes start text lexemes ↔ lexemes = scanFrom start text := by
  induction text using scan_induction generalizing start lexemes with
  | nil => rw [decomposes_nil_iff, scanFrom_nil]
  | blank c rest hc ih => rw [decomposes_blank_iff hc, ih, scanFrom_blank hc]
  | lexeme value rest hlex ih =>
      rw [decomposes_lexeme_iff hlex, scanFrom_lexeme hlex]
      simp only [ih]
      constructor
      · rintro ⟨more, rfl, rfl⟩
        rfl
      · intro h
        exact ⟨_, h, rfl⟩

/-- **A scanner finds the decomposition of a line.** Whatever the scanner holds and
wherever it stands, its lexemes decompose the line, and no other list does. -/
theorem decomposes_iff_eq_scanLine (scanner : Scanner) (line : List Char)
    (lexemes : List Lexeme) :
    Decomposes 0 line lexemes ↔ lexemes = (scanner.scanLine line).1 := by
  rw [Scanner.lexemes_scanLine, decomposes_iff_eq_scanFrom]

end FlowLex
