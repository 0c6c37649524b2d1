import FlowLex.Proofs.Scan
import FlowLex.Rule

/-!
# Accepted lexemes

Which lexemes some rule accepts, told by their shape: a word unless a digit
leads it and something else follows, every string literal, and a character on
its own when it is an operator or a punctuation mark. A word that is no number
and not reserved is a name, and the rule for identifiers is the one that takes
it.
-/

namespace FlowLex

open Text

/-- Some rule accepts the lexeme. -/
def isAccepted (value : String) : Bool := Rule.all.any (·.accepts value)

/-- The shape of an identifier, and not reserved. -/
def isName (value : String) : Bool :=
  Rule.isIdentifier value.toList && (reserved? value).isNone

/-- A word of digits, or one that starts with no digit. -/
def IsProperWord (word : List Char) : Prop :=
  (∀ c ∈ word, c.isDigit) ∨ ∀ c ∈ word.head?, c.isDigit = false

/-- The characters of operators and punctuation marks. -/
def isSign (c : Char) : Bool :=
  Rule.operators.contains c || Rule.punctuationMarks.contains c

theorem isAccepted_iff {value : String} :
    isAccepted value ↔ ∃ rule : Rule, rule.accepts value := by
  rw [isAccepted, List.any_eq_true]
  constructor
  · rintro ⟨rule, -, h⟩
    exact ⟨rule, h⟩
  · rintro ⟨rule, h⟩
    exact ⟨rule, by cases rule <;> simp [Rule.all], h⟩

/-! ## The rules by shape -/

/-- A sign separates words, is no blank and opens no literal. -/
theorem isSign_apart {c : Char} (h : isSign c) :
    isWordChar c = false ∧ isBlank c = false ∧ c ≠ '"' := by
  have hmem : c ∈ Rule.operators ++ Rule.punctuationMarks := by simpa [isSign] using h
  have hall : (Rule.operators ++ Rule.punctuationMarks).all
      fun c => !isWordChar c && !isBlank c && c != '"' := by decide
  simpa [and_assoc] using List.all_eq_true.mp hall c hmem

theorem isDigit_of_isAlpha {c : Char} (h : c.isAlpha) : c.isDigit = false := by
  by_contra hdigit
  rw [Bool.not_eq_false] at hdigit
  have hhigh := isAlpha_iff_toNat.mp h
  have hlow : c.toNat ≤ 57 := (Char.isDigit_iff_toNat.mp hdigit).2
  omega

/-- A word character that is no digit can lead an identifier, and no other
character can. -/
theorem leads_iff {c : Char} :
    (c.isAlpha || c == '_') = true ↔ isWordChar c ∧ c.isDigit = false := by
  constructor
  · intro h
    refine ⟨?_, ?_⟩
    · simp only [isWordChar, Char.isAlphanum, Bool.or_eq_true] at h ⊢
      tauto
    · rcases Bool.or_eq_true .. |>.mp h with halpha | hunder
      · exact isDigit_of_isAlpha halpha
      · rw [beq_iff_eq] at hunder
        rw [hunder]
        decide
  · rintro ⟨hword, hdigit⟩
    simpa [isWordChar, Char.isAlphanum, hdigit] using hword

theorem isIdentifier_iff {text : List Char} :
    Rule.isIdentifier text ↔ IsWord text ∧ ∀ c ∈ text.head?, c.isDigit = false := by
  cases text with
  | nil => simp [Rule.isIdentifier, IsWord]
  | cons c rest =>
      rw [Rule.isIdentifier, Bool.and_eq_true, leads_iff, List.all_eq_true]
      simp only [IsWord, List.mem_cons, forall_eq_or_imp, List.head?_cons, Option.mem_def,
        Option.some.injEq, forall_eq', ne_eq, reduceCtorEq, not_false_eq_true, true_and]
      tauto

theorem isWordChar_of_isDigit {c : Char} (h : c.isDigit) : isWordChar c := by
  simp [isWordChar, Char.isAlphanum, h]

theorem isNumber_iff {text : List Char} :
    Rule.isNumber text ↔ IsWord text ∧ ∀ c ∈ text, c.isDigit := by
  simp only [Rule.isNumber, IsWord, Bool.and_eq_true, Bool.not_eq_true',
    List.isEmpty_eq_false_iff, List.all_eq_true]
  constructor
  · rintro ⟨hne, hdigits⟩
    exact ⟨⟨hne, fun c hc => isWordChar_of_isDigit (hdigits c hc)⟩, hdigits⟩
  · rintro ⟨⟨hne, -⟩, hdigits⟩
    exact ⟨hne, hdigits⟩

theorem isString_iff {text : List Char} :
    Rule.isString text ↔ ∃ content, '"' ∉ content ∧ text = stringLiteral content := by
  constructor
  · intro h
    unfold Rule.isString at h
    split at h
    · next rest =>
        rw [beq_iff_eq] at h
        refine ⟨rest.takeWhile (· != '"'), ?_, ?_⟩
        · intro hmem
          simpa using List.mem_takeWhile_imp hmem
        · rw [stringLiteral, List.cons_append, ← h, List.takeWhile_append_dropWhile]
    · exact Bool.noConfusion h
  · rintro ⟨content, hcontent, rfl⟩
    have hpos : ∀ c ∈ content, (c != '"') = true := by
      intro c hc
      rw [bne_iff_ne]
      rintro rfl
      exact hcontent hc
    simp [Rule.isString, stringLiteral, List.dropWhile_append_of_pos hpos]

theorem isOneOf_iff {marks text : List Char} :
    Rule.isOneOf marks text ↔ ∃ c ∈ marks, text = [c] := by
  unfold Rule.isOneOf
  split
  · next c => simp
  · next hne =>
      simp only [Bool.false_eq_true, false_iff, not_exists, not_and]
      intro c _
      exact hne c

theorem isIdentifier_of_reserved {value : String} (h : (reserved? value).isSome) :
    Rule.isIdentifier value.toList := by
  have hall : ∀ entry ∈ reservedWords, Rule.isIdentifier entry.1.toList := by decide
  obtain ⟨category, hcat⟩ := Option.isSome_iff_exists.mp h
  obtain ⟨front, back, heq, -⟩ := List.lookup_eq_some_iff.mp hcat
  exact hall (value, category) (by rw [heq]; simp)

/-! ## Rules exclude each other -/

/-- The rule that can accept a lexeme with this first character, reserved words
aside. -/
def Rule.ofLead? (c : Char) : Option Rule :=
  if c = '"' then some .string
  else if c.isDigit then some .number
  else if isWordChar c then some .identifier
  else if operators.contains c then some .operator
  else if punctuationMarks.contains c then some .punctuation
  else none

/-- The first character of a lexeme points to the rule that accepts it. -/
theorem ofLead?_of_accepts {rule : Rule} {value : String} (hrule : rule ≠ .reserved)
    (h : rule.accepts value) :
    ∃ c rest, value.toList = c :: rest ∧ Rule.ofLead? c = some rule := by
  have hquote : ∀ {c}, isWordChar c → c ≠ '"' := by
    rintro c hc rfl
    rw [isWordChar_quote] at hc
    exact Bool.noConfusion hc
  cases rule with
  | reserved => exact absurd rfl hrule
  | number =>
      obtain ⟨⟨hne, hword⟩, hdigits⟩ := isNumber_iff.mp h
      obtain ⟨c, rest, heq⟩ := List.exists_cons_of_ne_nil hne
      have hc : c ∈ value.toList := by simp [heq]
      exact ⟨c, rest, heq, by simp [Rule.ofLead?, hquote (hword c hc), hdigits c hc]⟩
  | string =>
      obtain ⟨content, -, heq⟩ := isString_iff.mp h
      exact ⟨'"', content ++ ['"'], heq, by simp [Rule.ofLead?]⟩
  | identifier =>
      obtain ⟨⟨hne, hword⟩, hlead⟩ := isIdentifier_iff.mp h
      obtain ⟨c, rest, heq⟩ := List.exists_cons_of_ne_nil hne
      have hc := hword c (by simp [heq])
      have hdigit : c.isDigit = false := hlead c (by simp [heq])
      exact ⟨c, rest, heq, by simp [Rule.ofLead?, hquote hc, hdigit, hc]⟩
  | operator =>
      obtain ⟨c, hc, heq⟩ := isOneOf_iff.mp h
      have hall : Rule.operators.all (Rule.ofLead? · == some .operator) := by decide
      exact ⟨c, [], heq, by simpa using List.all_eq_true.mp hall c hc⟩
  | punctuation =>
      obtain ⟨c, hc, heq⟩ := isOneOf_iff.mp h
      have hall : Rule.punctuationMarks.all (Rule.ofLead? · == some .punctuation) := by decide
      exact ⟨c, [], heq, by simpa using List.all_eq_true.mp hall c hc⟩

/-- Reserved words aside, at most one rule accepts a lexeme. -/
theorem Rule.eq_of_accepts {a b : Rule} {value : String} (ha : a ≠ .reserved)
    (hb : b ≠ .reserved) (hacca : a.accepts value) (haccb : b.accepts value) : a = b := by
  obtain ⟨c, rest, heqa, hleada⟩ := ofLead?_of_accepts ha hacca
  obtain ⟨d, tail, heqb, hleadb⟩ := ofLead?_of_accepts hb haccb
  obtain ⟨rfl, -⟩ := List.cons.inj (heqa.symm.trans heqb)
  exact Option.some.inj (hleada.symm.trans hleadb)

/-- A reserved word is an identifier by its shape and nothing else. -/
theorem accepts_iff_of_reserved {value : String} (h : Rule.accepts .reserved value)
    (rule : Rule) : rule.accepts value ↔ rule = .reserved ∨ rule = .identifier := by
  have hid : Rule.accepts .identifier value := isIdentifier_of_reserved h
  constructor
  · intro hacc
    by_cases hrule : rule = .reserved
    · exact Or.inl hrule
    · exact Or.inr (Rule.eq_of_accepts hrule (by decide) hacc hid)
  · rintro (rfl | rfl)
    · exact h
    · exact hid

/-- In any order, the rule that accepts a lexeme that is no reserved word is the
first to do so. -/
theorem find?_accepts_of_not_reserved {rules : List Rule} {rule : Rule} {value : String}
    (hres : Rule.accepts .reserved value = false) (hmem : rule ∈ rules)
    (hacc : rule.accepts value) : rules.find? (·.accepts value) = some rule := by
  have hnot : ∀ other : Rule, other.accepts value → other ≠ .reserved := by
    rintro other hother rfl
    rw [hres] at hother
    exact Bool.noConfusion hother
  have hsome : (rules.find? (·.accepts value)).isSome :=
    List.find?_isSome.mpr ⟨rule, hmem, hacc⟩
  obtain ⟨found, hfind⟩ := Option.isSome_iff_exists.mp hsome
  have hfound : found.accepts value :=
    List.find?_some (p := fun rule : Rule => rule.accepts value) hfind
  rw [hfind, Rule.eq_of_accepts (hnot found hfound) (hnot rule hacc) hfound hacc]

/-- **Acceptance by shape.** -/
theorem isAccepted_iff_shape {value : String} :
    isAccepted value ↔
      (IsWord value.toList ∧ IsProperWord value.toList) ∨
      (∃ content, '"' ∉ content ∧ value.toList = stringLiteral content) ∨
      (∃ c, isSign c ∧ value.toList = [c]) := by
  rw [isAccepted_iff]
  constructor
  · rintro ⟨rule, h⟩
    cases rule with
    | reserved =>
        have hid := isIdentifier_iff.mp (isIdentifier_of_reserved h)
        exact Or.inl ⟨hid.1, Or.inr hid.2⟩
    | number =>
        have hnum := isNumber_iff.mp h
        exact Or.inl ⟨hnum.1, Or.inl hnum.2⟩
    | string => exact Or.inr (Or.inl (isString_iff.mp h))
    | identifier =>
        have hid := isIdentifier_iff.mp h
        exact Or.inl ⟨hid.1, Or.inr hid.2⟩
    | operator =>
        obtain ⟨c, hc, heq⟩ := isOneOf_iff.mp h
        exact Or.inr (Or.inr ⟨c, by simp [isSign, hc], heq⟩)
    | punctuation =>
        obtain ⟨c, hc, heq⟩ := isOneOf_iff.mp h
        exact Or.inr (Or.inr ⟨c, by simp [isSign, hc], heq⟩)
  · rintro (⟨hword, hdigits | hlead⟩ | hstring | ⟨c, hc, heq⟩)
    · exact ⟨.number, isNumber_iff.mpr ⟨hword, hdigits⟩⟩
    · exact ⟨.identifier, isIdentifier_iff.mpr ⟨hword, hlead⟩⟩
    · exact ⟨.string, isString_iff.mpr hstring⟩
    · rw [isSign, Bool.or_eq_true, List.contains_iff_mem, List.contains_iff_mem] at hc
      rcases hc with hop | hmark
      · exact ⟨.operator, isOneOf_iff.mpr ⟨c, hop, heq⟩⟩
      · exact ⟨.punctuation, isOneOf_iff.mpr ⟨c, hmark, heq⟩⟩

/-! ## Acceptance of what a scan cuts off -/

theorem isAccepted_word {word : List Char} (hword : IsWord word) :
    isAccepted (String.ofList word) ↔ IsProperWord word := by
  rw [isAccepted_iff_shape, String.toList_ofList]
  constructor
  · rintro (⟨-, hproper⟩ | ⟨content, -, rfl⟩ | ⟨c, hc, rfl⟩)
    · exact hproper
    · exact absurd List.mem_cons_self (hword.not_mem isWordChar_quote)
    · exact absurd List.mem_cons_self (hword.not_mem (isSign_apart hc).1)
  · intro hproper
    exact Or.inl ⟨hword, hproper⟩

theorem isAccepted_literal {content : List Char} (hcontent : '"' ∉ content) :
    isAccepted (String.ofList (stringLiteral content)) := by
  rw [isAccepted_iff_shape, String.toList_ofList]
  exact Or.inr (Or.inl ⟨content, hcontent, rfl⟩)

theorem isAccepted_alone {c : Char} (hc : isWordChar c = false) :
    isAccepted (String.ofList [c]) ↔ isSign c := by
  rw [isAccepted_iff_shape, String.toList_ofList]
  constructor
  · rintro (⟨hword, -⟩ | ⟨content, -, heq⟩ | ⟨d, hd, heq⟩)
    · exact absurd List.mem_cons_self (hword.not_mem hc)
    · simp [stringLiteral] at heq
    · rw [List.singleton_inj] at heq
      rw [heq]
      exact hd
  · intro hsign
    exact Or.inr (Or.inr ⟨c, hsign, rfl⟩)

theorem isAccepted_of_isName {value : String} (h : isName value) : isAccepted value := by
  rw [isName, Bool.and_eq_true] at h
  exact isAccepted_iff.mpr ⟨.identifier, h.1⟩

end FlowLex
