import FlowLex.Proofs.Json.Grammar
import Mathlib.Data.List.TakeWhile
import Mathlib.Order.Basic

/-!
# Reading words, numbers and strings

A text that the grammar writes is read to its end and no further. Where a string is
needed it is read as the text with its code units, if there is one; where it is skipped
any code units will do.
-/

namespace FlowLex.Json

open Text

/-! ## White space and words -/

theorem skipGap_append {gap : List Char} (hgap : gap.all isGap) (text : List Char) :
    skipGap (gap ++ text) = skipGap text :=
  List.dropWhile_append_of_pos (List.all_eq_true.mp hgap)

theorem skipGap_cons {c : Char} (hc : isGap c = false) (text : List Char) :
    skipGap (c :: text) = c :: text := by
  simp [skipGap, hc]

theorem readWord_append (word rest : List Char) : readWord word (word ++ rest) = .ok rest := by
  induction word with
  | nil => rfl
  | cons letter word ih => simp [readWord, ih]

/-! ## Numbers -/

/-- What can stand behind a value: nothing, white space, a comma or a closing bracket. -/
def EndsValue (rest : List Char) : Prop :=
  ∀ c ∈ rest.head?, isGap c ∨ c ∈ [',', ']', '\x7d']

/-- A number does not go on with the text. -/
def EndsNumeral (rest : List Char) : Prop :=
  ∀ c ∈ rest.head?, c.isDigit = false ∧ c ≠ '.' ∧ c ≠ 'e' ∧ c ≠ 'E'

theorem EndsValue.endsNumeral {rest : List Char} (h : EndsValue rest) : EndsNumeral rest := by
  intro c hc
  rcases h c hc with hgap | hmem
  · simp only [isGap, Bool.or_eq_true, beq_iff_eq] at hgap
    rcases hgap with ((rfl | rfl) | rfl) | rfl <;> decide
  · simp only [List.mem_cons, List.not_mem_nil, or_false] at hmem
    rcases hmem with rfl | rfl | rfl <;> decide

/-- The text goes on with no digit. -/
def EndsDigits (rest : List Char) : Prop := ∀ c ∈ rest.head?, c.isDigit = false

theorem EndsNumeral.endsDigits {rest : List Char} (h : EndsNumeral rest) : EndsDigits rest :=
  fun c hc => (h c hc).1

section Digits

variable (missing : Problem) {digits rest : List Char}

theorem readDigits_append (hdigits : IsDigits digits) (hrest : EndsDigits rest) :
    readDigits missing (digits ++ rest) = .ok (digits, rest) := by
  obtain ⟨hne, hall⟩ := hdigits
  obtain ⟨c, more, rfl⟩ := List.exists_cons_of_ne_nil hne
  rw [List.forall_mem_cons] at hall
  have htake : (more ++ rest).takeWhile Char.isDigit = more := by
    rw [List.takeWhile_append_of_pos hall.2]
    cases rest with
    | nil => simp
    | cons d rest => simp [hrest d rfl]
  have hdrop : (more ++ rest).dropWhile Char.isDigit = rest := by
    rw [List.dropWhile_append_of_pos hall.2]
    cases rest with
    | nil => rfl
    | cons d rest => simp [hrest d rfl]
  rw [List.cons_append, readDigits, if_pos hall.1, htake, hdrop]

theorem readWhole_append (hdigits : Numeral.IsWhole digits) (hrest : EndsDigits rest) :
    readWhole missing (digits ++ rest) = .ok (digits, rest) := by
  obtain ⟨hdigits, hzero⟩ := hdigits
  unfold readWhole
  split
  · next c more heq =>
      -- A zero in front is the only digit, so the digit behind it would be in `rest`.
      obtain ⟨d, others, rfl⟩ := List.exists_cons_of_ne_nil hdigits.1
      rw [List.cons_append, List.cons.injEq] at heq
      obtain ⟨rfl, heq⟩ := heq
      have hothers : others = [] := (List.cons.inj (hzero rfl)).2
      subst hothers
      rw [List.nil_append] at heq
      rw [if_neg (by rw [hrest c (by rw [heq]; rfl)]; decide), heq]
  · exact readDigits_append missing hdigits hrest

theorem readFraction_append {text : List Char} (h : Numeral.IsFraction digits text)
    (hrest : EndsDigits rest) (hpoint : ∀ c ∈ rest.head?, c ≠ '.') :
    readFraction missing (text ++ rest) = .ok (digits, rest) := by
  cases h with
  | none =>
      rw [List.nil_append]
      unfold readFraction
      split
      · exact absurd rfl (hpoint '.' rfl)
      · rfl
  | some hdigits => exact readDigits_append missing hdigits hrest

theorem readSign_append {negative : Bool} {sign : List Char}
    (hsign : Numeral.IsSign negative sign) (hdigits : IsDigits digits) :
    readSign (sign ++ (digits ++ rest)) = (negative, digits ++ rest) := by
  obtain ⟨c, more, rfl⟩ := List.exists_cons_of_ne_nil hdigits.1
  have hc : c.isDigit := hdigits.2 c List.mem_cons_self
  cases hsign with
  | none =>
      rw [List.nil_append, List.cons_append]
      unfold readSign
      split
      · exact absurd hc (by simp_all)
      · exact absurd hc (by simp_all)
      · rfl
  | plus => rfl
  | minus => rfl

theorem readExponent_append {exponent : Option (Bool × List Char)} {text : List Char}
    (h : Numeral.IsExponent exponent text) (hrest : EndsNumeral rest) :
    readExponent missing (text ++ rest) = .ok (exponent, rest) := by
  cases h with
  | none =>
      rw [List.nil_append]
      cases rest with
      | nil => rfl
      | cons c rest =>
          obtain ⟨-, -, he, hE⟩ := hrest c rfl
          simp [readExponent, he, hE]
  | some hletter hsign hdigits =>
      rw [List.cons_append, List.append_assoc, readExponent]
      rw [if_pos (by simpa using hletter)]
      simp [readSign_append hsign hdigits, readDigits_append missing hdigits hrest.endsDigits,
        bind, Except.bind, pure, Except.pure]

end Digits

theorem endsDigits_append {text rest : List Char}
    (htext : ∀ c ∈ text.head?, c.isDigit = false) (hrest : EndsDigits rest) :
    EndsDigits (text ++ rest) := by
  cases text with
  | nil => exact hrest
  | cons c text => exact htext

theorem Numeral.IsExponent.head? {exponent : Option (Bool × List Char)} {text : List Char}
    (h : IsExponent exponent text) : ∀ c ∈ text.head?, c.isDigit = false ∧ c ≠ '.' := by
  cases h with
  | none => simp
  | some hletter _ _ =>
      intro c hc
      rw [List.head?_cons, Option.mem_some] at hc
      subst hc
      rcases hletter with rfl | rfl <;> decide

theorem Numeral.IsFraction.head? {digits text : List Char} (h : IsFraction digits text) :
    ∀ c ∈ text.head?, c.isDigit = false := by
  cases h with
  | none => simp
  | some _ =>
      intro c hc
      rw [List.head?_cons, Option.mem_some] at hc
      subst hc
      decide

theorem readUnsigned_append (missing : Problem) (numeral : Numeral)
    {fraction exponent rest : List Char} (hwhole : Numeral.IsWhole numeral.whole)
    (hfraction : Numeral.IsFraction numeral.fraction fraction)
    (hexponent : Numeral.IsExponent numeral.exponent exponent) (hrest : EndsNumeral rest) :
    readUnsigned missing numeral.negative (numeral.whole ++ (fraction ++ (exponent ++ rest))) =
      .ok (numeral, rest) := by
  have hend : EndsDigits (exponent ++ rest) :=
    endsDigits_append (fun c hc => (hexponent.head? c hc).1) hrest.endsDigits
  have hpoint : ∀ c ∈ (exponent ++ rest).head?, c ≠ '.' := by
    cases exponent with
    | nil => exact fun c hc => (hrest c hc).2.1
    | cons c exponent => exact fun c hc => (hexponent.head? c hc).2
  rw [readUnsigned, readWhole_append missing hwhole (endsDigits_append hfraction.head? hend)]
  simp [readFraction_append missing hfraction hend hpoint,
    readExponent_append missing hexponent hrest, bind, Except.bind, pure, Except.pure]

/-- A number is read to its end. -/
theorem readNumeral_append (missing : Problem) {numeral : Numeral} {text rest : List Char}
    (h : numeral.IsSpelled text) (hrest : EndsNumeral rest) :
    readNumeral missing (text ++ rest) = .ok (numeral, rest) := by
  cases h with
  | @mk fraction exponent hwhole hfraction hexponent =>
      have hread := readUnsigned_append missing numeral hwhole hfraction hexponent hrest
      cases hnegative : numeral.negative with
      | true =>
          rw [hnegative] at hread
          simpa [readNumeral] using hread
      | false =>
          obtain ⟨c, more, hcons⟩ := List.exists_cons_of_ne_nil hwhole.1.1
          have hc : c.isDigit := hwhole.1.2 c (by rw [hcons]; exact List.mem_cons_self)
          rw [hnegative, hcons] at hread
          rw [hcons]
          simp only [Bool.false_eq_true, if_false, List.nil_append, List.cons_append,
            List.append_assoc] at hread ⊢
          unfold readNumeral
          split
          · next heq =>
              obtain ⟨rfl, -⟩ := List.cons.inj heq
              exact absurd hc (by decide)
          · exact hread

/-! ## Strings -/

theorem readEscape_unit {a b c d : Char} {unit : ℕ} (h : hexUnit? a b c d = some unit)
    (rest : List Char) : readEscape ('u' :: a :: b :: c :: d :: rest) = .ok (unit, rest) := by
  simp [readEscape, readHexUnit, h]

theorem ne_u_of_shortEscape? {letter meant : Char} (h : shortEscape? letter = some meant) :
    letter ≠ 'u' := by
  rintro rfl
  have hnone : shortEscape? 'u' = none := by decide
  rw [hnone] at h
  cases h

theorem readEscape_short {letter meant : Char} (h : shortEscape? letter = some meant)
    (rest : List Char) : readEscape (letter :: rest) = .ok (meant.toNat, rest) := by
  unfold readEscape
  split
  · next heq => cases heq
  · next heq => exact absurd (List.cons.inj heq).1 (ne_u_of_shortEscape? h)
  · next heq =>
      obtain ⟨rfl, rfl⟩ := List.cons.inj heq
      rw [h]

/-- A string that is skipped ends at the quote behind its body. -/
theorem skipString_append {units : List ℕ} {body : List Char} (h : IsBody units body)
    (rest : List Char) : skipString (body ++ '"' :: rest) = .ok rest := by
  induction h with
  | nil => simp [skipString]
  | @plain c units body hlow hquote hslash _ ih =>
      rw [List.cons_append]
      unfold skipString
      split
      · next heq => cases heq
      · next heq => exact absurd (List.cons.inj heq).1 hquote
      · next heq => exact absurd (List.cons.inj heq).1 hslash
      · next heq =>
          obtain ⟨rfl, rfl⟩ := List.cons.inj heq
          rw [if_neg (Char.not_lt.mpr hlow), ih]
  | short hletter _ ih =>
      rw [List.cons_append, List.cons_append, skipString]
      split
      · next hread =>
          rw [readEscape_short hletter] at hread
          cases hread
      · next hread =>
          rw [readEscape_short hletter] at hread
          cases hread
          exact ih
  | unit hunit _ ih =>
      simp only [List.cons_append]
      rw [skipString]
      split
      · next hread =>
          rw [readEscape_unit hunit] at hread
          cases hread
      · next hread =>
          rw [readEscape_unit hunit] at hread
          cases hread
          exact ih

/-! ## Texts of strings -/

theorem toOption_readString_plain {c : Char} (hlow : ' ' ≤ c) (hquote : c ≠ '"')
    (hslash : c ≠ '\\') (text : List Char) :
    (readString (c :: text)).toOption =
      (readString text).toOption.map fun read => (c :: read.1, read.2) := by
  conv_lhs => unfold readString
  split
  · next heq => cases heq
  · next heq => exact absurd (List.cons.inj heq).1 hquote
  · next heq => exact absurd (List.cons.inj heq).1 hslash
  · next heq =>
      obtain ⟨rfl, rfl⟩ := List.cons.inj heq
      rw [if_neg (Char.not_lt.mpr hlow)]
      cases readString text <;> rfl

theorem toOption_readString_escape (text : List Char) :
    (readString ('\\' :: text)).toOption =
      (readEscapedChar text).toOption.bind fun found =>
        (readString found.2).toOption.map fun read => (found.1 :: read.1, read.2) := by
  rw [readString]
  split
  · next hread =>
      rw [hread]
      rfl
  · next c rest hread =>
      have hfound : (readEscapedChar text).toOption = some (c, rest) := by
        rw [hread]
        rfl
      rw [hfound, Option.bind_some]
      cases readString rest <;> rfl

/-- An escape that stands for no half of a pair is read as its character. -/
theorem readEscapedChar_single {text rest : List Char} {unit : ℕ}
    (h : readEscape text = .ok (unit, rest)) (hlead : isLeading unit = false)
    (htrail : isTrailing unit = false) :
    readEscapedChar text = .ok (Char.ofNat unit, rest) := by
  simp [readEscapedChar, h, hlead, htrail, bind, Except.bind, pure, Except.pure]

theorem readEscapedChar_trailing {text rest : List Char} {unit : ℕ}
    (h : readEscape text = .ok (unit, rest)) (htrail : isTrailing unit) :
    (readEscapedChar text).toOption = none := by
  simp [readEscapedChar, h, htrail, bind, Except.bind, throw, throwThe,
    MonadExceptOf.throw, Except.toOption]

theorem readEscapedChar_leading {text rest : List Char} {unit : ℕ}
    (h : readEscape text = .ok (unit, rest)) (hlead : isLeading unit) :
    readEscapedChar text = readTrailing unit rest := by
  have htrail : isTrailing unit = false := by
    simp only [isTrailing, isLeading, Bool.and_eq_true, decide_eq_true_eq,
      Bool.and_eq_false_iff, decide_eq_false_iff_not] at hlead ⊢
    omega
  simp [readEscapedChar, h, hlead, htrail, bind, Except.bind]

theorem readTrailing_unit {a b c d : Char} {unit : ℕ} (h : hexUnit? a b c d = some unit)
    (leading : ℕ) (rest : List Char) :
    (readTrailing leading ('\\' :: 'u' :: a :: b :: c :: d :: rest)).toOption =
      if isTrailing unit then some (pairChar leading unit, rest) else none := by
  by_cases htrail : isTrailing unit = true
  · simp [readTrailing, readHexUnit, h, htrail, bind, Except.bind, pure, Except.pure,
      Except.toOption, pairChar]
  · simp [readTrailing, readHexUnit, h, htrail, bind, Except.bind, throw, throwThe,
      MonadExceptOf.throw, Except.toOption]

theorem toOption_readTrailing_of_ne {c : Char} (hc : c ≠ '\\') (leading : ℕ)
    (rest : List Char) : (readTrailing leading (c :: rest)).toOption = none := by
  unfold readTrailing
  split
  · next heq => cases heq
  · next heq => exact absurd (List.cons.inj heq).1 hc
  · next heq => exact absurd (List.cons.inj heq).1 hc
  · next heq => exact absurd (List.cons.inj heq).1 hc
  · rfl

theorem toOption_readTrailing_short {letter : Char} (h : letter ≠ 'u') (leading : ℕ)
    (rest : List Char) : (readTrailing leading ('\\' :: letter :: rest)).toOption = none := by
  unfold readTrailing
  split
  · next heq => cases heq
  · next heq => cases heq
  · next heq =>
      simp only [List.cons.injEq] at heq
      exact absurd heq.2.1 h
  · rfl
  · rfl

/-- Behind a leading surrogate the body goes on with the escape of a trailing one, or it
makes no text. -/
theorem readTrailing_append {unit : ℕ} (hlead : isLeading unit) {units : List ℕ}
    {body : List Char} (h : IsBody units body) (rest : List Char) :
    ((readTrailing unit (body ++ '"' :: rest)).toOption = none ∧
        ofUnits? (unit :: units) = none) ∨
      ∃ next units' body', IsBody units' body' ∧ body'.length < body.length ∧
        isTrailing next ∧ units = next :: units' ∧
        (readTrailing unit (body ++ '"' :: rest)).toOption =
          some (pairChar unit next, body' ++ '"' :: rest) := by
  cases h with
  | nil => exact Or.inl ⟨toOption_readTrailing_of_ne (by decide) _ _, ofUnits?_lone hlead (by simp)⟩
  | plain _ _ hslash _ =>
      exact Or.inl ⟨toOption_readTrailing_of_ne hslash _ _,
        ofUnits?_lone hlead (isTrailing_head?_codeUnits _ _)⟩
  | short hletter _ =>
      exact Or.inl ⟨toOption_readTrailing_short (ne_u_of_shortEscape? hletter) _ _,
        ofUnits?_lone hlead (isTrailing_head?_codeUnits _ _)⟩
  | @unit a b c d next units body hnext h =>
      simp only [List.cons_append, readTrailing_unit hnext]
      by_cases htrail : isTrailing next = true
      · exact Or.inr ⟨next, units, body, h, by simp only [List.length_cons]; omega, htrail,
          rfl, if_pos htrail⟩
      · exact Or.inl ⟨if_neg htrail, ofUnits?_lone hlead (by simpa using htrail)⟩

/-- A string that is needed is read as the text with its code units; there is none when
half of a surrogate pair stands alone. -/
theorem readString_append {units : List ℕ} {body : List Char} (h : IsBody units body)
    (rest : List Char) :
    (readString (body ++ '"' :: rest)).toOption = (ofUnits? units).map (·, rest) := by
  -- A pair of escapes is read at once, so the induction is on the size of the body.
  induction hsize : body.length using Nat.strong_induction_on generalizing units body with
  | _ size ih =>
      subst hsize
      cases h with
      | nil => simp [readString, ofUnits?, Except.toOption]
      | @plain c units body hlow hquote hslash h =>
          have hrest := ih body.length (by simp) h rfl
          rw [List.cons_append, toOption_readString_plain hlow hquote hslash, hrest,
            ofUnits?_codeUnits_append, Option.map_map, Option.map_map]
          rfl
      | @short letter meant units body hletter h =>
          have hrest := ih body.length (by simp only [List.length_cons]; omega) h rfl
          have hread := readEscapedChar_single (readEscape_short hletter (body ++ '"' :: rest))
            (isLeading_toNat meant) (isTrailing_toNat meant)
          rw [List.cons_append, List.cons_append, toOption_readString_escape, hread,
            ofUnits?_codeUnits_append, Option.map_map, Char.ofNat_toNat]
          show ((readString _).toOption).map _ = _
          rw [hrest, Option.map_map]
          rfl
      | @unit a b c d unit units body hunit h =>
          have hescape := readEscape_unit hunit (body ++ '"' :: rest)
          simp only [List.cons_append, toOption_readString_escape]
          by_cases htrail : isTrailing unit = true
          · rw [readEscapedChar_trailing hescape htrail, ofUnits?_trailing htrail]
            rfl
          · rw [Bool.not_eq_true] at htrail
            by_cases hlead : isLeading unit = true
            · rw [readEscapedChar_leading hescape hlead]
              rcases readTrailing_append hlead h rest with
                ⟨hread, hnone⟩ | ⟨next, units, body', h', hlt, hnext, rfl, hread⟩
              · rw [hread, hnone]
                rfl
              · have hrest := ih body'.length (by simp; omega) h' rfl
                rw [hread, ofUnits?_pair hlead hnext, Option.bind_some, hrest, Option.map_map,
                  Option.map_map]
                simp only [Function.comp_def]
            · rw [Bool.not_eq_true] at hlead
              have hrest := ih body.length (by simp; omega) h rfl
              rw [readEscapedChar_single hescape hlead htrail, ofUnits?_single hlead htrail]
              show ((readString _).toOption).map _ = _
              rw [hrest, Option.map_map, Option.map_map]
              rfl

end FlowLex.Json
