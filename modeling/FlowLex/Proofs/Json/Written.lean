import FlowLex.Json
import FlowLex.Proofs.Json.Unambiguous
import Mathlib.Data.List.Forall2

/-!
# Documents that are written

The text of a document follows the grammar, whatever characters its strings hold, and
says what the document says: lists and objects without parts are no exception, and
numbers have no zeros in front.
-/

namespace FlowLex.Json

open Text

/-! ## What a document says -/

mutual

/-- What the text of a document says. -/
def value : Json → Value
  | .number n => .number { whole := n.repr.toList }
  | .string text => .string (utf16 text.toList)
  | .list elements => .list (values elements)
  | .object members => .object (memberValues members)

def values : List Json → List Value
  | [] => []
  | document :: rest => document.value :: values rest

def memberValues : List (String × Json) → List Member
  | [] => []
  | (key, document) :: rest => (utf16 key.toList, document.value) :: memberValues rest

end

theorem values_eq_map (elements : List Json) : values elements = elements.map value := by
  induction elements with
  | nil => simp [values]
  | cons document rest ih => simp [values, ih]

/-! ## Numbers -/

theorem head?_toDigits {n : ℕ} (h : (Nat.toDigits 10 n).head? = some '0') : n = 0 := by
  induction n using Nat.strong_induction_on with
  | _ n ih =>
      by_cases hn : n < 10
      · rw [Nat.toDigits_of_lt_base hn, List.head?_cons, Option.some.injEq] at h
        exact Nat.digitChar_eq_zero.mp h
      · -- The first digits are those of the tenth part, which is no zero.
        rw [Nat.toDigits_of_base_le (by decide) (by omega),
          List.head?_append_of_ne_nil _ Nat.toDigits_ne_nil] at h
        have htenth := ih (n / 10) (by omega) h
        omega

theorem isWhole_repr (n : ℕ) : Numeral.IsWhole n.repr.toList := by
  rw [Nat.toList_repr]
  refine ⟨⟨Nat.toDigits_ne_nil, ?_⟩, ?_⟩
  · exact fun c hc => Nat.isDigit_of_mem_toDigits (by decide) (by decide) hc
  · intro hhead
    rw [head?_toDigits hhead, Nat.toDigits_zero]

theorem isSpelled_repr (n : ℕ) :
    Value.IsSpelled (.number { whole := n.repr.toList }) n.repr.toList := by
  have h : Numeral.IsSpelled { whole := n.repr.toList } ([] ++ (n.repr.toList ++ ([] ++ []))) :=
    .mk (isWhole_repr n) .none .none
  rw [List.nil_append, List.nil_append, List.append_nil] at h
  exact .number h

/-! ## Strings -/

theorem hexUnit?_digitChar : ∀ n < 0x20,
    hexUnit? '0' '0' (Nat.digitChar (n / 16)) (Nat.digitChar (n % 16)) = some n := by
  decide

/-- Every character is written so that it is read back. -/
theorem isBody_escapeChar (c : Char) {units : List ℕ} {body : List Char}
    (h : IsBody units body) : IsBody (codeUnits c ++ units) (escapeChar c ++ body) := by
  unfold escapeChar
  split
  · exact .short (by decide) h
  · exact .short (by decide) h
  · exact .short (by decide) h
  · exact .short (by decide) h
  · exact .short (by decide) h
  · exact .short (by decide) h
  · exact .short (by decide) h
  · next hquote hslash _ _ _ _ _ =>
      split
      · next hlow =>
          rw [codeUnits_of_lt (by omega)]
          exact .unit (hexUnit?_digitChar c.toNat hlow) h
      · next hlow =>
          have hle : ' ' ≤ c := by
            rw [Char.le_def, UInt32.le_iff_toNat_le]
            exact Nat.le_of_not_lt hlow
          exact .plain hle hquote hslash h

theorem isBody_escaped (text : List Char) : IsBody (utf16 text) (text.flatMap escapeChar) := by
  induction text with
  | nil => exact .nil
  | cons c text ih => exact isBody_escapeChar c ih

theorem isSpelled_stringText (text : String) :
    Value.IsSpelled (.string (utf16 text.toList)) (stringText text) :=
  .string (isBody_escaped text.toList)

/-! ## Lists and objects -/

theorem isGap_newLine (level : ℕ) : (newLine level).all isGap := by
  simp [newLine, isGap]

section Parts

variable {α : Type} {IsPart : α → List Char → Prop}

/-- The parts on their lines, from the first on. -/
theorem separated_lines {a : α} {text : List Char} {parts : List α} {texts : List (List Char)}
    (level : ℕ) (h : IsPart a text) (hparts : List.Forall₂ IsPart parts texts) :
    Separated IsPart (a :: parts)
      (newLine (level + 1) ++ (text ++
        (texts.flatMap (fun part => ',' :: newLine (level + 1) ++ part) ++ newLine level))) := by
  induction hparts generalizing a text with
  | nil => exact .last (isGap_newLine _) h (isGap_newLine _)
  | cons hb _ ih =>
      have hrest := Separated.cons (isGap_newLine (level + 1)) h List.all_nil (ih hb)
      simpa using hrest

theorem enclosed_enclose (first last : Char) (level : ℕ) {parts : List α}
    {texts : List (List Char)} (h : List.Forall₂ IsPart parts texts) :
    Enclosed IsPart first last parts (enclose first last level texts) := by
  cases h with
  | nil => exact .empty List.all_nil
  | cons ha hparts =>
      have hall : Enclosed IsPart first last _ _ := .parts (separated_lines level ha hparts)
      simpa [enclose] using hall

end Parts

mutual

/-- The text of a document says what the document says. -/
theorem isSpelled_text (level : ℕ) : ∀ document : Json,
    document.value.IsSpelled (document.text level)
  | .number n => by
      rw [value, text]
      exact isSpelled_repr n
  | .string text => by
      rw [value, Json.text]
      exact isSpelled_stringText text
  | .list elements => by
      rw [value, text]
      exact .list (enclosed_enclose _ _ level (areSpelled_elementTexts (level + 1) elements))
  | .object members => by
      rw [value, text]
      exact .object (enclosed_enclose _ _ level (areSpelled_memberTexts (level + 1) members))

theorem areSpelled_elementTexts (level : ℕ) : ∀ elements : List Json,
    List.Forall₂ Value.IsSpelled (values elements) (elementTexts level elements)
  | [] => .nil
  | document :: rest =>
      .cons (isSpelled_text level document) (areSpelled_elementTexts level rest)

theorem areSpelled_memberTexts (level : ℕ) : ∀ members : List (String × Json),
    List.Forall₂ (Keyed Value.IsSpelled) (memberValues members) (memberTexts level members)
  | [] => .nil
  | (key, document) :: rest => by
      have hkeyed : Keyed Value.IsSpelled (utf16 key.toList, document.value)
          (stringText key ++ [':', ' '] ++ document.text level) := by
        have hmember := Keyed.mk (isBody_escaped key.toList) List.all_nil
          (by decide : [' '].all isGap) (isSpelled_text level document)
        simpa [stringText] using hmember
      exact .cons hkeyed (areSpelled_memberTexts level rest)

end

/-- What is written has exactly one reading. -/
theorem isDocument_render_iff (document : Json) (read : Value) :
    IsDocument read document.render.toList ↔ read = document.value := by
  have hwritten : IsDocument document.value document.render.toList := by
    refine ⟨[], document.text 0, [], rfl, isSpelled_text 0 document, rfl, ?_⟩
    rw [render, String.toList_ofList, List.nil_append, List.append_nil]
  constructor
  · exact fun h => h.unique hwritten
  · rintro rfl
    exact hwritten

end FlowLex.Json
