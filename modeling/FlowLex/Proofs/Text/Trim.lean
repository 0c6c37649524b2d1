import FlowLex.Text.Basic
import Mathlib.Data.List.DropRight
import Mathlib.Data.List.Infix
import Mathlib.Data.List.TakeWhile

/-!
# Trimmed texts

A text is its trimmed form with blanks on both sides. Blanks added at either
end change nothing, so the carriage returns at the end of a line change
nothing either. A text cut off at the back has a trimmed form that is cut off
at the back: trimming never moves the front.
-/

namespace FlowLex.Text

/-- A text of blanks only. -/
def IsGap (text : List Char) : Prop := ∀ c ∈ text, isBlank c

instance (text : List Char) : Decidable (IsGap text) :=
  decidable_of_iff (text.all isBlank) List.all_eq_true

theorem isGap_nil : IsGap [] := by simp [IsGap]

theorem isGap_cons {c : Char} {text : List Char} :
    IsGap (c :: text) ↔ isBlank c ∧ IsGap text := by
  simp [IsGap]

theorem not_mem_gap {c : Char} {gap : List Char} (hgap : IsGap gap)
    (hc : isBlank c = false) : c ∉ gap := by
  intro hmem
  have := hgap c hmem
  rw [hc] at this
  exact Bool.noConfusion this

/-! ## Blanks at the ends -/

theorem trimLeft_gap_append {gap : List Char} (hgap : IsGap gap)
    (text : List Char) : trimLeft (gap ++ text) = trimLeft text :=
  List.dropWhile_append_of_pos hgap

theorem trimRight_append_gap {gap : List Char} (hgap : IsGap gap)
    (text : List Char) : trimRight (text ++ gap) = trimRight text := by
  unfold trimRight
  rw [List.reverse_append, List.dropWhile_append_of_pos]
  intro c hc
  exact hgap c (List.mem_reverse.mp hc)

theorem trimLeft_gap {gap : List Char} (hgap : IsGap gap) :
    trimLeft gap = [] :=
  List.dropWhile_eq_nil_iff.mpr hgap

theorem trim_gap_append {gap : List Char} (hgap : IsGap gap)
    (text : List Char) : trim (gap ++ text) = trim text := by
  unfold trim
  rw [trimLeft_gap_append hgap]

theorem trim_append_gap {gap : List Char} (hgap : IsGap gap)
    (text : List Char) : trim (text ++ gap) = trim text := by
  unfold trim
  by_cases h : trimLeft text = []
  · have htext : IsGap text := List.dropWhile_eq_nil_iff.mp h
    rw [trimLeft_gap_append htext, trimLeft_gap hgap, h]
  · have hsplit : trimLeft (text ++ gap) = trimLeft text ++ gap := by
      unfold trimLeft at h ⊢
      simp [List.dropWhile_append, h]
    rw [hsplit, trimRight_append_gap hgap]

/-! ## Taking a text apart -/

theorem eq_gap_append_trimLeft (text : List Char) :
    ∃ gap, IsGap gap ∧ text = gap ++ trimLeft text :=
  ⟨text.takeWhile isBlank, fun _ hc => List.mem_takeWhile_imp hc,
    List.takeWhile_append_dropWhile.symm⟩

theorem eq_trimRight_append_gap (text : List Char) :
    ∃ gap, IsGap gap ∧ text = trimRight text ++ gap :=
  ⟨text.rtakeWhile isBlank, fun _ hc => List.mem_rtakeWhile_imp hc,
    List.rdropWhile_append_rtakeWhile.symm⟩

/-- A text is its trimmed form with blanks on both sides. -/
theorem eq_gap_append_trim_append_gap (text : List Char) :
    ∃ front back, IsGap front ∧ IsGap back ∧ text = front ++ trim text ++ back := by
  obtain ⟨front, hfront, hl⟩ := eq_gap_append_trimLeft text
  obtain ⟨back, hback, hr⟩ := eq_trimRight_append_gap (trimLeft text)
  refine ⟨front, back, hfront, hback, ?_⟩
  rw [List.append_assoc]
  unfold trim
  rw [← hr, ← hl]

theorem trim_infix_self (text : List Char) : trim text <:+: text := by
  obtain ⟨front, back, -, -, h⟩ := eq_gap_append_trim_append_gap text
  exact ⟨front, back, h.symm⟩

theorem trim_eq_nil_iff {text : List Char} : trim text = [] ↔ IsGap text := by
  constructor
  · intro h
    obtain ⟨front, back, hfront, hback, heq⟩ := eq_gap_append_trim_append_gap text
    rw [heq, h]
    intro c hc
    rw [List.append_nil, List.mem_append] at hc
    rcases hc with hc | hc
    · exact hfront c hc
    · exact hback c hc
  · intro h
    rw [← List.append_nil text, trim_gap_append h, trim_nil]

/-- Something is left of a text with a character that is no blank. -/
theorem trim_ne_nil_iff {text : List Char} :
    trim text ≠ [] ↔ ∃ c ∈ text, isBlank c = false := by
  rw [Ne, trim_eq_nil_iff]
  simp [IsGap]

/-- The back is cut off behind a character that is no blank. -/
theorem trimRight_append_of_getLast? {front : List Char} {c : Char}
    (hlast : front.getLast? = some c) (hc : isBlank c = false) (text : List Char) :
    trimRight (front ++ text) = front ++ trimRight text := by
  obtain ⟨initial, rfl⟩ := List.getLast?_eq_some_iff.mp hlast
  unfold trimRight
  by_cases htext : (text.reverse.dropWhile isBlank).isEmpty
  · simp [List.dropWhile_append, List.isEmpty_iff.mp htext, hc]
  · simp [List.dropWhile_append, htext]

/-- A trimmed text starts with no blank. -/
theorem isBlank_head?_trim (text : List Char) :
    ∀ c ∈ (trim text).head?, isBlank c = false := by
  intro c hc
  obtain ⟨rest, htrim⟩ := List.head?_eq_some_iff.mp hc
  have hpre : trim text <+: trimLeft text := List.rdropWhile_prefix isBlank _
  have hnot := List.head?_dropWhile_not isBlank text
  rw [htrim] at hpre
  obtain ⟨more, hmore⟩ := hpre
  rw [trimLeft] at hmore
  rw [← hmore] at hnot
  exact hnot

/-- Nothing is cut off the front of a text that starts with no blank. -/
theorem trimLeft_append_of_head? {front : List Char} (hne : front ≠ [])
    (hhead : ∀ c ∈ front.head?, isBlank c = false) (text : List Char) :
    trimLeft (front ++ text) = front ++ text := by
  obtain ⟨c, tail, rfl⟩ := List.exists_cons_of_ne_nil hne
  have hc := hhead c (by simp)
  simp [trimLeft, hc]

/-! ## Carriage returns -/

theorem isBlank_return : isBlank '\r' := by decide

/-- A line without the carriage returns at its end trims to the same text. -/
theorem trim_dropReturns (line : List Char) :
    trim (dropReturns line) = trim line := by
  have hsplit : dropReturns line ++ line.rtakeWhile (· == '\r') = line :=
    List.rdropWhile_append_rtakeWhile
  have hgap : IsGap (line.rtakeWhile (· == '\r')) := by
    intro c hc
    have hret := List.mem_rtakeWhile_imp hc
    rw [beq_iff_eq] at hret
    rw [hret]
    exact isBlank_return
  conv_rhs => rw [← hsplit]
  rw [trim_append_gap hgap]

/-! ## Texts cut off at the back -/

theorem trimRight_prefix_self (text : List Char) : trimRight text <+: text :=
  List.rdropWhile_prefix isBlank text

theorem trimRight_trimRight (text : List Char) :
    trimRight (trimRight text) = trimRight text :=
  List.rdropWhile_idempotent isBlank text

theorem trim_trim (text : List Char) : trim (trim text) = trim text := by
  have hleft : trimLeft (trim text) = trim text := by
    by_cases hne : trim text = []
    · rw [hne]
      rfl
    · simpa using trimLeft_append_of_head? hne (isBlank_head?_trim text) []
  rw [trim, hleft]
  exact trimRight_trimRight (trimLeft text)

theorem trimRight_prefix_of_prefix {short long : List Char}
    (h : short <+: long) : trimRight short <+: trimRight long := by
  have hshort : trimRight short <+: long := (trimRight_prefix_self short).trans h
  rcases List.prefix_or_prefix_of_prefix hshort (trimRight_prefix_self long) with hle | hge
  · exact hle
  · -- The longer prefix runs on into the blanks behind `long`, so it would
    -- have to end in a blank unless the two are equal.
    obtain ⟨more, hmore⟩ := hge
    obtain ⟨gap, hgap, hsplit⟩ := eq_trimRight_append_gap long
    have hmoregap : IsGap more := by
      rw [← hmore] at hshort
      have hpre : trimRight long ++ more <+: trimRight long ++ gap := by
        rw [← hsplit]
        exact hshort
      rw [List.prefix_append_right_inj] at hpre
      exact fun c hc => hgap c (hpre.subset hc)
    have hsame : trimRight short = trimRight long := by
      rw [← trimRight_trimRight short, ← hmore, trimRight_append_gap hmoregap,
        trimRight_trimRight]
    rw [hsame]

end FlowLex.Text
