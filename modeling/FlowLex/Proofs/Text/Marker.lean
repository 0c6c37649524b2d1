import FlowLex.Proofs.Text.Trim
import FlowLex.Text.Basic
import Mathlib.Data.List.Infix

/-!
# Markers in a text

A text holds a marker when the marker is an infix of it. The text in front of
the first marker is a prefix without the marker, and blanks at the front of a
text are no part of a marker that starts otherwise. A marker of two characters
lies in one of two pieces of a text unless it stands across their border.
-/

namespace FlowLex.Text

theorem holds_iff_infix {marker text : List Char} :
    holds marker text = true ↔ marker <:+: text := by
  induction text with
  | nil => simp [holds]
  | cons c rest ih =>
      rw [holds, Bool.or_eq_true, ih, List.isPrefixOf_iff_prefix, List.infix_cons_iff]

theorem holds_eq_false_iff {marker text : List Char} :
    holds marker text = false ↔ ¬ marker <:+: text := by
  rw [← holds_iff_infix, Bool.not_eq_true]

/-! ## The text in front of a marker -/

theorem before_cons_of_prefix_cons {marker rest : List Char} {c : Char}
    (h : marker <+: c :: rest) : before marker (c :: rest) = [] := by
  simp [before, List.isPrefixOf_iff_prefix.mpr h]

theorem before_cons_of_not_prefix_cons {marker rest : List Char} {c : Char}
    (h : ¬ marker <+: c :: rest) :
    before marker (c :: rest) = c :: before marker rest := by
  rw [← List.isPrefixOf_iff_prefix] at h
  simp [before, h]

theorem before_of_prefix {marker text : List Char} (h : marker <+: text) :
    before marker text = [] := by
  cases text with
  | nil => rfl
  | cons c rest => exact before_cons_of_prefix_cons h

theorem before_prefix_self (marker text : List Char) : before marker text <+: text := by
  induction text with
  | nil => simp [before]
  | cons c rest ih =>
      by_cases h : marker <+: c :: rest
      · rw [before_cons_of_prefix_cons h]
        exact List.nil_prefix
      · rw [before_cons_of_not_prefix_cons h, List.cons_prefix_cons]
        exact ⟨rfl, ih⟩

theorem before_eq_self {marker text : List Char} (h : ¬ marker <:+: text) :
    before marker text = text := by
  induction text with
  | nil => rfl
  | cons c rest ih =>
      rw [List.infix_cons_iff, not_or] at h
      rw [before_cons_of_not_prefix_cons h.1, ih h.2]

/-- No marker stands in front of the first one. -/
theorem not_infix_before {marker : List Char} (hne : marker ≠ []) (text : List Char) :
    ¬ marker <:+: before marker text := by
  induction text with
  | nil => simpa [before] using hne
  | cons c rest ih =>
      by_cases h : marker <+: c :: rest
      · rw [before_cons_of_prefix_cons h]
        simpa using hne
      · rw [before_cons_of_not_prefix_cons h, List.infix_cons_iff, not_or]
        -- A marker at the front of what is kept is one at the front of the text.
        refine ⟨fun hpre => h ?_, ih⟩
        exact hpre.trans (List.cons_prefix_cons.mpr ⟨rfl, before_prefix_self marker rest⟩)

/-- `front` is the text in front of the first marker, or all of a text that has none. -/
def IsInFront (marker text front : List Char) : Prop :=
  (¬ marker <:+: text ∧ front = text) ∨
    ((∃ behind, text = front ++ marker ++ behind) ∧
      ∀ n < front.length, ¬ marker <+: text.drop n)

theorem isInFront_before (marker text : List Char) :
    IsInFront marker text (before marker text) := by
  induction text with
  | nil =>
      by_cases hmarker : marker = []
      · subst hmarker
        exact Or.inr ⟨⟨[], rfl⟩, fun n hn => absurd hn (Nat.not_lt_zero n)⟩
      · exact Or.inl ⟨by simpa using hmarker, rfl⟩
  | cons c rest ih =>
      by_cases h : marker <+: c :: rest
      · rw [before_cons_of_prefix_cons h]
        obtain ⟨behind, hbehind⟩ := h
        exact Or.inr ⟨⟨behind, hbehind.symm⟩, fun n hn => absurd hn (Nat.not_lt_zero n)⟩
      · rw [before_cons_of_not_prefix_cons h]
        rcases ih with ⟨hno, hall⟩ | ⟨⟨behind, hsplit⟩, hfirst⟩
        · refine Or.inl ⟨?_, by rw [hall]⟩
          rw [List.infix_cons_iff]
          exact not_or.mpr ⟨h, hno⟩
        · refine Or.inr ⟨⟨behind, ?_⟩, ?_⟩
          · rw [List.cons_append, List.cons_append, ← hsplit]
          · intro n hn
            cases n with
            | zero => exact h
            | succ n => exact hfirst n (Nat.lt_of_succ_lt_succ hn)

/-- There is one text in front of the first marker. -/
theorem isInFront_iff {marker text front : List Char} :
    IsInFront marker text front ↔ front = before marker text := by
  refine ⟨?_, fun h => h ▸ isInFront_before marker text⟩
  rintro (⟨hno, rfl⟩ | ⟨⟨behind, hsplit⟩, hfirst⟩)
  · exact (before_eq_self hno).symm
  · subst hsplit
    induction front with
    | nil => exact Eq.symm <| before_of_prefix (List.prefix_append _ _)
    | cons c front ih =>
        have hno : ¬ marker <+: c :: (front ++ marker ++ behind) :=
          hfirst 0 (Nat.succ_pos _)
        rw [List.cons_append, List.cons_append, before_cons_of_not_prefix_cons hno,
          ← ih fun n hn => hfirst (n + 1) (Nat.succ_lt_succ hn)]

/-- Blanks at the front are cut off alike before and after looking for a marker
that starts with no blank. -/
theorem trimLeft_before {m : Char} {marker : List Char} (hm : isBlank m = false)
    (text : List Char) :
    trimLeft (before (m :: marker) text) = before (m :: marker) (trimLeft text) := by
  induction text with
  | nil => rfl
  | cons c rest ih =>
      by_cases hc : isBlank c = true
      · have hno : ¬ m :: marker <+: c :: rest := by
          intro hpre
          rw [List.cons_prefix_cons] at hpre
          rw [hpre.1, hc] at hm
          exact Bool.noConfusion hm
        rw [before_cons_of_not_prefix_cons hno]
        simpa [trimLeft, hc] using ih
      · rw [show trimLeft (c :: rest) = c :: rest from by simp [trimLeft, hc]]
        by_cases hpre : m :: marker <+: c :: rest
        · rw [before_cons_of_prefix_cons hpre]
          rfl
        · rw [before_cons_of_not_prefix_cons hpre]
          simp [trimLeft, hc]

/-- The first marker is found without looking behind any marker. -/
theorem before_append_marker (marker code text other : List Char) :
    before marker (code ++ marker ++ text) = before marker (code ++ marker ++ other) := by
  induction code with
  | nil =>
      rw [List.nil_append, before_of_prefix (List.prefix_append marker text),
        before_of_prefix (List.prefix_append marker other)]
  | cons c code ih =>
      -- A marker at the front ends before the text behind the known one starts.
      have hlength : marker.length ≤ (c :: (code ++ marker)).length := by
        simp
        omega
      have hfront : ∀ tail, marker <+: c :: (code ++ marker ++ tail) ↔
          marker <+: c :: (code ++ marker) := by
        intro tail
        constructor
        · intro h
          exact List.prefix_of_prefix_length_le h (List.prefix_append _ tail) hlength
        · intro h
          exact h.trans (List.prefix_append (c :: (code ++ marker)) tail)
      rw [List.cons_append, List.cons_append, List.cons_append]
      by_cases h : marker <+: c :: (code ++ marker)
      · rw [before_cons_of_prefix_cons ((hfront text).mpr h),
          before_cons_of_prefix_cons ((hfront other).mpr h)]
      · rw [before_cons_of_not_prefix_cons (mt (hfront text).mp h),
          before_cons_of_not_prefix_cons (mt (hfront other).mp h), ih]

/-! ## Markers of two characters -/

/-- Two characters that stand side by side in a text made of two pieces stand
in one of the pieces or across the border. -/
theorem pair_infix_append {a b : Char} {front back : List Char} :
    [a, b] <:+: front ++ back ↔
      [a, b] <:+: front ∨ [a, b] <:+: back ∨
        (front.getLast? = some a ∧ back.head? = some b) := by
  induction front with
  | nil => simp
  | cons c front ih =>
      rw [List.cons_append, List.infix_cons_iff, List.infix_cons_iff, ih]
      cases front with
      | nil =>
          cases back with
          | nil => simp
          | cons d back =>
              simp [List.cons_prefix_cons, @eq_comm _ a, @eq_comm _ b]
              tauto
      | cons d front =>
          simp [List.cons_prefix_cons]
          tauto

/-- Blanks are no part of a pair of other characters. -/
theorem not_pair_infix_gap {a b : Char} (ha : isBlank a = false) {gap : List Char}
    (hgap : IsGap gap) : ¬ [a, b] <:+: gap := by
  intro hinf
  exact not_mem_gap hgap ha (hinf.subset List.mem_cons_self)

theorem pair_infix_gap_append {a b : Char} (ha : isBlank a = false)
    {gap : List Char} (hgap : IsGap gap) (text : List Char) :
    [a, b] <:+: gap ++ text ↔ [a, b] <:+: text := by
  rw [pair_infix_append]
  constructor
  · rintro (hinf | hinf | ⟨hlast, -⟩)
    · exact absurd hinf (not_pair_infix_gap ha hgap)
    · exact hinf
    · exact absurd (List.mem_of_getLast? hlast) (not_mem_gap hgap ha)
  · exact fun h => Or.inr (Or.inl h)

theorem pair_infix_append_gap {a b : Char} (ha : isBlank a = false)
    (hb : isBlank b = false) {gap : List Char} (hgap : IsGap gap) (text : List Char) :
    [a, b] <:+: text ++ gap ↔ [a, b] <:+: text := by
  rw [pair_infix_append]
  constructor
  · rintro (hinf | hinf | ⟨-, hhead⟩)
    · exact hinf
    · exact absurd hinf (not_pair_infix_gap ha hgap)
    · exact absurd (List.mem_of_mem_head? hhead) (not_mem_gap hgap hb)
  · exact fun h => Or.inl h

/-- Blanks around a text are cut off alike before and after looking for a pair. -/
theorem trim_before_pad {a b : Char} (ha : isBlank a = false) (hb : isBlank b = false)
    {front back : List Char} (hfront : IsGap front) (hback : IsGap back)
    (text : List Char) :
    trim (before [a, b] (front ++ text ++ back)) = trim (before [a, b] text) := by
  have hleft : trim (before [a, b] (front ++ text ++ back)) =
      trim (before [a, b] (text ++ back)) := by
    unfold trim
    rw [trimLeft_before ha, trimLeft_before ha, List.append_assoc,
      trimLeft_gap_append hfront]
  rw [hleft]
  by_cases h : [a, b] <:+: text
  · obtain ⟨code, tail, rfl⟩ := h
    rw [List.append_assoc _ tail, before_append_marker _ _ (tail ++ back) tail]
  · have hpad : ¬ [a, b] <:+: text ++ back := by
      rwa [pair_infix_append_gap ha hb hback]
    rw [before_eq_self h, before_eq_self hpad, trim_append_gap hback]

/-- The first pair is looked for behind a text without one, unless the last character
of that text is the first of the pair. -/
theorem before_append_of_apart {a b : Char} {front : List Char} (hfront : ¬ [a, b] <:+: front)
    (hlast : front.getLast? ≠ some a) (text : List Char) :
    before [a, b] (front ++ text) = front ++ before [a, b] text := by
  induction front with
  | nil => rfl
  | cons c front ih =>
      rw [List.infix_cons_iff, not_or] at hfront
      have hno : ¬ [a, b] <+: c :: (front ++ text) := by
        cases front with
        | nil =>
            intro h
            rw [List.cons_prefix_cons] at h
            exact hlast (by rw [h.1]; rfl)
        | cons d front =>
            intro h
            apply hfront.1
            simpa [List.cons_prefix_cons] using h
      have hrest : front.getLast? ≠ some a := by
        cases front with
        | nil => simp
        | cons d front => simpa using hlast
      rw [List.cons_append, List.cons_append, before_cons_of_not_prefix_cons hno,
        ih hfront.2 hrest]

/-- A text without the marker is what stands in front of a marker put behind it,
unless its last character is the first of the marker. -/
theorem before_append_pair {a b : Char} {code : List Char} (hcode : ¬ [a, b] <:+: code)
    (hlast : code.getLast? ≠ some a) (text : List Char) :
    before [a, b] (code ++ [a, b] ++ text) = code := by
  rw [List.append_assoc, before_append_of_apart hcode hlast,
    before_of_prefix (List.prefix_append _ _), List.append_nil]

end FlowLex.Text
