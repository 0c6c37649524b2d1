import FlowLex.Text.Basic
import Mathlib.Data.List.Basic

/-!
# Cutting a text into lines

No line holds a line feed, a line feed parts the lines in front of it from
those behind it, and lines that hold none are got back from the text they make
when each is ended by a line feed.
-/

namespace FlowLex.Text

@[simp] theorem consLine_newline (lines : List (List Char)) :
    consLine '\n' lines = [] :: lines := by
  simp [consLine]

theorem consLine_cons {c : Char} (hc : c ≠ '\n') (line : List Char)
    (rest : List (List Char)) : consLine c (line :: rest) = (c :: line) :: rest := by
  simp [consLine, hc]

theorem lines_ne_nil (text : List Char) : lines text ≠ [] := by
  cases text with
  | nil => simp
  | cons c text =>
      rw [lines_cons]
      by_cases hc : c = '\n'
      · simp [hc]
      · cases h : lines text with
        | nil => simp [consLine, hc]
        | cons line rest => simp [consLine_cons hc]

theorem not_newline_mem_of_mem_lines {text line : List Char}
    (h : line ∈ lines text) : '\n' ∉ line := by
  induction text generalizing line with
  | nil =>
      rw [lines_nil, List.mem_singleton] at h
      simp [h]
  | cons c text ih =>
      obtain ⟨first, rest, hlines⟩ := List.exists_cons_of_ne_nil (lines_ne_nil text)
      rw [lines_cons, hlines] at h
      rw [hlines] at ih
      by_cases hc : c = '\n'
      · subst hc
        rw [consLine_newline, List.mem_cons] at h
        rcases h with rfl | h
        · simp
        · exact ih h
      · rw [consLine_cons hc, List.mem_cons] at h
        rcases h with rfl | h
        · have := ih List.mem_cons_self
          simp [this, Ne.symm hc]
        · exact ih (List.mem_cons_of_mem _ h)

/-- A line feed parts the lines in front of it from those behind it. -/
theorem lines_append_newline (front back : List Char) :
    lines (front ++ '\n' :: back) = lines front ++ lines back := by
  induction front with
  | nil => simp
  | cons c front ih =>
      obtain ⟨first, rest, hlines⟩ := List.exists_cons_of_ne_nil (lines_ne_nil front)
      rw [List.cons_append, lines_cons, ih, lines_cons, hlines]
      by_cases hc : c = '\n'
      · subst hc
        simp
      · rw [List.cons_append, consLine_cons hc, consLine_cons hc, List.cons_append]

theorem lines_of_not_newline_mem {text : List Char} (h : '\n' ∉ text) :
    lines text = [text] := by
  induction text with
  | nil => rfl
  | cons c text ih =>
      rw [List.mem_cons, not_or] at h
      rw [lines_cons, ih h.2, consLine_cons (Ne.symm h.1)]

@[simp] theorem unlines_nil : unlines [] = "" := rfl

@[simp] theorem unlines_cons (line : String) (rest : List String) :
    unlines (line :: rest) = line ++ "\n" ++ unlines rest := by
  simp [unlines, String.join_cons]

/-- Lines that hold no line feed are got back from the text they make. -/
theorem lines_unlines {texts : List String}
    (h : ∀ text ∈ texts, '\n' ∉ text.toList) :
    lines (unlines texts).toList = texts.map String.toList ++ [[]] := by
  induction texts with
  | nil => rfl
  | cons text rest ih =>
      have hsplit : (unlines (text :: rest)).toList =
          text.toList ++ '\n' :: (unlines rest).toList := by
        simp
      rw [hsplit, lines_append_newline,
        lines_of_not_newline_mem (h text List.mem_cons_self),
        ih fun t ht => h t (List.mem_cons_of_mem _ ht)]
      simp

/-- Lines that hold no line feed are got back when line feeds stand between them. -/
theorem lines_intercalate {texts : List (List Char)} (hne : texts ≠ [])
    (h : ∀ text ∈ texts, '\n' ∉ text) :
    lines (['\n'].intercalate texts) = texts := by
  induction texts with
  | nil => exact absurd rfl hne
  | cons text rest ih =>
      have htext := lines_of_not_newline_mem (h text List.mem_cons_self)
      cases rest with
      | nil => simpa [List.intercalate] using htext
      | cons next rest =>
          have hrest := ih (List.cons_ne_nil _ _) fun t ht => h t (List.mem_cons_of_mem _ ht)
          have hjoin : ['\n'].intercalate (text :: next :: rest) =
              text ++ '\n' :: ['\n'].intercalate (next :: rest) := by
            simp [List.intercalate]
          rw [hjoin, lines_append_newline, htext, hrest, List.singleton_append]

/-- The text with the given lines. -/
def ofLines (texts : List (List Char)) : String :=
  String.ofList (['\n'].intercalate texts)

theorem lines_ofLines {texts : List (List Char)} (hne : texts ≠ [])
    (h : ∀ text ∈ texts, '\n' ∉ text) : lines (ofLines texts).toList = texts := by
  rw [ofLines, String.toList_ofList, lines_intercalate hne h]

/-! ## Lines by number -/

theorem lineAt?_succ (source : String) (index : Nat) :
    lineAt? source (index + 1) =
      (lines source.toList)[index]?.map fun line => String.ofList (dropReturns line) :=
  rfl

end FlowLex.Text
