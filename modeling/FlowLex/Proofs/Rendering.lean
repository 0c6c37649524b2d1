import FlowLex.Proofs.Caret
import Mathlib

/-!
# Every diagnostic can be rendered

Diagnostics need not come from a report: any lexeme, any line number and any column,
or none, can be rendered over any source. The source line is shown when the source has
a line with the number, and the caret when the column is an offset of that line between
two characters or at its end. The bars of the lines below the heading then stand one
below the other, whatever the number of digits.
-/

namespace FlowLex

open Text

/-! ## Offsets in a line -/

/-- The byte at the offset goes on with a character that begins in front of it. -/
def IsInsideChar (text : String) (offset : ℕ) : Prop :=
  ∃ h : (⟨offset⟩ : String.Pos.Raw) < text.rawEndPos,
    ¬ (text.getUTF8Byte ⟨offset⟩ h).IsUTF8FirstByte

theorem takeBytes?_eq_some_iff {size : ℕ} {text front : List Char} :
    takeBytes? size text = some front ↔ ∃ back, text = front ++ back ∧ byteSize front = size := by
  constructor
  · intro h
    induction text generalizing size front with
    | nil =>
        cases size with
        | zero =>
            obtain rfl := Option.some.inj h
            exact ⟨[], rfl, rfl⟩
        | succ size => simp [takeBytes?] at h
    | cons c rest ih =>
        cases size with
        | zero =>
            obtain rfl := Option.some.inj h
            exact ⟨c :: rest, rfl, rfl⟩
        | succ size =>
            rw [takeBytes?, Option.ite_none_right_eq_some, Option.map_eq_some_iff] at h
            obtain ⟨hle, tail, htail, rfl⟩ := h
            obtain ⟨back, rfl, hsize⟩ := ih htail
            refine ⟨back, rfl, ?_⟩
            rw [byteSize_cons, hsize]
            omega
  · rintro ⟨back, rfl, rfl⟩
    exact takeBytes?_byteSize front back

/-- An offset has a text in front of it when it is neither past the end nor inside a
character. -/
theorem exists_takeBytes?_iff {size : ℕ} {text : List Char} :
    (∃ front, takeBytes? size text = some front) ↔
      size ≤ (String.ofList text).utf8ByteSize ∧ ¬ IsInsideChar (String.ofList text) size := by
  have hvalid : (∃ front, takeBytes? size text = some front) ↔
      String.Pos.Raw.IsValid (String.ofList text) ⟨size⟩ := by
    simp only [takeBytes?_eq_some_iff, String.Pos.Raw.isValid_ofList, ← byteSize_eq_utf8ByteSize]
    constructor
    · rintro ⟨front, back, rfl, rfl⟩
      exact ⟨front.length, by rw [List.take_left]⟩
    · rintro ⟨n, hn⟩
      exact ⟨text.take n, text.drop n, (List.take_append_drop n text).symm, hn.symm⟩
  rw [hvalid]
  constructor
  · intro h
    refine ⟨h.le_utf8ByteSize, ?_⟩
    rintro ⟨hlt, hinside⟩
    rcases String.Pos.Raw.isValid_iff_isUTF8FirstByte.mp h with hend | ⟨hlt', hfirst⟩
    · rw [hend] at hlt
      exact absurd (String.Pos.Raw.lt_iff.mp hlt) (Nat.lt_irrefl _)
    · exact hinside hfirst
  · rintro ⟨hle, hinside⟩
    rw [String.Pos.Raw.isValid_iff_isUTF8FirstByte]
    by_cases hlt : (⟨size⟩ : String.Pos.Raw) < (String.ofList text).rawEndPos
    · refine Or.inr ⟨hlt, ?_⟩
      by_contra hfirst
      exact hinside ⟨hlt, hfirst⟩
    · refine Or.inl (String.Pos.Raw.ext ?_)
      have hge := mt String.Pos.Raw.lt_iff.mpr hlt
      simp only [String.byteIdx_rawEndPos] at hge ⊢
      omega

namespace Diagnostic

/-! ## The lines below the heading -/

theorem heading_eq (d : Diagnostic) :
    d.heading = "  " ++ d.name ++ d.tip?.elim "" fun tip => " (" ++ tip ++ ")" := by
  unfold heading
  cases d.tip? with
  | none => simp
  | some tip => simp [String.append_assoc]

/-- There is nothing to show for a number that no line has. -/
theorem excerpt_eq_nil_iff (d : Diagnostic) (source : String) :
    d.excerpt source = [] ↔ d.line = 0 ∨ (lines source.toList).length < d.line := by
  unfold excerpt
  cases hnumber : d.line with
  | zero => simp [lineAt?]
  | succ index =>
      rw [lineAt?_succ]
      cases hget : (lines source.toList)[index]? with
      | none =>
          have := List.getElem?_eq_none_iff.mp hget
          simp
          omega
      | some line =>
          have := (List.getElem?_eq_some_iff.mp hget).1
          simp
          omega

/-- The trimmed line with the number of the diagnostic is shown, with the caret below
it if the column can be marked. -/
theorem excerpt_of_line {d : Diagnostic} {source : String} {index : ℕ} {line : List Char}
    (hnumber : d.line = index + 1) (hline : (lines source.toList)[index]? = some line) :
    d.excerpt source =
      [d.gutter, d.shownLine (trim line)] ++ (d.caretLine? (trim line)).toList := by
  have hshown : lineAt? source d.line = some (String.ofList (dropReturns line)) := by
    rw [hnumber, lineAt?_succ, hline]
    rfl
  simp [excerpt, hshown, trim_dropReturns, shownLine, margin]

theorem caretLine?_eq_some_iff {d : Diagnostic} {text : List Char} {marker : String} :
    d.caretLine? text = some marker ↔
      ∃ column front, d.column = some column ∧ takeBytes? column text = some front ∧
        marker = d.caretLine front := by
  unfold caretLine?
  cases d.column with
  | none => simp
  | some column =>
      cases hfront : takeBytes? column text with
      | none => simp [hfront]
      | some front => simp [hfront, caretLine, @eq_comm _ marker]

theorem isSome_caretLine?_iff {d : Diagnostic} {text : List Char} :
    (d.caretLine? text).isSome ↔ ∃ column, d.column = some column ∧
      column ≤ (String.ofList text).utf8ByteSize ∧
        ¬ IsInsideChar (String.ofList text) column := by
  rw [Option.isSome_iff_exists]
  simp only [caretLine?_eq_some_iff, ← exists_takeBytes?_iff]
  constructor
  · rintro ⟨marker, column, front, hcol, hfront, -⟩
    exact ⟨column, hcol, front, hfront⟩
  · rintro ⟨column, hcol, front, hfront⟩
    exact ⟨_, column, front, hcol, hfront, rfl⟩

theorem caretLine_eq (d : Diagnostic) (front : List Char) :
    d.caretLine front =
      d.gutter ++ " " ++ String.ofList (List.replicate front.length '-') ++ "^" := by
  have hfill : front.length + 1 - "^".length = front.length := Nat.add_sub_cancel _ _
  rw [caretLine, padStart, hfill, String.append_assoc, String.append_assoc,
    String.append_assoc]

/-! ## Bars -/

/-- The place of the bar behind the line number. -/
def barColumn (d : Diagnostic) : ℕ := d.line.repr.length + 1

theorem idxOf_bar_gutter (d : Diagnostic) : d.gutter.toList.idxOf '|' = d.barColumn := by
  rw [toList_gutter, List.idxOf_append_of_notMem (by simp)]
  simp [barColumn]

theorem idxOf_bar_caretLine (d : Diagnostic) (front : List Char) :
    (d.caretLine front).toList.idxOf '|' = d.barColumn := by
  rw [toList_caretLine, List.append_assoc, List.append_assoc,
    List.idxOf_append_of_notMem (by simp)]
  simp [barColumn]

theorem idxOf_bar_shownLine (d : Diagnostic) (text : List Char) :
    (d.shownLine text).toList.idxOf '|' = d.barColumn := by
  have hdigits : '|' ∉ d.line.repr.toList := by
    rw [Nat.toList_repr]
    intro hmem
    exact absurd (Nat.isDigit_of_mem_toDigits (by decide) (by decide) hmem) (by decide)
  rw [toList_shownLine, margin, String.toList_append, List.append_assoc,
    List.idxOf_append_of_notMem hdigits]
  rfl

/-! ## The whole text -/

/-- The marker line has one dash for every character in front of the column and a caret
behind them, and its bar stands below the bars of the two lines above. -/
structure IsMarker (d : Diagnostic) (text : List Char) (column : ℕ) (marker : String) :
    Prop where
  points : ∃ front back, text = front ++ back ∧ (String.ofList front).utf8ByteSize = column ∧
    marker = d.gutter ++ " " ++ String.ofList (List.replicate front.length '-') ++ "^"
  below_gutter : marker.toList.idxOf '|' = d.gutter.toList.idxOf '|'
  below_line : marker.toList.idxOf '|' =
    (d.line.repr ++ " | " ++ String.ofList text).toList.idxOf '|'

theorem isMarker_caretLine (d : Diagnostic) {text front : List Char} {column : ℕ}
    (h : takeBytes? column text = some front) :
    d.IsMarker text column (d.caretLine front) where
  points := by
    obtain ⟨back, htext, hsize⟩ := takeBytes?_eq_some_iff.mp h
    exact ⟨front, back, htext, by rw [← byteSize_eq_utf8ByteSize, hsize], d.caretLine_eq front⟩
  below_gutter := by rw [idxOf_bar_caretLine, idxOf_bar_gutter]
  below_line := by
    rw [idxOf_bar_caretLine]
    exact (d.idxOf_bar_shownLine text).symm

/-- What is shown below the heading when `line` is the line with the number of the
diagnostic: the bar, the trimmed line behind its number and, exactly when the column is
neither past the end of that text nor inside one of its characters, the marker. -/
def ShowsBelow (d : Diagnostic) (line : List Char) (below : List String) : Prop :=
  ∃ marker : Option String,
    below = [d.gutter, d.line.repr ++ " | " ++ String.ofList (trim line)] ++ marker.toList ∧
    (marker.isSome ↔ ∃ column, d.column = some column ∧
      column ≤ (String.ofList (trim line)).utf8ByteSize ∧
        ¬ IsInsideChar (String.ofList (trim line)) column) ∧
    ∀ shown, marker = some shown →
      ∃ column, d.column = some column ∧ d.IsMarker (trim line) column shown

theorem showsBelow_excerpt {d : Diagnostic} {source : String} {index : ℕ} {line : List Char}
    (hnumber : d.line = index + 1) (hline : (lines source.toList)[index]? = some line) :
    d.ShowsBelow line (d.excerpt source) := by
  refine ⟨d.caretLine? (trim line), excerpt_of_line hnumber hline, isSome_caretLine?_iff, ?_⟩
  intro shown hshown
  obtain ⟨column, front, hcol, hfront, rfl⟩ := caretLine?_eq_some_iff.mp hshown
  exact ⟨column, hcol, d.isMarker_caretLine hfront⟩

theorem render_eq (d : Diagnostic) (source : String) :
    d.render source = d.message ++ "\n" ++ d.heading ++ "\n" ++
      String.join ((d.excerpt source).map (· ++ "\n")) := by
  rw [render, renderLines, unlines_cons, unlines_cons, unlines]
  simp only [String.append_assoc]

/-- **Rendering is well behaved for every diagnostic.** The text begins with the message
and the name, with the tip if there is one, and every line of it ends with a line feed.
Nothing follows exactly when the source has no line with the number; otherwise that line
is shown, and the column is marked exactly when it can be. -/
theorem render_of_any_diagnostic (d : Diagnostic) (source : String) :
    d.render source = d.message ++ "\n" ++ d.heading ++ "\n" ++
        String.join ((d.excerpt source).map (· ++ "\n")) ∧
      d.message = "Error on Line " ++ d.line.repr ++
        ": Invalid syntax or unrecognized token." ∧
      d.heading = "  InvalidLexeme" ++ d.tip?.elim "" (fun tip => " (" ++ tip ++ ")") ∧
      (d.excerpt source = [] ↔ d.line = 0 ∨ (lines source.toList).length < d.line) ∧
      ∀ index line, d.line = index + 1 → (lines source.toList)[index]? = some line →
        d.ShowsBelow line (d.excerpt source) := by
  refine ⟨d.render_eq source, rfl, d.heading_eq, d.excerpt_eq_nil_iff source, ?_⟩
  intro index line hnumber hline
  exact showsBelow_excerpt hnumber hline

/-- A diagnostic that no source gives: its lexeme is empty and its column is the end of
the line, behind characters of two and three bytes. -/
theorem render_of_any_diagnostic_end_of_line :
    Diagnostic.line ⟨"", 2, some 5⟩ = 1 + 1 ∧
      (lines "x\n é€ \r".toList)[1]? = some " é€ \r".toList ∧
      (⟨"", 2, some 5⟩ : Diagnostic).excerpt "x\n é€ \r" = ["  |", "2 | é€", "  | --^"] ∧
      (⟨"", 2, some 5⟩ : Diagnostic).ShowsBelow " é€ \r".toList
        ["  |", "2 | é€", "  | --^"] := by
  have hline : (lines "x\n é€ \r".toList)[1]? = some " é€ \r".toList := by decide
  have hexcerpt : (⟨"", 2, some 5⟩ : Diagnostic).excerpt "x\n é€ \r" =
      ["  |", "2 | é€", "  | --^"] := by
    cbv
  refine ⟨rfl, hline, hexcerpt, ?_⟩
  rw [← hexcerpt]
  exact (render_of_any_diagnostic ⟨"", 2, some 5⟩ "x\n é€ \r").2.2.2.2 1 _ rfl hline

end Diagnostic

end FlowLex
