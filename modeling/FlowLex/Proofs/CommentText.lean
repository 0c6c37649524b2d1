import FlowLex.Proofs.Progress

/-!
# Commented text has no influence

Two sources may differ in what stands inside their comments: behind `//`, on the
lines that a block comment opens on or closes on, and on those in between. Both
readings are then in the same mode at every line and find the same code, so the
reports are equal in all their parts.
-/

namespace FlowLex

open Text

/-! ## Lines that differ in comments -/

/-- Two lines that are the same but for commented text when they are read in the
given mode. -/
inductive SameCode : Mode → List Char → List Char → Prop
  | same (mode : Mode) (line : List Char) : SameCode mode line line
  | inBlock {line other : List Char} :
      (blockClose <:+: line ↔ blockClose <:+: other) → SameCode .block line other
  | opening {line other : List Char} :
      blockOpen <:+: line → blockOpen <:+: other → SameCode .code line other
  | comment {code text other : List Char} :
      ¬ blockOpen <:+: code ++ lineComment ++ text →
      ¬ blockOpen <:+: code ++ lineComment ++ other →
      SameCode .code (code ++ lineComment ++ text) (code ++ lineComment ++ other)
  | added {code text : List Char} :
      ¬ lineComment <:+: code → code.getLast? ≠ some '/' →
      ¬ blockOpen <:+: code ++ lineComment ++ text →
      SameCode .code code (code ++ lineComment ++ text)
  | removed {code text : List Char} :
      ¬ lineComment <:+: code → code.getLast? ≠ some '/' →
      ¬ blockOpen <:+: code ++ lineComment ++ text →
      SameCode .code (code ++ lineComment ++ text) code

/-- Lines that open no block comment are read alike when the same text stands in
front of their first `//`. -/
theorem read_alike_of_before_eq {line other : List Char} (hline : ¬ blockOpen <:+: line)
    (hother : ¬ blockOpen <:+: other)
    (h : before lineComment line = before lineComment other) :
    Mode.code.codeOf? line = Mode.code.codeOf? other ∧
      Mode.code.next line = Mode.code.next other := by
  have hfst := holds_eq_false_iff.mpr hline
  have hsnd := holds_eq_false_iff.mpr hother
  simp [Mode.codeOf?, Mode.next, hfst, hsnd, h]

theorem read_alike_of_added {code text : List Char} (hcode : ¬ lineComment <:+: code)
    (hlast : code.getLast? ≠ some '/')
    (hopen : ¬ blockOpen <:+: code ++ lineComment ++ text) :
    Mode.code.codeOf? code = Mode.code.codeOf? (code ++ lineComment ++ text) ∧
      Mode.code.next code = Mode.code.next (code ++ lineComment ++ text) := by
  have hfront : ¬ blockOpen <:+: code := fun h =>
    hopen (h.trans ((List.prefix_append code lineComment).isInfix.trans
      (List.prefix_append _ text).isInfix))
  apply read_alike_of_before_eq hfront hopen
  rw [before_eq_self hcode]
  exact (before_append_pair hcode hlast text).symm

/-- **Commented text is not read.** Lines that differ in it leave the same code
and the same mode. -/
theorem SameCode.read_alike {mode : Mode} {line other : List Char}
    (h : SameCode mode line other) :
    mode.codeOf? line = mode.codeOf? other ∧ mode.next line = mode.next other := by
  cases h with
  | same => exact ⟨rfl, rfl⟩
  | inBlock hclose =>
      have hholds : holds blockClose line = holds blockClose other := by
        rw [Bool.eq_iff_iff, holds_iff_infix, holds_iff_infix, hclose]
      simp [Mode.codeOf?, Mode.next, hholds]
  | opening hline hother =>
      have hfst := holds_iff_infix.mpr hline
      have hsnd := holds_iff_infix.mpr hother
      simp [Mode.codeOf?, Mode.next, hfst, hsnd]
  | comment hline hother =>
      exact read_alike_of_before_eq hline hother (before_append_marker _ _ _ _)
  | added hcode hlast hopen => exact read_alike_of_added hcode hlast hopen
  | removed hcode hlast hopen =>
      obtain ⟨hsame, hnext⟩ := read_alike_of_added hcode hlast hopen
      exact ⟨hsame.symm, hnext.symm⟩

/-! ## Sources that differ in comments -/

/-- The lines of the two sources differ in commented text, in the modes that a
reading of the first goes through. -/
structure DifferInComments (source other : String) : Prop where
  length_eq : (lines source.toList).length = (lines other.toList).length
  sameCode : ∀ (index : ℕ) (line line' : List Char),
    (lines source.toList)[index]? = some line → (lines other.toList)[index]? = some line' →
      SameCode (sessionAt source index).mode line line'

/-- Two readings go through the same modes and find the same code. -/
theorem codeLines_run_congr {texts others : List (List Char)}
    (hlength : texts.length = others.length) {mode : Mode}
    (h : ∀ (index : ℕ) (line line' : List Char), texts[index]? = some line →
      others[index]? = some line' → SameCode (mode.after (texts.take index)) line line')
    (number : ℕ) : mode.codeLines number texts = mode.codeLines number others := by
  induction texts generalizing others mode number with
  | nil => rw [List.eq_nil_of_length_eq_zero hlength.symm]
  | cons line rest ih =>
      cases others with
      | nil => simp at hlength
      | cons line' rest' =>
          obtain ⟨hcode, hnext⟩ := (h 0 line line' rfl rfl).read_alike
          rw [List.take_zero, Mode.after_nil] at hcode hnext
          rw [Mode.codeLines, Mode.codeLines, hcode, hnext]
          congr 1
          -- Both readings go on in the same mode, so what is asked of the lines
          -- behind in the modes of the first reading holds from there.
          apply ih (Nat.succ.inj hlength)
          intro index fst snd hfst hsnd
          have hbehind := h (index + 1) fst snd hfst hsnd
          rwa [List.take_succ_cons, Mode.after_cons, hnext] at hbehind

/-- **Commented text has no influence on the report.** -/
theorem analyze_eq_of_differInComments {source other : String}
    (h : DifferInComments source other) : analyze source = analyze other := by
  apply analyze_congr
  apply codeLines_run_congr h.length_eq
  intro index line line' hline hline'
  rw [← mode_sessionAt]
  exact h.sameCode index line line' hline hline'

/-- Text behind `//` is changed and added, and the lines of a block comment lose
what stands around its marks. -/
theorem analyze_eq_of_differInComments_four_lines :
    DifferInComments "x = 1; // one\na /* b\nc */ d\nz" "x = 1; // two\n/*\n*/\nz// end" ∧
      analyze "x = 1; // one\na /* b\nc */ d\nz" =
        analyze "x = 1; // two\n/*\n*/\nz// end" := by
  have hdiffer :
      DifferInComments "x = 1; // one\na /* b\nc */ d\nz" "x = 1; // two\n/*\n*/\nz// end" := by
    have hlines : lines "x = 1; // one\na /* b\nc */ d\nz".toList =
        ["x = 1; ".toList ++ lineComment ++ " one".toList, "a /* b".toList, "c */ d".toList,
          "z".toList] := by decide
    have hothers : lines "x = 1; // two\n/*\n*/\nz// end".toList =
        ["x = 1; ".toList ++ lineComment ++ " two".toList, "/*".toList, "*/".toList,
          "z".toList ++ lineComment ++ " end".toList] := by decide
    refine ⟨by rw [hlines, hothers]; rfl, ?_⟩
    intro index line line' hline hline'
    rw [mode_sessionAt, hlines]
    rw [hlines] at hline
    rw [hothers] at hline'
    rcases index with _ | _ | _ | _ | index
    · obtain rfl := Option.some.inj hline
      obtain rfl := Option.some.inj hline'
      exact .comment (by decide) (by decide)
    · obtain rfl := Option.some.inj hline
      obtain rfl := Option.some.inj hline'
      exact .opening (by decide) (by decide)
    · obtain rfl := Option.some.inj hline
      obtain rfl := Option.some.inj hline'
      exact .inBlock (by decide)
    · obtain rfl := Option.some.inj hline
      obtain rfl := Option.some.inj hline'
      exact .added (by decide) (by decide) (by decide)
    · simp at hline
  exact ⟨hdiffer, analyze_eq_of_differInComments hdiffer⟩

end FlowLex
