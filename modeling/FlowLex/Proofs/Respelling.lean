import FlowLex.Proofs.Reading
import Mathlib

/-!
# Writing a token stream down again

The tokens of a source are written down on lines of their own again, with any
blanks between and around them: line by line the spellings of its tokens, and a
blank line where there are none. Reading the result gives the tokens and the
variables back and finds nothing to object to, whatever the first source held
besides its tokens.
-/

namespace FlowLex

open Text

/-! ## Spaced lines -/

/-- The spellings in order, each with blanks behind it, at least one between two
of them. -/
inductive Spaced : List String → List Char → Prop
  | nil : Spaced [] []
  | cons {spelling : String} {more : List String} {gap text : List Char} :
      IsGap gap → (more ≠ [] → gap ≠ []) → Spaced more text →
      Spaced (spelling :: more) (spelling.toList ++ (gap ++ text))

/-- A line that holds the spellings, apart from each other, and blanks. -/
def IsSpacedLine (spellings : List String) (line : List Char) : Prop :=
  ∃ gap text, IsGap gap ∧ Spaced spellings text ∧ line = gap ++ text

/-- The spellings of the tokens on one line, from left to right. -/
def Report.spellingsOn (report : Report) (number : ℕ) : List String :=
  (report.tokens.filter (·.line == number)).map Token.value

/-- `respelled` has the lines of `source`, each of them made of the tokens that
`source` has on it. -/
structure Respelling (source respelled : String) : Prop where
  length_eq : (lines respelled.toList).length = (lines source.toList).length
  spaced : ∀ (index : ℕ) (line : List Char), (lines respelled.toList)[index]? = some line →
    IsSpacedLine ((analyze source).spellingsOn (index + 1)) line

/-! ## Reading a spaced line -/

/-- What follows a spelling ends it. -/
theorem Spaced.endsWord {more : List String} {gap text : List Char}
    (hgap : IsGap gap) (hsep : more ≠ [] → gap ≠ []) (h : Spaced more text) :
    EndsWord (gap ++ text) := by
  apply endsWord_gap_append hgap
  intro htext
  apply hsep
  rintro rfl
  cases h
  exact htext rfl

/-- An accepted spelling is a lexeme in front of anything that goes on with no
word character. -/
theorem isLexeme_of_isAccepted {spelling : String} (h : isAccepted spelling)
    {rest : List Char} (hrest : EndsWord rest) : IsLexeme spelling.toList rest := by
  rcases isAccepted_iff_shape.mp h with ⟨hword, -⟩ | ⟨content, hcontent, heq⟩ | ⟨c, hc, heq⟩
  · exact .word hword hrest
  · rw [heq]
    exact .literal hcontent
  · obtain ⟨hword, hblank, hquote⟩ := isSign_apart hc
    rw [heq]
    exact .alone hblank hword fun hq => absurd hq hquote

theorem Spaced.values_eq {spellings : List String} {text : List Char}
    (h : Spaced spellings text) (hacc : ∀ spelling ∈ spellings, isAccepted spelling) :
    values text = spellings := by
  induction h with
  | nil => exact values_nil
  | @cons spelling more gap text hgap hsep hmore ih =>
      have hlex : IsLexeme spelling.toList (gap ++ text) :=
        isLexeme_of_isAccepted (hacc spelling List.mem_cons_self) (hmore.endsWord hgap hsep)
      rw [values_lexeme hlex, values_gap_append hgap, String.ofList_toList,
        ih fun s hs => hacc s (List.mem_cons_of_mem _ hs)]

theorem IsSpacedLine.values_eq {spellings : List String} {line : List Char}
    (h : IsSpacedLine spellings line) (hacc : ∀ spelling ∈ spellings, isAccepted spelling) :
    values line = spellings := by
  obtain ⟨gap, text, hgap, htext, rfl⟩ := h
  rw [values_gap_append hgap, htext.values_eq hacc]

/-! ## No marker comes about -/

/-- Blanks keep the spellings apart, so two characters that are no blanks stand
side by side in one spelling or nowhere. -/
theorem Spaced.not_pair_infix {a b : Char} (ha : isBlank a = false)
    (hb : isBlank b = false) {spellings : List String} {text : List Char}
    (h : Spaced spellings text)
    (hspell : ∀ spelling ∈ spellings, ¬ [a, b] <:+: spelling.toList) :
    ¬ [a, b] <:+: text := by
  induction h with
  | nil => simp
  | @cons spelling more gap text hgap hsep hmore ih =>
      rw [pair_infix_append]
      have htext := ih fun s hs => hspell s (List.mem_cons_of_mem _ hs)
      rintro (hinf | hinf | ⟨-, hhead⟩)
      · exact hspell spelling List.mem_cons_self hinf
      · exact htext ((pair_infix_gap_append ha hgap text).mp hinf)
      · -- The pair would stand across the border, but a blank follows the
        -- spelling unless it is the last one.
        cases gap with
        | nil =>
            cases hmore with
            | nil => simp at hhead
            | cons _ _ _ => exact hsep (List.cons_ne_nil _ _) rfl
        | cons c gap =>
            obtain rfl := Option.some.inj hhead
            exact not_mem_gap hgap hb List.mem_cons_self

theorem IsSpacedLine.not_pair_infix {a b : Char} (ha : isBlank a = false)
    (hb : isBlank b = false) {spellings : List String} {line : List Char}
    (h : IsSpacedLine spellings line)
    (hspell : ∀ spelling ∈ spellings, ¬ [a, b] <:+: spelling.toList) :
    ¬ [a, b] <:+: line := by
  obtain ⟨gap, text, hgap, htext, rfl⟩ := h
  rw [pair_infix_gap_append ha hgap]
  exact htext.not_pair_infix ha hb hspell

/-! ## Spellings of a report -/

theorem placed_mem_of_mem_spellingsOn {source spelling : String} {number : ℕ}
    (h : spelling ∈ (analyze source).spellingsOn number) :
    (number, spelling) ∈ placedValues source ∧ isAccepted spelling := by
  rw [Report.spellingsOn, List.mem_map] at h
  obtain ⟨token, htoken, rfl⟩ := h
  rw [List.mem_filter, beq_iff_eq] at htoken
  have hmem := List.mem_map_of_mem (f := Token.placed) htoken.1
  rw [placed_tokens, List.mem_filter] at hmem
  rw [← htoken.2]
  exact hmem

/-- A spelling stands in the code of its line. -/
theorem exists_code_of_mem_spellingsOn {source spelling : String} {number : ℕ}
    (h : spelling ∈ (analyze source).spellingsOn number) :
    ∃ piece ∈ codeLines source, spelling.toList <:+: piece.2 := by
  obtain ⟨piece, hpiece, -, hvalue⟩ :=
    mem_placedValues.mp (placed_mem_of_mem_spellingsOn h).1
  obtain ⟨lexeme, hlex, rfl⟩ := List.mem_map.mp hvalue
  obtain ⟨front, back, heq, -, -⟩ := exists_append_of_mem_scanFrom hlex
  exact ⟨piece, hpiece, front, back, heq.symm⟩

/-- No spelling holds a comment marker, as the code it comes from holds none. -/
theorem not_marker_infix_spelling {source spelling : String} {number : ℕ}
    (h : spelling ∈ (analyze source).spellingsOn number) :
    ¬ blockOpen <:+: spelling.toList ∧ ¬ lineComment <:+: spelling.toList := by
  obtain ⟨piece, hpiece, hinf⟩ := exists_code_of_mem_spellingsOn h
  obtain ⟨index, line, -, -, hcode⟩ := mem_codeLines hpiece
  refine ⟨?_, ?_⟩
  · exact fun hmark => not_blockOpen_infix_code hcode (hmark.trans hinf)
  · exact fun hmark => not_lineComment_infix_code hcode (hmark.trans hinf)

theorem not_newline_mem_spelling {source spelling : String} {number : ℕ}
    (h : spelling ∈ (analyze source).spellingsOn number) : '\n' ∉ spelling.toList := by
  obtain ⟨piece, hpiece, hinf⟩ := exists_code_of_mem_spellingsOn h
  exact fun hmem => not_newline_mem_code hpiece (hinf.subset hmem)

/-! ## Sources without markers -/

/-- A line without comment markers gives its lexemes, whether or not anything is
left of it. -/
theorem placedValues_of_no_marker {line : List Char} (hblock : ¬ blockOpen <:+: line)
    (hline : ¬ lineComment <:+: line) (number : ℕ) :
    (((Mode.code.codeOf? line).map (number, ·)).toList.flatMap fun piece =>
        (values piece.2).map (piece.1, ·)) = (values line).map (number, ·) := by
  rw [codeOf?_of_no_marker hblock hline]
  by_cases htrim : trim line = []
  · rw [if_pos htrim, ← values_trim line, htrim]
    simp
  · rw [if_neg htrim]
    simp [values_trim]

theorem placedValues_run_of_no_marker {texts : List (List Char)} (number : ℕ)
    (h : ∀ line ∈ texts, ¬ blockOpen <:+: line ∧ ¬ lineComment <:+: line) :
    ((Mode.code.codeLines number texts).flatMap fun piece =>
        (values piece.2).map (piece.1, ·)) =
      (texts.zipIdx number).flatMap fun line => (values line.1).map (line.2, ·) := by
  induction texts generalizing number with
  | nil => rfl
  | cons line rest ih =>
      obtain ⟨hblock, hline⟩ := h line List.mem_cons_self
      rw [Mode.codeLines, List.flatMap_append, placedValues_of_no_marker hblock hline,
        next_of_no_marker hblock, ih (number + 1) fun t ht => h t (List.mem_cons_of_mem _ ht),
        List.zipIdx_cons, List.flatMap_cons]

/-! ## Lists in the order of their numbers -/

section Ordered

variable {α : Type} {items : List (ℕ × α)}

theorem filter_append_filter_of_ordered {start : ℕ}
    (hord : items.Pairwise fun a b => a.1 ≤ b.1) (hlow : ∀ item ∈ items, start ≤ item.1) :
    items.filter (·.1 == start) ++ items.filter (start < ·.1) = items := by
  induction items with
  | nil => rfl
  | cons item rest ih =>
      rw [List.pairwise_cons] at hord
      rcases Nat.eq_or_lt_of_le (hlow item List.mem_cons_self) with heq | hlt
      · have hrest := ih hord.2 fun i hi => hlow i (List.mem_cons_of_mem _ hi)
        rw [List.filter_cons_of_pos (by simp [heq]), List.filter_cons_of_neg (by simp [heq]),
          List.cons_append, hrest]
      · -- All numbers are larger, as those behind are no smaller than the first.
        have hall : ∀ i ∈ item :: rest, start < i.1 := by
          intro i hi
          rcases List.mem_cons.mp hi with rfl | hi
          · exact hlt
          · exact Nat.lt_of_lt_of_le hlt (hord.1 i hi)
        have hnone : (item :: rest).filter (·.1 == start) = [] := by
          rw [List.filter_eq_nil_iff]
          intro i hi
          have := hall i hi
          simp
          omega
        rw [hnone, List.nil_append, List.filter_eq_self]
        intro i hi
        exact decide_eq_true (hall i hi)

/-- A list in the order of its numbers is put together from its parts with one
number each. -/
theorem flatMap_filter_of_ordered {start count : ℕ}
    (hord : items.Pairwise fun a b => a.1 ≤ b.1)
    (hrange : ∀ item ∈ items, start ≤ item.1 ∧ item.1 < start + count) :
    ((List.range' start count).flatMap fun number => items.filter (·.1 == number)) = items := by
  induction count generalizing start items with
  | zero =>
      cases items with
      | nil => rfl
      | cons item rest =>
          have := hrange item List.mem_cons_self
          omega
  | succ count ih =>
      -- The numbers behind `start` give what is left when `start` is taken out.
      have hrest : ((List.range' (start + 1) count).flatMap fun number =>
          (items.filter (start < ·.1)).filter (·.1 == number)) = items.filter (start < ·.1) := by
        apply ih (hord.filter _)
        intro item hitem
        rw [List.mem_filter, decide_eq_true_eq] at hitem
        have := hrange item hitem.1
        omega
      have hlarger : ((List.range' (start + 1) count).flatMap fun number =>
          items.filter (·.1 == number)) = items.filter (start < ·.1) := by
        rw [← hrest]
        apply List.flatMap_congr
        intro number hnumber
        have hlt := (List.mem_range'_1.mp hnumber).1
        rw [List.filter_filter]
        apply List.filter_congr
        intro item _
        by_cases h : item.1 = number
        · simp [h]
          omega
        · simp [h]
      rw [List.range'_succ, List.flatMap_cons, hlarger]
      exact filter_append_filter_of_ordered hord fun item hitem => (hrange item hitem).1

end Ordered

/-! ## Reading it back -/

theorem map_spellingsOn (report : Report) (number : ℕ) :
    (report.spellingsOn number).map (number, ·) =
      (report.tokens.map Token.placed).filter (·.1 == number) := by
  rw [Report.spellingsOn, List.map_map, List.filter_map]
  apply List.map_congr_left
  intro token htoken
  have hline := (List.mem_filter.mp htoken).2
  rw [beq_iff_eq] at hline
  simp [Token.placed, hline]

theorem number_of_mem_placedValues {source : String} {placed : ℕ × String}
    (h : placed ∈ placedValues source) :
    1 ≤ placed.1 ∧ placed.1 < 1 + (lines source.toList).length := by
  obtain ⟨piece, hpiece, hline, -⟩ := mem_placedValues.mp h
  rw [← hline]
  exact number_of_mem_codeLines hpiece

/-- The lexemes of a respelled source are the accepted ones of the first. -/
theorem placedValues_respelled {source respelled : String} (h : Respelling source respelled) :
    placedValues respelled = (placedValues source).filter (isAccepted ·.2) := by
  have hline : ∀ line ∈ (lines respelled.toList).zipIdx 1,
      IsSpacedLine ((analyze source).spellingsOn line.2) line.1 := by
    intro line hmem
    obtain ⟨hnumber, hget⟩ := List.mem_zipIdx_iff_le_and_getElem?_sub.mp hmem
    have hspaced := h.spaced _ _ hget
    rw [Nat.sub_add_cancel hnumber] at hspaced
    exact hspaced
  have hmarker : ∀ line ∈ lines respelled.toList,
      ¬ blockOpen <:+: line ∧ ¬ lineComment <:+: line := by
    intro line hmem
    obtain ⟨index, hget⟩ := List.mem_iff_getElem?.mp hmem
    have hspaced := h.spaced index line hget
    refine ⟨hspaced.not_pair_infix (by decide) (by decide) ?_,
      hspaced.not_pair_infix (by decide) (by decide) ?_⟩
    · exact fun spelling hs => (not_marker_infix_spelling hs).1
    · exact fun spelling hs => (not_marker_infix_spelling hs).2
  have hord : ((placedValues source).filter (isAccepted ·.2)).Pairwise fun a b => a.1 ≤ b.1 :=
    (placedValues_ordered source).filter _
  -- Each line is read on its own, gives what the source has under its number,
  -- and the parts put together are the whole again.
  calc placedValues respelled
      = ((lines respelled.toList).zipIdx 1).flatMap fun line =>
          (values line.1).map (line.2, ·) := placedValues_run_of_no_marker 1 hmarker
    _ = ((lines respelled.toList).zipIdx 1).flatMap fun line =>
          ((placedValues source).filter (isAccepted ·.2)).filter (·.1 == line.2) := by
        apply List.flatMap_congr
        intro line hmem
        rw [(hline line hmem).values_eq fun s hs => (placed_mem_of_mem_spellingsOn hs).2,
          map_spellingsOn, placed_tokens]
    _ = (List.range' 1 (lines source.toList).length).flatMap fun number =>
          ((placedValues source).filter (isAccepted ·.2)).filter (·.1 == number) := by
        rw [← h.length_eq, ← List.zipIdx_map_snd 1 (lines respelled.toList), List.flatMap_map]
    _ = (placedValues source).filter (isAccepted ·.2) := by
        apply flatMap_filter_of_ordered hord
        intro placed hmem
        exact number_of_mem_placedValues (List.mem_filter.mp hmem).1

/-- Rejected lexemes are no names, so the table is the same. -/
theorem variablesOf_respelled {source respelled : String} (h : Respelling source respelled) :
    variablesOf respelled = variablesOf source := by
  have hnames : (placedValues respelled).filter (isName ·.2) =
      (placedValues source).filter (isName ·.2) := by
    rw [placedValues_respelled h, List.filter_filter]
    apply List.filter_congr
    intro placed _
    cases hname : isName placed.2 with
    | false => rfl
    | true => rw [isAccepted_of_isName hname, Bool.and_self]
  rw [variablesOf, variablesOf, namesIn_codeLines, namesIn_codeLines, hnames]

/-- Rejected lexemes become no tokens, so it makes no difference to leave them
out first. -/
theorem filterMap_tokenIn?_accepted (table : Variables) (lexemes : List (ℕ × String)) :
    (lexemes.filter (isAccepted ·.2)).filterMap (tokenIn? table) =
      lexemes.filterMap (tokenIn? table) := by
  rw [List.filterMap_filter]
  apply List.filterMap_congr
  intro placed _
  cases hacc : isAccepted placed.2 with
  | false => rw [tokenIn?_of_not_accepted hacc, if_neg Bool.false_ne_true]
  | true => rw [if_pos rfl]

theorem isOk_respelled {source respelled : String} (h : Respelling source respelled) :
    (analyze respelled).isOk := by
  rw [isOk_analyze_iff]
  intro piece hpiece value hvalue
  have hmem : (piece.1, value) ∈ placedValues respelled :=
    mem_placedValues.mpr ⟨piece, hpiece, rfl, hvalue⟩
  rw [placedValues_respelled h] at hmem
  exact (List.mem_filter.mp hmem).2

/-- **Reading a token stream again.** When the tokens of a source are written
down on their lines again, with any blanks around them, reading gives the same
tokens and variables and no errors. -/
theorem analyze_respelled {source respelled : String} (h : Respelling source respelled) :
    (analyze respelled).tokens = (analyze source).tokens ∧
      (analyze respelled).vars = (analyze source).vars ∧
      (analyze respelled).errors = [] := by
  refine ⟨?_, ?_, ?_⟩
  · rw [tokens_analyze, tokens_analyze, placedValues_respelled h, variablesOf_respelled h,
      filterMap_tokenIn?_accepted]
  · rw [vars_analyze, vars_analyze, variablesOf_respelled h]
  · exact List.isEmpty_iff.mp (isOk_respelled h)

/-- An operator no rule knows, a comment and an empty line leave tokens on two
lines, which are read again from lines with other blanks. -/
theorem analyze_respelled_other_blanks :
    Respelling "a @ b; // x\n\nc" "a  b\t;\n \n c" ∧
      (analyze "a  b\t;\n \n c").tokens = (analyze "a @ b; // x\n\nc").tokens := by
  have hresp : Respelling "a @ b; // x\n\nc" "a  b\t;\n \n c" := by
    have htokens : (analyze "a @ b; // x\n\nc").tokens =
        [⟨1, .name 1, "a"⟩, ⟨1, .name 2, "b"⟩, ⟨1, .semicolon, ";"⟩, ⟨3, .name 3, "c"⟩] := by
      cbv
    have hlines : lines "a  b\t;\n \n c".toList =
        ["a".toList ++ ([' ', ' '] ++ ("b".toList ++ (['\t'] ++ (";".toList ++ ([] ++ []))))),
          [' '] ++ [], [' '] ++ ("c".toList ++ ([] ++ []))] := by decide
    refine ⟨by decide, ?_⟩
    intro index line hget
    rw [hlines] at hget
    rcases index with _ | _ | _ | index
    · obtain rfl := Option.some.inj hget
      rw [Report.spellingsOn, htokens]
      refine ⟨[], _, isGap_nil, ?_, rfl⟩
      exact .cons (by decide) (by simp)
        (.cons (by decide) (by simp) (.cons isGap_nil (by simp) .nil))
    · obtain rfl := Option.some.inj hget
      rw [Report.spellingsOn, htokens]
      exact ⟨[' '], [], by decide, .nil, rfl⟩
    · obtain rfl := Option.some.inj hget
      rw [Report.spellingsOn, htokens]
      refine ⟨[' '], "c".toList ++ ([] ++ []), by decide, ?_, rfl⟩
      exact .cons isGap_nil (by simp) .nil
    · simp at hget
  exact ⟨hresp, (analyze_respelled hresp).1⟩

/-! ## One way to write it down -/

/-- The spellings with one blank behind each. -/
def spacedOut (spellings : List String) : List Char :=
  spellings.flatMap fun spelling => spelling.toList ++ [' ']

theorem spaced_spacedOut (spellings : List String) : Spaced spellings (spacedOut spellings) := by
  induction spellings with
  | nil => exact .nil
  | cons spelling more ih =>
      have hcons : spacedOut (spelling :: more) =
          spelling.toList ++ ([' '] ++ spacedOut more) := by
        simp [spacedOut]
      rw [hcons]
      exact .cons (by decide) (fun _ => List.cons_ne_nil _ _) ih

/-- The lines of a source with its tokens only, one blank behind each. -/
def respelledLines (source : String) : List (List Char) :=
  (List.range (lines source.toList).length).map fun index =>
    spacedOut ((analyze source).spellingsOn (index + 1))

/-- A source with the tokens of the first only. -/
def respell (source : String) : String :=
  String.ofList (['\n'].intercalate (respelledLines source))

theorem lines_respell (source : String) :
    lines (respell source).toList = respelledLines source := by
  rw [respell, String.toList_ofList]
  apply lines_intercalate
  · rw [respelledLines, Ne, List.map_eq_nil_iff, List.range_eq_nil, List.length_eq_zero_iff]
    exact lines_ne_nil _
  · intro text hmem hfeed
    obtain ⟨index, -, rfl⟩ := List.mem_map.mp hmem
    obtain ⟨spelling, hspelling, hin⟩ := List.mem_flatMap.mp hfeed
    rcases List.mem_append.mp hin with hin | hin
    · exact not_newline_mem_spelling hspelling hin
    · simp at hin

/-- Every source can be respelled. -/
theorem respelling_respell (source : String) : Respelling source (respell source) := by
  refine ⟨?_, ?_⟩
  · rw [lines_respell, respelledLines, List.length_map, List.length_range]
  · intro index line hget
    rw [lines_respell, respelledLines, List.getElem?_map, Option.map_eq_some_iff] at hget
    obtain ⟨number, hnumber, rfl⟩ := hget
    obtain rfl : index = number := by
      obtain ⟨hlt, heq⟩ := List.getElem?_eq_some_iff.mp hnumber
      rw [← heq, List.getElem_range]
    exact ⟨[], spacedOut _, isGap_nil, spaced_spacedOut _, (List.nil_append _).symm⟩

end FlowLex
