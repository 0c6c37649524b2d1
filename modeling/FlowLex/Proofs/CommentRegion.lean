import FlowLex.Proofs.Accounting

/-!
# Block comments take regions of lines

Which lines block comments take can be told without going through the lines one
by one: a region opens at the first line with `/*` that is not yet covered and
ends at the first line with `*/` behind it, and the search goes on behind that.
The modes of a reading run along with these regions. So a line in a region gives
nothing at all, and any other line gives what stands in front of its first `//`.
-/

namespace FlowLex

open Text

/-! ## Regions -/

/-- Some lines in a row, by the numbers of the first and of the last. -/
structure Region where
  first : ℕ
  last : ℕ
  deriving DecidableEq, Repr

/-- The regions that block comments take of lines numbered from `number` on. The
next one opens at the first line that holds `/*` and ends at the first line
behind it that holds `*/`, or at the last line when there is none. -/
def regionsFrom (number : ℕ) (texts : List (List Char)) : List Region :=
  match _ : texts.findIdx? (holds blockOpen) with
  | none => []
  | some opened =>
    let behind := texts.drop (opened + 1)
    match behind.findIdx? (holds blockClose) with
    | none => [⟨number + opened, number + opened + behind.length⟩]
    | some closed =>
      ⟨number + opened, number + opened + 1 + closed⟩ ::
        regionsFrom (number + opened + 1 + closed + 1) (behind.drop (closed + 1))
termination_by texts.length
decreasing_by
  have hlt := (List.findIdx?_eq_some_iff_getElem.mp ‹_›).1
  simp only [List.length_drop]
  omega

/-- The number is that of a line in a region. -/
def Covered (regions : List Region) (number : ℕ) : Prop :=
  ∃ region ∈ regions, region.first ≤ number ∧ number ≤ region.last

instance (regions : List Region) (number : ℕ) : Decidable (Covered regions number) :=
  inferInstanceAs
    (Decidable (∃ region ∈ regions, region.first ≤ number ∧ number ≤ region.last))

/-- The region that has opened at line `first` and, from the line with `number` on,
what comes behind it. -/
def regionsBehind (first number : ℕ) (texts : List (List Char)) : List Region :=
  match texts.findIdx? (holds blockClose) with
  | none => [⟨first, number + texts.length - 1⟩]
  | some closed =>
    ⟨first, number + closed⟩ :: regionsFrom (number + closed + 1) (texts.drop (closed + 1))

theorem regionsFrom_eq (number : ℕ) (texts : List (List Char)) :
    regionsFrom number texts = match texts.findIdx? (holds blockOpen) with
      | none => []
      | some opened =>
        regionsBehind (number + opened) (number + opened + 1) (texts.drop (opened + 1)) := by
  rw [regionsFrom]
  split
  · next h => rw [h]
  · next opened h =>
      simp only [h, regionsBehind]
      split
      · have hlast : number + opened + (texts.drop (opened + 1)).length =
            number + opened + 1 + (texts.drop (opened + 1)).length - 1 := by omega
        rw [hlast]
      · rfl

theorem regionsFrom_cons_of_not_open {text : List Char} (h : holds blockOpen text = false)
    (number : ℕ) (rest : List (List Char)) :
    regionsFrom number (text :: rest) = regionsFrom (number + 1) rest := by
  rw [regionsFrom_eq, regionsFrom_eq, List.findIdx?_cons, h]
  cases rest.findIdx? (holds blockOpen) with
  | none => rfl
  | some opened =>
      have hmove : number + (opened + 1) = number + 1 + opened := by omega
      simp only [Bool.false_eq_true, if_false, Option.map_some, List.drop_succ_cons, hmove]

theorem regionsFrom_cons_of_open {text : List Char} (h : holds blockOpen text)
    (number : ℕ) (rest : List (List Char)) :
    regionsFrom number (text :: rest) = regionsBehind number (number + 1) rest := by
  rw [regionsFrom_eq, List.findIdx?_cons, h]
  rfl

theorem regionsBehind_cons_of_not_close {text : List Char} (h : holds blockClose text = false)
    (first number : ℕ) (rest : List (List Char)) :
    regionsBehind first number (text :: rest) = regionsBehind first (number + 1) rest := by
  rw [regionsBehind, regionsBehind, List.findIdx?_cons, h]
  cases rest.findIdx? (holds blockClose) with
  | none =>
      have hmove : number + (rest.length + 1) - 1 = number + 1 + rest.length - 1 := by omega
      simp only [Bool.false_eq_true, if_false, Option.map_none, List.length_cons, hmove]
  | some closed =>
      have hmove : number + (closed + 1) = number + 1 + closed := by omega
      simp only [Bool.false_eq_true, if_false, Option.map_some, List.drop_succ_cons, hmove]

theorem regionsBehind_cons_of_close {text : List Char} (h : holds blockClose text)
    (first number : ℕ) (rest : List (List Char)) :
    regionsBehind first number (text :: rest) =
      ⟨first, number⟩ :: regionsFrom (number + 1) rest := by
  rw [regionsBehind, List.findIdx?_cons, h]
  rfl

/-! ## Where regions lie -/

theorem exists_regionsBehind_eq_cons (first number : ℕ) (texts : List (List Char)) :
    ∃ last rest,
      regionsBehind first number texts = ⟨first, last⟩ :: rest ∧ number ≤ last + 1 := by
  rw [regionsBehind]
  cases texts.findIdx? (holds blockClose) with
  | none => exact ⟨_, [], rfl, by omega⟩
  | some closed => exact ⟨_, _, rfl, by omega⟩

theorem le_first_of_mem_regionsFrom {number : ℕ} {texts : List (List Char)} {region : Region}
    (h : region ∈ regionsFrom number texts) : number ≤ region.first := by
  induction number, texts using regionsFrom.induct with
  | case1 number texts hopen =>
      rw [regionsFrom_eq, hopen] at h
      exact absurd h List.not_mem_nil
  | case2 number texts opened hopen behind hclose =>
      have hnone : (texts.drop (opened + 1)).findIdx? (holds blockClose) = none := hclose
      simp only [regionsFrom_eq number, hopen, regionsBehind, hnone] at h
      obtain rfl := List.mem_singleton.mp h
      exact Nat.le_add_right _ _
  | case3 number texts opened hopen behind closed hclose ih =>
      have hsome : (texts.drop (opened + 1)).findIdx? (holds blockClose) = some closed := hclose
      simp only [regionsFrom_eq number, hopen, regionsBehind, hsome] at h
      rcases List.mem_cons.mp h with rfl | h
      · exact Nat.le_add_right _ _
      · have := ih h
        omega

/-! ## Modes run along with regions -/

/-- The regions of lines that are read in a mode; one that is open already has
opened at line `first`. -/
def Mode.regions (mode : Mode) (first number : ℕ) (texts : List (List Char)) : List Region :=
  match mode with
  | .code => regionsFrom number texts
  | .block => regionsBehind first number texts

theorem not_covered_regionsFrom {number k : ℕ} (hk : k < number) (texts : List (List Char)) :
    ¬ Covered (regionsFrom number texts) k := by
  rintro ⟨region, hmem, hfirst, -⟩
  have := le_first_of_mem_regionsFrom hmem
  omega

theorem covered_cons {region : Region} {regions : List Region} {number : ℕ} :
    Covered (region :: regions) number ↔
      (region.first ≤ number ∧ number ≤ region.last) ∨ Covered regions number :=
  List.exists_mem_cons_iff _ _ _

theorem covered_regionsBehind {first number k : ℕ} (hfirst : first ≤ k) (hk : k < number)
    (texts : List (List Char)) : Covered (regionsBehind first number texts) k := by
  obtain ⟨last, rest, heq, hlast⟩ := exists_regionsBehind_eq_cons first number texts
  rw [heq, covered_cons]
  exact Or.inl ⟨hfirst, Nat.le_of_lt_succ (Nat.lt_of_lt_of_le hk hlast)⟩

/-- The first line is in a region when one is open already or the line opens one. -/
theorem covered_first_iff {first number : ℕ} (hfirst : first ≤ number) (mode : Mode)
    (text : List Char) (rest : List (List Char)) :
    Covered (mode.regions first number (text :: rest)) number ↔
      mode = .block ∨ holds blockOpen text := by
  cases mode with
  | code =>
      cases hopen : holds blockOpen text with
      | true =>
          rw [Mode.regions, regionsFrom_cons_of_open hopen]
          simpa using covered_regionsBehind (Nat.le_refl _) (Nat.lt_succ_self _) rest
      | false =>
          rw [Mode.regions, regionsFrom_cons_of_not_open hopen]
          simpa using not_covered_regionsFrom (Nat.lt_succ_self _) rest
  | block =>
      cases hclose : holds blockClose text with
      | true =>
          rw [Mode.regions, regionsBehind_cons_of_close hclose, covered_cons]
          simp [hfirst]
      | false =>
          rw [Mode.regions, regionsBehind_cons_of_not_close hclose]
          simpa using covered_regionsBehind hfirst (Nat.lt_succ_self _) rest

/-- Behind the first line the regions are those of the next mode. -/
theorem covered_behind_iff {first number k : ℕ} (hfirst : first ≤ number) (hk : number < k)
    (mode : Mode) (text : List Char) (rest : List (List Char)) :
    ∃ first' ≤ number, (Covered (mode.regions first number (text :: rest)) k ↔
      Covered ((mode.next text).regions first' (number + 1) rest) k) := by
  cases mode with
  | code =>
      refine ⟨number, Nat.le_refl _, ?_⟩
      cases hopen : holds blockOpen text with
      | true =>
          rw [Mode.regions, regionsFrom_cons_of_open hopen, Mode.next, hopen]
          rfl
      | false =>
          rw [Mode.regions, regionsFrom_cons_of_not_open hopen, Mode.next, hopen]
          rfl
  | block =>
      refine ⟨first, hfirst, ?_⟩
      cases hclose : holds blockClose text with
      | true =>
          rw [Mode.regions, regionsBehind_cons_of_close hclose, Mode.next, hclose,
            covered_cons]
          exact or_iff_right fun h => Nat.not_le_of_gt hk h.2
      | false =>
          rw [Mode.regions, regionsBehind_cons_of_not_close hclose, Mode.next, hclose]
          rfl

/-- **Modes run along with regions.** A line is in a region when it is read inside
a block comment or opens one. -/
theorem covered_iff {texts : List (List Char)} {index : ℕ} {line : List Char}
    (hline : texts[index]? = some line) {first number : ℕ} (hfirst : first ≤ number)
    (mode : Mode) :
    Covered (mode.regions first number texts) (number + index) ↔
      mode.after (texts.take index) = .block ∨ holds blockOpen line := by
  -- Behind each line the regions are those of the next mode, and an open one has
  -- opened at or above it, so the bound on `first` is kept.
  induction texts generalizing mode first number index with
  | nil => simp at hline
  | cons text rest ih =>
      cases index with
      | zero =>
          obtain rfl := Option.some.inj hline
          exact covered_first_iff hfirst mode text rest
      | succ index =>
          have hlt : number < number + (index + 1) :=
            Nat.lt_add_of_pos_right (Nat.succ_pos index)
          obtain ⟨first', hfirst', hiff⟩ := covered_behind_iff hfirst hlt mode text rest
          rw [hiff, List.take_succ_cons, Mode.after_cons,
            ← ih hline (Nat.le_succ_of_le hfirst'), Nat.succ_add_eq_add_succ]

/-! ## The lines of a source -/

/-- The regions that block comments take of a source. -/
def commentRegions (source : String) : List Region := regionsFrom 1 (lines source.toList)

section Line

variable {source : String} {index : ℕ} {line : List Char}
  (hline : (lines source.toList)[index]? = some line)

include hline

theorem covered_commentRegions_iff :
    Covered (commentRegions source) (index + 1) ↔
      (sessionAt source index).mode = .block ∨ holds blockOpen line := by
  rw [mode_sessionAt, Nat.add_comm]
  exact covered_iff hline (Nat.le_refl 1) .code

theorem codeAt?_of_covered (h : Covered (commentRegions source) (index + 1)) :
    codeAt? source (index + 1) = none := by
  rw [codeAt?_succ hline]
  rcases (covered_commentRegions_iff hline).mp h with hmode | hopen
  · rw [hmode]
    rfl
  · cases (sessionAt source index).mode with
    | block => rfl
    | code => simp [Mode.codeOf?, hopen]

theorem codeAt?_of_not_covered (h : ¬ Covered (commentRegions source) (index + 1))
    {code : List Char} :
    codeAt? source (index + 1) = some code ↔
      code = trim (before lineComment line) ∧
        ∃ c ∈ before lineComment line, isBlank c = false := by
  rw [covered_commentRegions_iff hline, not_or, holds_iff_infix] at h
  obtain ⟨hmode, hopen⟩ := h
  have hcode : (sessionAt source index).mode = .code := by
    cases hm : (sessionAt source index).mode with
    | code => rfl
    | block => exact absurd hm hmode
  rw [codeAt?_succ hline, codeOf?_eq_some_iff, ← trim_ne_nil_iff]
  constructor
  · rintro ⟨-, -, rfl, hne⟩
    exact ⟨rfl, hne⟩
  · rintro ⟨rfl, hne⟩
    exact ⟨hcode, hopen, rfl, hne⟩

/-- A line without code leaves the variables as they are. -/
theorem table_sessionAt_succ (h : codeAt? source (index + 1) = none) :
    (sessionAt source (index + 1)).table = (sessionAt source index).table := by
  rw [codeAt?_succ hline] at h
  rw [sessionAt_succ hline, readLine_of_none h]

end Line

theorem mem_readSource_iff {source : String} {result : Line} :
    result ∈ (Session.start.readSource source).1 ↔
      ∃ code, codeAt? source result.number = some code ∧
        result =
          Line.ofCode (Session.start.readSource source).2.table (result.number, code) := by
  rw [readSource_lines, readSource_table, List.mem_map]
  constructor
  · rintro ⟨⟨number, code⟩, hpiece, rfl⟩
    exact ⟨code, mem_codeLines_iff.mp hpiece, rfl⟩
  · rintro ⟨code, hcode, heq⟩
    exact ⟨(result.number, code), mem_codeLines_iff.mpr hcode, heq.symm⟩

/-- The lines that give a result are those with code. -/
theorem exists_result_iff {source : String} {number : ℕ} :
    (∃ result ∈ (Session.start.readSource source).1, result.number = number) ↔
      ∃ code, codeAt? source number = some code := by
  simp only [mem_readSource_iff]
  constructor
  · rintro ⟨result, ⟨code, hcode, -⟩, rfl⟩
    exact ⟨code, hcode⟩
  · rintro ⟨code, hcode⟩
    exact ⟨Line.ofCode _ (number, code), ⟨code, hcode, rfl⟩, rfl⟩

/-- **Block comments take exactly their regions.** A line in a region gives no
line result, nothing in the report and no variable. In a line in no region `front` is
the text in front of the first `//`: the line gives a result exactly when a character
of it is no blank, and the result is then made of that text, trimmed. -/
theorem line_by_comment_region {source : String} {index : ℕ} {line : List Char}
    (hline : (lines source.toList)[index]? = some line) :
    (Covered (commentRegions source) (index + 1) →
      (∀ result ∈ (Session.start.readSource source).1, result.number ≠ index + 1) ∧
        (analyze source).tokensOn (index + 1) = [] ∧
        (analyze source).summariesOn (index + 1) = [] ∧
        (analyze source).errorsOn (index + 1) = [] ∧
        (analyze source).diagnosticsOn (index + 1) = [] ∧
        (sessionAt source (index + 1)).table = (sessionAt source index).table) ∧
      (¬ Covered (commentRegions source) (index + 1) →
        ∃ front, IsInFront lineComment line front ∧
          ((∃ result ∈ (Session.start.readSource source).1, result.number = index + 1) ↔
            ∃ c ∈ front, isBlank c = false) ∧
          ∀ result ∈ (Session.start.readSource source).1, result.number = index + 1 →
            result = Line.ofCode (Session.start.readSource source).2.table
              (index + 1, trim front)) := by
  refine ⟨fun hcovered => ?_, fun hcovered => ?_⟩
  · have hcode := codeAt?_of_covered hline hcovered
    have haccounts := accounts_analyze source (index + 1)
    rw [hcode] at haccounts
    obtain ⟨htokens, hsummaries, herrors, hdiagnostics⟩ := haccounts
    refine ⟨?_, htokens, hsummaries, herrors, hdiagnostics, table_sessionAt_succ hline hcode⟩
    intro result hresult hnumber
    obtain ⟨code, hsome⟩ := exists_result_iff.mp ⟨result, hresult, hnumber⟩
    exact absurd (hsome.symm.trans hcode) (Option.some_ne_none code)
  · refine ⟨before lineComment line, isInFront_before lineComment line, ?_, ?_⟩
    · rw [exists_result_iff]
      simp only [codeAt?_of_not_covered hline hcovered, exists_eq_left]
    · intro result hresult hnumber
      obtain ⟨code, hsome, heq⟩ := mem_readSource_iff.mp hresult
      rw [hnumber, codeAt?_of_not_covered hline hcovered] at hsome
      rw [heq, hnumber, hsome.1]

/-- The second line closes the comment that the first one opens, and the `/*`
behind opens none: the third line is read. -/
theorem line_by_comment_region_closing_line :
    Covered (commentRegions "a /* b\n*/ c /* d\ne // f") 2 ∧
      (analyze "a /* b\n*/ c /* d\ne // f").tokensOn 2 = [] ∧
      ¬ Covered (commentRegions "a /* b\n*/ c /* d\ne // f") 3 ∧
      ∃ result ∈ (Session.start.readSource "a /* b\n*/ c /* d\ne // f").1,
        result.number = 3 := by
  have hsecond : (lines "a /* b\n*/ c /* d\ne // f".toList)[1]? =
      some "*/ c /* d".toList := by decide
  have hthird : (lines "a /* b\n*/ c /* d\ne // f".toList)[2]? =
      some "e // f".toList := by decide
  have hregions : commentRegions "a /* b\n*/ c /* d\ne // f" = [⟨1, 2⟩] := by cbv
  have hin : Covered (commentRegions "a /* b\n*/ c /* d\ne // f") 2 := by
    rw [hregions]
    decide
  have hout : ¬ Covered (commentRegions "a /* b\n*/ c /* d\ne // f") 3 := by
    rw [hregions]
    decide
  refine ⟨hin, ((line_by_comment_region hsecond).1 hin).2.1, hout, ?_⟩
  obtain ⟨front, hfront, hiff, -⟩ := (line_by_comment_region hthird).2 hout
  have hvalue : front = "e ".toList := by
    rw [isInFront_iff.mp hfront]
    decide
  exact hiff.mpr ⟨'e', by rw [hvalue]; decide, by decide⟩

end FlowLex
