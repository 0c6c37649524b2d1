import FlowLex.Proofs.Reading

/-!
# The session at a line

A line is read in the session that the lines in front of it leave behind. The
mode of that session and the line alone say what code the line has, so the code
of a source can be told for each line number by itself.
-/

namespace FlowLex

open Text

/-! ## Modes along the lines -/

/-- The mode after some lines. -/
def Mode.after (mode : Mode) (texts : List (List Char)) : Mode :=
  texts.foldl Mode.next mode

@[simp] theorem Mode.after_nil (mode : Mode) : mode.after [] = mode := rfl

theorem Mode.after_cons (mode : Mode) (text : List Char) (rest : List (List Char)) :
    mode.after (text :: rest) = (mode.next text).after rest := rfl

/-- The code of each line by itself. -/
theorem codeLines_run_eq (mode : Mode) (number : ℕ) (texts : List (List Char)) :
    mode.codeLines number texts = (List.range texts.length).filterMap fun index =>
      (texts[index]?.bind (mode.after (texts.take index)).codeOf?).map (number + index, ·) := by
  induction texts generalizing mode number with
  | nil => rfl
  | cons text rest ih =>
      rw [Mode.codeLines, ih, List.length_cons, List.range_succ_eq_map, List.filterMap_cons,
        List.filterMap_map]
      have hrest : ((fun index => (((text :: rest)[index]?).bind
            (mode.after ((text :: rest).take index)).codeOf?).map (number + index, ·)) ∘
              Nat.succ) =
          fun index => (rest[index]?.bind
            ((mode.next text).after (rest.take index)).codeOf?).map (number + 1 + index, ·) := by
        funext index
        simp [Mode.after_cons, Nat.add_assoc, Nat.add_comm 1]
      rw [hrest]
      cases h : mode.codeOf? text <;> simp [h]

/-- The code of lines put together is that of the first ones and, in the mode
after them, that of the others. -/
theorem codeLines_run_append (mode : Mode) (number : ℕ) (front back : List (List Char)) :
    mode.codeLines number (front ++ back) =
      mode.codeLines number front ++
        (mode.after front).codeLines (number + front.length) back := by
  induction front generalizing mode number with
  | nil => rfl
  | cons text front ih =>
      rw [List.cons_append, Mode.codeLines, ih, Mode.codeLines, Mode.after_cons,
        List.length_cons, Nat.add_assoc number 1, Nat.add_comm 1, List.append_assoc]

/-! ## Sessions along the lines -/

theorem readLines_append (session : Session) (number : ℕ) (front back : List (List Char)) :
    session.readLines number (front ++ back) =
      ((session.readLines number front).1 ++
          ((session.readLines number front).2.readLines (number + front.length) back).1,
        ((session.readLines number front).2.readLines (number + front.length) back).2) := by
  induction front generalizing session number with
  | nil => rfl
  | cons text front ih =>
      rw [List.cons_append, readLines_cons, ih, readLines_cons, List.length_cons,
        Nat.add_assoc number 1, Nat.add_comm 1, List.append_assoc]

theorem readLines_mode (session : Session) (number : ℕ) (texts : List (List Char)) :
    (session.readLines number texts).2.mode = session.mode.after texts := by
  induction texts generalizing session number with
  | nil => rfl
  | cons text rest ih => rw [readLines_cons, ih, readLine_mode, Mode.after_cons]

/-- The session in which a line is read, the lines counted from 0: what the lines
in front of it leave behind. -/
def sessionAt (source : String) (index : ℕ) : Session :=
  (Session.start.readLines 1 ((lines source.toList).take index)).2

theorem mode_sessionAt (source : String) (index : ℕ) :
    (sessionAt source index).mode = Mode.code.after ((lines source.toList).take index) :=
  readLines_mode _ _ _

theorem sessionAt_succ {source : String} {index : ℕ} {line : List Char}
    (h : (lines source.toList)[index]? = some line) :
    sessionAt source (index + 1) =
      ((sessionAt source index).readLine (index + 1) line).2 := by
  obtain ⟨hlt, -⟩ := List.getElem?_eq_some_iff.mp h
  have hlength : ((lines source.toList).take index).length = index :=
    List.length_take_of_le (Nat.le_of_lt hlt)
  rw [sessionAt, List.take_add_one, h, Option.toList_some, readLines_append, hlength,
    Nat.add_comm 1, readLines_cons]
  rfl

theorem mode_sessionAt_succ {source : String} {index : ℕ} {line : List Char}
    (h : (lines source.toList)[index]? = some line) :
    (sessionAt source (index + 1)).mode = (sessionAt source index).mode.next line := by
  rw [sessionAt_succ h, readLine_mode]

/-- The code of a source can be taken in two parts: that of the lines in front of a
place and that of the lines behind it, in the mode of the session there. -/
theorem codeLines_eq_append {source : String} {index : ℕ}
    (h : index ≤ (lines source.toList).length) :
    codeLines source =
      Mode.code.codeLines 1 ((lines source.toList).take index) ++
        (sessionAt source index).mode.codeLines (1 + index)
          ((lines source.toList).drop index) := by
  have happend := codeLines_run_append .code 1 ((lines source.toList).take index)
    ((lines source.toList).drop index)
  rw [List.take_append_drop, List.length_take_of_le h, ← mode_sessionAt] at happend
  exact happend

/-! ## Code by line number -/

/-- The code of the line with a given number; none for 0, for a number past the
last line and for a line without code. -/
def codeAt? (source : String) : ℕ → Option (List Char)
  | 0 => none
  | index + 1 => (lines source.toList)[index]?.bind (sessionAt source index).mode.codeOf?

theorem codeAt?_succ {source : String} {index : ℕ} {line : List Char}
    (h : (lines source.toList)[index]? = some line) :
    codeAt? source (index + 1) = (sessionAt source index).mode.codeOf? line := by
  rw [codeAt?, h, Option.bind_some]

/-- The code of a source is that of the lines in front of one of its lines, that of this
line, and that of the lines behind it in the mode that it leaves behind. -/
theorem codeLines_eq_around {source : String} {index : ℕ} {line : List Char}
    (hline : (lines source.toList)[index]? = some line) :
    codeLines source =
      Mode.code.codeLines 1 ((lines source.toList).take index) ++
        (((codeAt? source (index + 1)).map (index + 1, ·)).toList ++
          (sessionAt source (index + 1)).mode.codeLines (index + 2)
            ((lines source.toList).drop (index + 1))) := by
  obtain ⟨hlt, hget⟩ := List.getElem?_eq_some_iff.mp hline
  rw [codeLines_eq_append hlt.le, List.drop_eq_getElem_cons hlt, hget, Mode.codeLines,
    ← mode_sessionAt_succ hline, ← codeAt?_succ hline, Nat.add_comm 1 index]

/-- The code of a source, line number by line number. -/
theorem codeLines_eq (source : String) :
    codeLines source = (List.range' 1 (lines source.toList).length).filterMap fun number =>
      (codeAt? source number).map (number, ·) := by
  rw [codeLines, codeLines_run_eq, List.range'_eq_map_range, List.filterMap_map]
  congr 1
  funext index
  rw [Function.comp_apply, Nat.add_comm 1, codeAt?, mode_sessionAt]

/-- Only a line of the source has code. -/
theorem exists_line_of_codeAt? {source : String} {number : ℕ} {code : List Char}
    (h : codeAt? source number = some code) :
    ∃ index line, number = index + 1 ∧ (lines source.toList)[index]? = some line := by
  cases number with
  | zero => simp [codeAt?] at h
  | succ index =>
      obtain ⟨line, hline, -⟩ := Option.bind_eq_some_iff.mp h
      exact ⟨index, line, rfl, hline⟩

theorem mem_codeLines_iff {source : String} {piece : ℕ × List Char} :
    piece ∈ codeLines source ↔ codeAt? source piece.1 = some piece.2 := by
  rw [codeLines_eq, List.mem_filterMap]
  constructor
  · rintro ⟨number, -, hpiece⟩
    obtain ⟨code, hcode, rfl⟩ := Option.map_eq_some_iff.mp hpiece
    exact hcode
  · intro h
    obtain ⟨index, line, hnumber, hline⟩ := exists_line_of_codeAt? h
    obtain ⟨hlt, -⟩ := List.getElem?_eq_some_iff.mp hline
    refine ⟨piece.1, List.mem_range'_1.mpr (by omega), ?_⟩
    rw [h]
    rfl

/-- No two pieces of code have the same number. -/
theorem filter_codeLines (source : String) (number : ℕ) :
    (codeLines source).filter (·.1 == number) =
      ((codeAt? source number).map (number, ·)).toList := by
  have hmem : ∀ piece, piece ∈ (codeLines source).filter (·.1 == number) ↔
      piece ∈ ((codeAt? source number).map (number, ·)).toList := by
    rintro ⟨n, code⟩
    rw [List.mem_filter, mem_codeLines_iff, beq_iff_eq, Option.mem_toList,
      Option.map_eq_some_iff]
    constructor
    · rintro ⟨hcode, rfl⟩
      exact ⟨code, hcode, rfl⟩
    · rintro ⟨code', hcode, heq⟩
      obtain ⟨rfl, rfl⟩ := Prod.mk.inj heq
      exact ⟨hcode, rfl⟩
  cases h : codeAt? source number with
  | none =>
      rw [h] at hmem
      exact List.eq_nil_iff_forall_not_mem.mpr fun piece hpiece =>
        List.not_mem_nil ((hmem piece).mp hpiece)
  | some code =>
      rw [h] at hmem
      have hnodup : (codeLines source).Nodup := by
        apply (codeLines_increasing source).imp
        rintro a b hlt rfl
        exact Nat.lt_irrefl _ hlt
      exact List.perm_singleton.mp
        ((List.perm_ext_iff_of_nodup (hnodup.filter _) (List.nodup_singleton _)).mpr hmem)

end FlowLex
