import FlowLex.Proofs.Classification
import Mathlib

/-!
# Other names for the variables

Names are compared with each other and with the reserved words, and nothing else is
done with them. Lexemes that are classified one after the other therefore get the
same classes and numbers when the names among them are spelled otherwise, as long
as different names stay different and names stay names.
-/

namespace FlowLex

/-! ## Renamings -/

/-- Names are mapped to names, no two lexemes to the same one, and what is no name
stays what it is. -/
structure IsRenaming (f : String → String) : Prop where
  injective : Function.Injective f
  isName_map : ∀ value, isName value → isName (f value)
  map_eq_self : ∀ value, isName value = false → f value = value

def Token.rename (f : String → String) (token : Token) : Token :=
  { token with value := f token.value }

/-- The table with the same numbers for other names. -/
def Variables.rename (f : String → String) (table : Variables) : Variables :=
  ⟨table.entries.map fun v => { v with name := f v.name }⟩

theorem Variables.names_rename (f : String → String) (table : Variables) :
    (table.rename f).names = table.names.map f := by
  simp [names, rename]

theorem Variables.size_rename (f : String → String) (table : Variables) :
    (table.rename f).size = table.size := by
  simp [size, rename]

/-- Two names can be exchanged. -/
theorem isRenaming_swap {a b : String} (ha : isName a) (hb : isName b) :
    IsRenaming (Equiv.swap a b) := by
  refine ⟨(Equiv.swap a b).injective, ?_, ?_⟩
  · intro value hvalue
    by_cases heqa : value = a
    · rw [heqa, Equiv.swap_apply_left]
      exact hb
    · by_cases heqb : value = b
      · rw [heqb, Equiv.swap_apply_right]
        exact ha
      · rw [Equiv.swap_apply_of_ne_of_ne heqa heqb]
        exact hvalue
  · intro value hvalue
    apply Equiv.swap_apply_of_ne_of_ne
    · rintro rfl
      rw [ha] at hvalue
      exact Bool.noConfusion hvalue
    · rintro rfl
      rw [hb] at hvalue
      exact Bool.noConfusion hvalue

/-! ## One lexeme -/

section OneLexeme

variable {f : String → String} (table : Variables)

theorem get?_rename (hf : Function.Injective f) (name : String) :
    (table.rename f).get? (f name) = table.get? name := by
  have hsame : (fun v : Variable => f v.name == f name) = fun v => v.name == name := by
    funext v
    rw [Bool.eq_iff_iff, beq_iff_eq, beq_iff_eq]
    exact hf.eq_iff
  rw [Variables.get?, Variables.get?, Variables.rename, List.find?_map, Option.map_map]
  simp only [Function.comp_def, hsame]

/-- A renamed table gives a renamed name the number of the name. -/
theorem resolve_rename (hf : Function.Injective f) (name : String) :
    (table.rename f).resolve (f name) =
      ((table.resolve name).1, (table.resolve name).2.rename f) := by
  have hget := get?_rename table hf name
  cases h : table.get? name with
  | some id =>
      rw [h] at hget
      rw [Variables.resolve_of_get? hget, Variables.resolve_of_get? h]
  | none =>
      rw [h] at hget
      rw [Variables.resolve_of_not_mem (Variables.get?_eq_none_iff.mp hget),
        Variables.resolve_of_not_mem (Variables.get?_eq_none_iff.mp h),
        Variables.size_rename]
      simp [Variables.rename]

/-- A rejected lexeme is no name, so a renaming leaves the diagnostic alone. -/
theorem classify_rename (hf : IsRenaming f) (value : String) (line : ℕ) :
    classify (f value) line (table.rename f) =
      ((classify value line table).1.map (Token.rename f),
        (classify value line table).2.rename f) := by
  cases hname : isName value with
  | true =>
      rw [classify_name (hf.isName_map value hname), classify_name hname,
        resolve_rename table hf.injective]
      rfl
  | false =>
      have hfixed := hf.map_eq_self value hname
      rw [hfixed, classify_of_not_name hname line (table.rename f) table,
        classify_of_not_name hname line table table]
      cases hacc : isAccepted value with
      | false =>
          rw [classify_of_not_accepted hacc]
          rfl
      | true =>
          obtain ⟨kind, hok, -⟩ := classify_of_accepted hacc line table
          rw [hok]
          simp [Except.map, Token.rename, hfixed]

end OneLexeme

/-! ## Lexemes one after the other -/

/-- The outcomes of some lexemes and the table after them, each lexeme classified
under a line number of its own and the table that the one in front of it leaves. -/
def classifyInOrder (table : Variables) :
    List (String × ℕ) → List Outcome × Variables
  | [] => ([], table)
  | (value, line) :: rest =>
    let (outcome, table) := classify value line table
    let (outcomes, table) := classifyInOrder table rest
    (outcome :: outcomes, table)

theorem classifyInOrder_rename {f : String → String} (hf : IsRenaming f)
    (table : Variables) (steps : List (String × ℕ)) :
    classifyInOrder (table.rename f) (steps.map (Prod.map f id)) =
      ((classifyInOrder table steps).1.map (Except.map (Token.rename f)),
        (classifyInOrder table steps).2.rename f) := by
  induction steps generalizing table with
  | nil => rfl
  | cons step rest ih =>
      obtain ⟨value, line⟩ := step
      simp only [List.map_cons, Prod.map_apply, id_eq, classifyInOrder,
        classify_rename table hf, ih]

/-- **Classes depend on names only up to renaming.** Lexemes are classified in order,
the first of them under the empty table. When the names among them are renamed, the
same lexemes are rejected and the others get the same classes, numbers of variables
included. The table behind them lists the renamed names in the same order. -/
theorem classifyInOrder_renamed {f : String → String} (hf : IsRenaming f)
    (steps : List (String × ℕ)) :
    (classifyInOrder .empty (steps.map (Prod.map f id))).1 =
        (classifyInOrder .empty steps).1.map (Except.map (Token.rename f)) ∧
      (classifyInOrder .empty (steps.map (Prod.map f id))).2 =
        (classifyInOrder .empty steps).2.rename f ∧
      (classifyInOrder .empty (steps.map (Prod.map f id))).2.names =
        (classifyInOrder .empty steps).2.names.map f := by
  have hrun := classifyInOrder_rename hf .empty steps
  -- There is no name to rename in the empty table.
  rw [show Variables.empty.rename f = .empty from rfl] at hrun
  rw [hrun, Variables.names_rename]
  exact ⟨rfl, rfl, rfl⟩

/-- Two names change places around a reserved word, a rejected lexeme and a literal. -/
theorem classifyInOrder_renamed_swap :
    IsRenaming (Equiv.swap "a" "b") ∧
      (classifyInOrder .empty
          [("b", 1), ("show", 1), ("5a", 1), ("a", 2), ("b", 2), ("\"a\"", 7)]).1 =
        [.ok ⟨1, .name 1, "b"⟩, .ok ⟨1, .reserved .keyword, "show"⟩, .error ⟨"5a", 1, none⟩,
          .ok ⟨2, .name 2, "a"⟩, .ok ⟨2, .name 1, "b"⟩, .ok ⟨7, .string, "\"a\""⟩] ∧
      (classifyInOrder .empty
          [("b", 1), ("show", 1), ("5a", 1), ("a", 2), ("b", 2), ("\"a\"", 7)]).2.names =
        ["b", "a"] := by
  have hf : IsRenaming (Equiv.swap "a" "b") := isRenaming_swap (by decide) (by decide)
  obtain ⟨houtcomes, -, hnames⟩ := classifyInOrder_renamed hf
    [("a", 1), ("show", 1), ("5a", 1), ("b", 2), ("a", 2), ("\"a\"", 7)]
  have hsteps : [("a", 1), ("show", 1), ("5a", 1), ("b", 2), ("a", 2), ("\"a\"", 7)].map
      (Prod.map (Equiv.swap "a" "b") id) =
        [("b", 1), ("show", 1), ("5a", 1), ("a", 2), ("b", 2), ("\"a\"", 7)] := by
    decide
  rw [hsteps] at houtcomes hnames
  refine ⟨hf, houtcomes.trans ?_, hnames.trans ?_⟩
  · decide
  · decide

end FlowLex
