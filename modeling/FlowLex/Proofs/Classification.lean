import FlowLex.Proofs.Acceptance
import FlowLex.Proofs.Numbering

/-!
# Classes and the table of variables

The rule for identifiers is the one tried with success exactly on names, so a
lexeme adds itself to the table when it is a name and leaves the table alone
otherwise. What a lexeme becomes under a table it becomes under every later one.
A list of lexemes can therefore be classified in two goes: first the names are
numbered, then every lexeme is looked at under the table that results.
-/

namespace FlowLex

/-! ## The rule for identifiers -/

/-- The rule for identifiers is the first to accept exactly the names. -/
theorem find?_accepts_eq_identifier_iff {value : String} :
    Rule.all.find? (·.accepts value) = some .identifier ↔ isName value := by
  constructor
  · intro hfind
    have hid : Rule.accepts .identifier value :=
      List.find?_some (p := fun rule : Rule => rule.accepts value) hfind
    have hres : Rule.accepts .reserved value = false := by
      rw [← Bool.not_eq_true]
      intro hres
      simp [Rule.all, hres] at hfind
    rw [Rule.accepts, Option.isSome_eq_false_iff] at hres
    rw [Rule.accepts] at hid
    rw [isName, hid, hres, Bool.and_self]
  · intro hname
    rw [isName, Bool.and_eq_true] at hname
    obtain ⟨hid, hnone⟩ := hname
    have hres : Rule.accepts .reserved value = false := by
      rw [Rule.accepts, Option.isSome_eq_false_iff]
      exact hnone
    exact find?_accepts_of_not_reserved hres (by decide) hid

theorem find?_accepts_ne_identifier {value : String} (h : isName value = false) :
    Rule.all.find? (·.accepts value) ≠ some .identifier := by
  rw [Ne, find?_accepts_eq_identifier_iff, h]
  exact Bool.false_ne_true

/-! ## One lexeme -/

theorem classify_name {value : String} (h : isName value) (line : ℕ)
    (table : Variables) :
    classify value line table =
      (.ok ⟨line, .name (table.resolve value).1, value⟩, (table.resolve value).2) := by
  have hfind := find?_accepts_eq_identifier_iff.mpr h
  simp [classify, classifyBy, hfind, Rule.classOf]

/-- A lexeme that is no name becomes the same under every table, and every table
stays as it is. -/
theorem classify_of_not_name {value : String} (h : isName value = false) (line : ℕ)
    (table other : Variables) :
    classify value line table = ((classify value line other).1, table) := by
  cases hfind : Rule.all.find? (·.accepts value) with
  | none => simp [classify, classifyBy, hfind]
  | some rule =>
      cases rule with
      | identifier => exact absurd hfind (find?_accepts_ne_identifier h)
      | _ => simp [classify, classifyBy, hfind, Rule.classOf]

theorem classify_table (value : String) (line : ℕ) (table : Variables) :
    (classify value line table).2 = table.learn ([value].filter isName) := by
  cases h : isName value with
  | false =>
      rw [classify_of_not_name h line table table]
      simp [h]
  | true =>
      rw [classify_name h, List.filter_cons_of_pos h, List.filter_nil,
        Variables.learn_cons, Variables.learn_nil]

theorem classify_of_extends {value : String} {line : ℕ} {table later : Variables}
    (hext : later.Extends (classify value line table).2) :
    (classify value line later).1 = (classify value line table).1 := by
  cases h : isName value with
  | false => rw [classify_of_not_name h line later table]
  | true =>
      rw [classify_name h] at hext
      rw [classify_name h, classify_name h, Variables.resolve_of_extends hext]

/-- The rule for strings is the first to accept a literal. -/
theorem classify_literal {content : List Char} (hcontent : '"' ∉ content) (line : ℕ)
    (table : Variables) :
    classify (String.ofList (stringLiteral content)) line table =
      (.ok ⟨line, .string, String.ofList (stringLiteral content)⟩, table) := by
  have hstring : Rule.accepts .string (String.ofList (stringLiteral content)) :=
    isString_iff.mpr ⟨content, hcontent, String.toList_ofList⟩
  have hres : Rule.accepts .reserved (String.ofList (stringLiteral content)) = false := by
    rw [← Bool.not_eq_true]
    intro hres
    have hrule := (accepts_iff_of_reserved hres .string).mp hstring
    simp at hrule
  have hfind : Rule.all.find? (·.accepts (String.ofList (stringLiteral content))) =
      some .string := find?_accepts_of_not_reserved hres (by decide) hstring
  simp [classify, classifyBy, hfind, Rule.classOf]

theorem classify_of_not_accepted {value : String} (h : isAccepted value = false)
    (line : ℕ) (table : Variables) :
    (classify value line table).1 = .error { lexeme := value, line } := by
  rw [isAccepted, List.any_eq_false] at h
  have hfind : Rule.all.find? (·.accepts value) = none := by
    rw [List.find?_eq_none]
    exact h
  simp [classify, classifyBy, hfind]

/-- An accepted lexeme becomes a token with its line and its spelling, numbered
as a variable exactly when it is a name. -/
theorem classify_of_accepted {value : String} (h : isAccepted value) (line : ℕ)
    (table : Variables) :
    ∃ kind, (classify value line table).1 = .ok ⟨line, kind, value⟩ ∧
      ∀ id, kind = .name id ↔ isName value ∧ id = (table.resolve value).1 := by
  cases hname : isName value with
  | true =>
      refine ⟨.name (table.resolve value).1, by rw [classify_name hname], ?_⟩
      intro id
      rw [TokenClass.name.injEq]
      simp [eq_comm]
  | false =>
      obtain ⟨rule, hrule, hacc⟩ := List.any_eq_true.mp h
      have hsome : (Rule.all.find? (·.accepts value)).isSome :=
        List.find?_isSome.mpr ⟨rule, hrule, hacc⟩
      obtain ⟨found, hfind⟩ := Option.isSome_iff_exists.mp hsome
      refine ⟨(found.classOf value table).1, by simp [classify, classifyBy, hfind], ?_⟩
      intro id
      simp only [Bool.false_eq_true, false_and, iff_false]
      cases found with
      | identifier => exact absurd hfind (find?_accepts_ne_identifier hname)
      | punctuation =>
          simp only [Rule.classOf]
          split <;> simp
      | _ => simp [Rule.classOf]

/-- The token is numbered as a variable. -/
def Token.isVariable (token : Token) : Bool :=
  match token.kind with
  | .name _ => true
  | _ => false

theorem Token.isVariable_iff {token : Token} :
    token.isVariable ↔ ∃ id, token.kind = .name id := by
  unfold Token.isVariable
  cases token.kind <;> simp

/-- The tokens numbered as variables are made of the names. -/
theorem isVariable_of_classify {value : String} {line : ℕ} {table : Variables} {token : Token}
    (h : (classify value line table).1 = .ok token) : token.isVariable = isName value := by
  cases hacc : isAccepted value with
  | false =>
      rw [classify_of_not_accepted hacc] at h
      exact nomatch h
  | true =>
      obtain ⟨kind, hok, hkind⟩ := classify_of_accepted hacc line table
      obtain rfl := Except.ok.inj (h.symm.trans hok)
      rw [Bool.eq_iff_iff, Token.isVariable_iff]
      constructor
      · rintro ⟨id, hid⟩
        exact ((hkind id).mp hid).1
      · intro hname
        exact ⟨_, (hkind _).mpr ⟨hname, rfl⟩⟩

/-! ## Lexemes one after the other -/

/-- What becomes of a lexeme of a line when `table` numbers the names. -/
def Lexeme.outcome (lexeme : Lexeme) (line : ℕ) (table : Variables) : Outcome :=
  (classify lexeme.value line table).1.mapError
    ({ · with column := some lexeme.column })

theorem outcome_of_accepted {lexeme : Lexeme} (h : isAccepted lexeme.value) (line : ℕ)
    (table : Variables) : ∃ token, lexeme.outcome line table = .ok token := by
  obtain ⟨kind, hok, -⟩ := classify_of_accepted h line table
  exact ⟨⟨line, kind, lexeme.value⟩, by rw [Lexeme.outcome, hok]; rfl⟩

theorem outcome_of_not_accepted {lexeme : Lexeme} (h : isAccepted lexeme.value = false)
    (line : ℕ) (table : Variables) :
    lexeme.outcome line table =
      .error { lexeme := lexeme.value, line, column := some lexeme.column } := by
  rw [Lexeme.outcome, classify_of_not_accepted h]
  rfl

theorem classifyAll_table (line : ℕ) (table : Variables) (lexemes : List Lexeme) :
    (classifyAll line table lexemes).2 =
      table.learn ((lexemes.map Lexeme.value).filter isName) := by
  induction lexemes generalizing table with
  | nil => rfl
  | cons lexeme rest ih =>
      show (classifyAll line (classify lexeme.value line table).2 rest).2 = _
      rw [ih, classify_table, ← Variables.learn_append, ← List.filter_append]
      rfl

/-- **Classifying in two goes.** The outcomes of the lexemes of a line are those
under any table that goes on from the one the line leaves behind. -/
theorem classifyAll_outcomes {line : ℕ} {table later : Variables}
    {lexemes : List Lexeme}
    (hext : later.Extends (classifyAll line table lexemes).2) :
    (classifyAll line table lexemes).1 = lexemes.map (·.outcome line later) := by
  induction lexemes generalizing table with
  | nil => rfl
  | cons lexeme rest ih =>
      -- The table after the first lexeme lies between the two.
      have hrest : later.Extends
          (classifyAll line (classify lexeme.value line table).2 rest).2 := hext
      have hfirst : later.Extends (classify lexeme.value line table).2 := by
        refine hrest.trans ?_
        rw [classifyAll_table]
        exact Variables.learn_extends _ _
      show (classify lexeme.value line table).1.mapError _ ::
        (classifyAll line (classify lexeme.value line table).2 rest).1 = _
      rw [List.map_cons, ih hrest, Lexeme.outcome, classify_of_extends hfirst]

end FlowLex
