import FlowLex.Proofs.Classification

/-!
# The order of the rules

Two rules accept one lexeme only when it is a reserved word, which has the shape of
an identifier too. The rules can therefore be tried in any order that has the one for
reserved words in front of the one for identifiers: a lexeme becomes the same, and
the table of variables too.
-/

namespace FlowLex

/-- All the rules, the one for reserved words in front of the one for identifiers. -/
structure IsRuleOrder (rules : List Rule) : Prop where
  perm : rules.Perm Rule.all
  reserved_first : rules.idxOf .reserved < rules.idxOf .identifier

section AnyOrder

variable {rules : List Rule}

theorem isRuleOrder_all : IsRuleOrder Rule.all :=
  ⟨List.Perm.refl _, by decide⟩

theorem IsRuleOrder.mem (h : IsRuleOrder rules) (rule : Rule) : rule ∈ rules :=
  h.perm.mem_iff.mpr (by cases rule <;> decide)

/-- The rule for reserved words is the first to accept them. -/
theorem IsRuleOrder.find?_of_reserved (h : IsRuleOrder rules) {value : String}
    (hres : Rule.accepts .reserved value) :
    rules.find? (·.accepts value) = some .reserved := by
  have hsome : (rules.find? (·.accepts value)).isSome :=
    List.find?_isSome.mpr ⟨.reserved, h.mem .reserved, hres⟩
  obtain ⟨found, hfind⟩ := Option.isSome_iff_exists.mp hsome
  obtain ⟨hfound, front, behind, heq, hfront⟩ := List.find?_eq_some_iff_append.mp hfind
  rcases (accepts_iff_of_reserved hres found).mp hfound with rfl | rfl
  · exact hfind
  · -- The rule for reserved words would have to stand behind the one that is found.
    have hnone : ∀ rule : Rule, rule.accepts value → rule ∉ front := by
      intro rule hacc hrule
      have hrejects := hfront rule hrule
      rw [hacc] at hrejects
      exact Bool.noConfusion hrejects
    have hfirst := h.reserved_first
    rw [heq, List.idxOf_append_of_notMem (hnone _ hres),
      List.idxOf_append_of_notMem (hnone _ hfound), List.idxOf_cons_self] at hfirst
    omega

/-- The first rule to accept a lexeme is the same in every order. -/
theorem IsRuleOrder.find?_eq (h : IsRuleOrder rules) (value : String) :
    rules.find? (·.accepts value) = Rule.all.find? (·.accepts value) := by
  cases hres : Rule.accepts .reserved value with
  | true => rw [h.find?_of_reserved hres, isRuleOrder_all.find?_of_reserved hres]
  | false =>
      by_cases hacc : ∃ rule : Rule, rule.accepts value
      · obtain ⟨rule, hrule⟩ := hacc
        rw [find?_accepts_of_not_reserved hres (h.mem rule) hrule,
          find?_accepts_of_not_reserved hres (isRuleOrder_all.mem rule) hrule]
      · have hnone : ∀ order : List Rule, order.find? (·.accepts value) = none := by
          intro order
          rw [List.find?_eq_none]
          exact fun rule _ hrule => hacc ⟨rule, hrule⟩
        rw [hnone, hnone]

theorem IsRuleOrder.classifyBy_eq (h : IsRuleOrder rules) (value : String) (line : ℕ)
    (table : Variables) :
    classifyBy rules value line table = classify value line table := by
  rw [classify, classifyBy, classifyBy, h.find?_eq]

end AnyOrder

/-! ## What becomes of a lexeme -/

section OneLexeme

variable (value : String) (line : ℕ) (table : Variables)

/-- Rejected are exactly the lexemes that no rule accepts. -/
theorem classify_eq_error_iff (d : Diagnostic) :
    (classify value line table).1 = .error d ↔
      (∀ rule : Rule, rule.accepts value = false) ∧ d = { lexeme := value, line } := by
  have hall : isAccepted value = false ↔ ∀ rule : Rule, rule.accepts value = false := by
    rw [← Bool.not_eq_true, isAccepted_iff, not_exists]
    simp only [Bool.not_eq_true]
  rw [← hall]
  cases hacc : isAccepted value with
  | true =>
      obtain ⟨kind, hok, -⟩ := classify_of_accepted hacc line table
      simp [hok]
  | false =>
      rw [classify_of_not_accepted hacc]
      simp [eq_comm]

theorem table_of_classify_of_not_variable
    (h : ∀ token, (classify value line table).1 = .ok token → token.isVariable = false) :
    (classify value line table).2 = table := by
  cases hname : isName value with
  | true =>
      have hvar := h _ (congrArg Prod.fst (classify_name hname line table))
      exact Bool.noConfusion hvar
  | false => rw [classify_of_not_name hname line table table]

end OneLexeme

/-- **The rules exclude each other.** Reserved words aside, at most one rule accepts a
lexeme; the rules that accept a reserved word are its own and the one for identifiers.
So all orders in which the first of these two stands in front of the other give the
same outcome and leave the same table. The outcome is a diagnostic exactly when no
rule accepts the lexeme. This and every token but a variable leave the table as it is.
A variable at most adds the lexeme at the end, and the names before it keep their
numbers. -/
theorem classifyBy_in_any_order {rules : List Rule} (horder : IsRuleOrder rules)
    (value : String) (line : ℕ) (table : Variables) :
    (∀ a b : Rule, a ≠ .reserved → b ≠ .reserved →
        a.accepts value → b.accepts value → a = b) ∧
      (Rule.accepts .reserved value →
        ∀ rule : Rule, rule.accepts value ↔ rule = .reserved ∨ rule = .identifier) ∧
      classifyBy rules value line table = classify value line table ∧
      (∀ d, (classify value line table).1 = .error d ↔
        (∀ rule : Rule, rule.accepts value = false) ∧ d = { lexeme := value, line }) ∧
      ((∀ token, (classify value line table).1 = .ok token → token.isVariable = false) →
        (classify value line table).2 = table) ∧
      (∀ token, (classify value line table).1 = .ok token → token.isVariable →
        (classify value line table).2.entries =
            (if value ∈ table.names then table.entries
              else table.entries ++ [⟨value, table.size + 1⟩]) ∧
          ∀ name id, table.get? name = some id →
            (classify value line table).2.get? name = some id) := by
  refine ⟨?_, accepts_iff_of_reserved, horder.classifyBy_eq value line table,
    classify_eq_error_iff value line table,
    table_of_classify_of_not_variable value line table, ?_⟩
  · intro a b ha hb hacca haccb
    exact Rule.eq_of_accepts ha hb hacca haccb
  · intro token hok hvar
    rw [isVariable_of_classify hok] at hvar
    rw [classify_name hvar]
    refine ⟨Variables.entries_resolve table value, ?_⟩
    intro name id hid
    exact Variables.get?_of_extends (Variables.resolve_extends table value) hid

/-- The rule for identifiers would accept a reserved word too; here all others but the
one for reserved words are tried before it. -/
theorem classifyBy_in_any_order_identifier_last :
    IsRuleOrder [.punctuation, .string, .operator, .reserved, .number, .identifier] ∧
      classifyBy [.punctuation, .string, .operator, .reserved, .number, .identifier]
        "show" 3 ⟨[⟨"x", 1⟩]⟩ = (.ok ⟨3, .reserved .keyword, "show"⟩, ⟨[⟨"x", 1⟩]⟩) ∧
      classifyBy [.punctuation, .string, .operator, .reserved, .number, .identifier]
        "y" 3 ⟨[⟨"x", 1⟩]⟩ = (.ok ⟨3, .name 2, "y"⟩, ⟨[⟨"x", 1⟩, ⟨"y", 2⟩]⟩) := by
  have horder :
      IsRuleOrder [.punctuation, .string, .operator, .reserved, .number, .identifier] :=
    ⟨by decide, by decide⟩
  obtain ⟨-, -, hshow, -⟩ := classifyBy_in_any_order horder "show" 3 ⟨[⟨"x", 1⟩]⟩
  obtain ⟨-, -, hname, -⟩ := classifyBy_in_any_order horder "y" 3 ⟨[⟨"x", 1⟩]⟩
  refine ⟨horder, hshow.trans ?_, hname.trans ?_⟩
  · decide
  · decide

/-- With these two the other way round a reserved word would become a name. -/
example : classifyBy [.identifier, .reserved, .number, .string, .operator, .punctuation]
    "show" 3 .empty ≠ classify "show" 3 .empty := by
  decide

end FlowLex
