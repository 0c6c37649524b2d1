import FlowLex.Proofs.Reading

/-!
# Variable numbers are ranks of first occurrence

The variables of a report are the spellings of its variable tokens, each once
and in order of first occurrence, numbered from 1 without gaps. Rejected
lexemes and invalid lines have no part in this: every name in the code of a
source is a variable token, wherever it stands.
-/

namespace FlowLex

/-! ## The names of a source -/

/-- The variable tokens are the names in the code, each on its line. -/
theorem variableTokens_analyze (source : String) :
    ((analyze source).tokens.filter Token.isVariable).map Token.placed =
      (placedValues source).filter (isName ·.2) := by
  have hvar : (analyze source).tokens.filter Token.isVariable =
      (analyze source).tokens.filter ((isName ·.2) ∘ Token.placed) :=
    List.filter_congr fun _ ht => isVariable_of_mem_tokens ht
  rw [hvar, ← List.filter_map, placed_tokens, List.filter_filter]
  apply List.filter_congr
  intro placed _
  cases hname : isName placed.2 with
  | false => rfl
  | true => rw [isAccepted_of_isName hname, Bool.and_self]

theorem wellNumbered_variablesOf (source : String) : (variablesOf source).WellNumbered :=
  Variables.wellNumbered_empty.learn _

theorem names_variablesOf (source : String) :
    (variablesOf source).names =
      (((analyze source).tokens.filter Token.isVariable).map Token.value).eraseDups := by
  have hspell : ((analyze source).tokens.filter Token.isVariable).map Token.value =
      namesIn (codeLines source) := by
    rw [namesIn_codeLines, ← variableTokens_analyze, List.map_map]
    rfl
  rw [hspell]
  exact Variables.names_learn_empty _

/-- A variable token carries the number that the table gives its spelling. -/
theorem mem_vars_of_variableToken {source : String} {token : Token} {id : ℕ}
    (hmem : token ∈ (analyze source).tokens) (hid : token.kind = .name id) :
    ⟨token.value, id⟩ ∈ (analyze source).vars := by
  rw [analyze_eq] at hmem
  obtain ⟨hname, rfl⟩ := of_mem_tokens_of_name hmem hid
  -- The spelling is in the finished table, so the table looks it up.
  have hknown : token.value ∈ (variablesOf source).names := Variables.mem_names_learn hname
  obtain ⟨number, hget⟩ := Variables.exists_get?_of_mem hknown
  rw [vars_analyze, Variables.resolve_of_get? hget]
  exact Variables.mem_entries_of_get? hget

/-- **Variable numbers are ranks of first occurrence.** The variables of a
report are the distinct spellings of its variable tokens in order of first
occurrence, the entry at place `i`, counted from 1, has the number `i`, and each
variable token carries the number of its own spelling. A token spelled like a
name is a variable token, and the variable tokens are all the names in the code
of the source, those on invalid lines and behind a rejected lexeme included. -/
theorem vars_eq_first_occurrences (source : String) :
    (analyze source).vars.map Variable.name =
        (((analyze source).tokens.filter Token.isVariable).map Token.value).eraseDups ∧
      (∀ (i : ℕ) (v : Variable), (analyze source).vars[i]? = some v → v.id = i + 1) ∧
      (∀ token ∈ (analyze source).tokens, ∀ id, token.kind = .name id →
        ⟨token.value, id⟩ ∈ (analyze source).vars) ∧
      (∀ token ∈ (analyze source).tokens, Rule.isIdentifier token.value.toList →
        reserved? token.value = none → token.isVariable) ∧
      ((analyze source).tokens.filter Token.isVariable).map Token.placed =
        (placedValues source).filter (isName ·.2) := by
  refine ⟨?_, ?_, ?_, ?_, variableTokens_analyze source⟩
  · rw [vars_analyze]
    exact names_variablesOf source
  · rw [vars_analyze]
    exact (wellNumbered_variablesOf source).id_eq
  · intro token hmem id hid
    exact mem_vars_of_variableToken hmem hid
  · intro token hmem hshape hres
    rw [isVariable_of_mem_tokens hmem, isName, hshape, hres]
    rfl

end FlowLex
