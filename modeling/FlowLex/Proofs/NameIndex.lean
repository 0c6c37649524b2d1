import FlowLex.NameIndex
import FlowLex.Proofs.Reading

/-!
# The two parts of an index stay together

An index holds the names of a table of variables and their numbers apart. Resolving
a name keeps the two parts in step with one and the same table, so an index that
starts empty answers every call as the table of the names resolved so far does. In
particular the map has a number for each name of the array, and the entries can
always be listed. They are the variables of a report once the names of its source have
been resolved.
-/

namespace FlowLex

/-- What a table answers to a call. -/
def Variables.answer (table : Variables) : NameIndex.Call → NameIndex.Answer
  | .resolve name => .number (table.resolve name).1
  | .get name => .found (table.get? name)
  | .size => .size table.size
  | .isEmpty => .isEmpty table.isEmpty
  | .entries => .entries table.entries

namespace NameIndex

/-- Both parts of the index are those of the table. -/
structure Represents (index : NameIndex) (table : Variables) : Prop where
  order_eq : index.order.toList = table.names
  get?_eq : ∀ name, index.get? name = table.get? name

theorem represents_empty : empty.Represents .empty := by
  refine ⟨rfl, ?_⟩
  intro name
  exact Std.HashMap.getElem?_empty

/-! ## One call -/

theorem fst_resolve (index : NameIndex) (name : String) :
    (index.resolve name).1 = (index.get? name).getD (index.size + 1) := by
  cases h : index.numbers[name]? <;> simp [resolve, get?, size, h]

theorem order_snd_resolve (index : NameIndex) (name : String) :
    (index.resolve name).2.order =
      if (index.get? name).isSome then index.order else index.order.push name := by
  cases h : index.numbers[name]? <;> simp [resolve, get?, h]

theorem get?_snd_resolve (index : NameIndex) (name other : String) :
    (index.resolve name).2.get? other =
      if name = other then some (index.resolve name).1 else index.get? other := by
  cases h : index.numbers[name]? with
  | some id =>
      by_cases heq : name = other
      · rw [← heq]
        simp [resolve, get?, h]
      · simp [resolve, get?, h, heq]
  | none => simp [resolve, get?, h, Std.HashMap.getElem?_insert]

section OneCall

variable {index : NameIndex} {table : Variables}

theorem Represents.size_eq (h : index.Represents table) : index.size = table.size := by
  rw [Variables.size_eq_length_names, ← h.order_eq, Array.length_toList, size]

theorem Represents.isEmpty_eq (h : index.Represents table) :
    index.isEmpty = table.isEmpty := by
  rw [isEmpty, ← Array.isEmpty_toList, h.order_eq, Variables.names, Variables.isEmpty,
    List.isEmpty_map]

theorem Represents.fst_resolve_eq (h : index.Represents table) (name : String) :
    (index.resolve name).1 = (table.resolve name).1 := by
  rw [fst_resolve, Variables.fst_resolve, h.get?_eq, h.size_eq]

/-- Resolving a name keeps the two parts in step. -/
theorem Represents.snd_resolve (h : index.Represents table) (name : String) :
    (index.resolve name).2.Represents (table.resolve name).2 := by
  refine ⟨?_, ?_⟩
  · rw [order_snd_resolve, Variables.names_resolve, h.get?_eq, Variables.isSome_get?]
    by_cases hold : name ∈ table.names
    · simp [hold, h.order_eq]
    · simp [hold, h.order_eq]
  · intro other
    rw [get?_snd_resolve, Variables.get?_snd_resolve, h.fst_resolve_eq, h.get?_eq]

/-- No name of the array is missing from the map. -/
theorem Represents.entries?_eq (h : index.Represents table) (hnum : table.WellNumbered) :
    index.entries? = some table.entries := by
  rw [← hnum.mapM_get?, ← h.order_eq, ← funext h.get?_eq]
  rfl

end OneCall

/-! ## Calls one after the other -/

/-- The name that a call resolves. -/
def Call.name? : Call → Option String
  | .resolve name => some name
  | _ => none

/-- The names that are resolved, in the order of the calls. -/
def resolvedIn (calls : List Call) : List String := calls.filterMap Call.name?

theorem resolvedIn_cons (call : Call) (calls : List Call) :
    resolvedIn (call :: calls) = call.name?.toList ++ resolvedIn calls := by
  cases call <;> rfl

theorem resolvedIn_append (calls more : List Call) :
    resolvedIn (calls ++ more) = resolvedIn calls ++ resolvedIn more :=
  List.filterMap_append

section Calls

variable {index : NameIndex} {table : Variables}

/-- An index answers a call as the table does that it represents. -/
theorem Represents.answer?_eq (h : index.Represents table) (hnum : table.WellNumbered)
    (call : Call) :
    ∃ later, index.answer? call = some (table.answer call, later) ∧
      later.Represents (table.learn call.name?.toList) := by
  cases call with
  | resolve name =>
      refine ⟨(index.resolve name).2, ?_, h.snd_resolve name⟩
      rw [Variables.answer, ← h.fst_resolve_eq]
      rfl
  | get name => exact ⟨index, by rw [answer?, Variables.answer, h.get?_eq], h⟩
  | size => exact ⟨index, by rw [answer?, Variables.answer, h.size_eq], h⟩
  | isEmpty => exact ⟨index, by rw [answer?, Variables.answer, h.isEmpty_eq], h⟩
  | entries =>
      refine ⟨index, ?_, h⟩
      rw [answer?, Variables.answer, h.entries?_eq hnum, Option.map_some]

theorem Represents.run_eq (h : index.Represents table) (hnum : table.WellNumbered)
    (calls : List Call) :
    ∃ later, index.run calls =
        some (calls.mapIdx fun i call =>
          (table.learn (resolvedIn (calls.take i))).answer call, later) ∧
      later.Represents (table.learn (resolvedIn calls)) := by
  induction calls generalizing index table with
  | nil => exact ⟨index, rfl, h⟩
  | cons call calls ih =>
      obtain ⟨next, hanswer, hnext⟩ := h.answer?_eq hnum call
      obtain ⟨later, hrun, hlater⟩ := ih hnext (hnum.learn _)
      refine ⟨later, ?_, ?_⟩
      · rw [run, hanswer]
        simp only [Option.bind_eq_bind, Option.bind_some, hrun, List.mapIdx_cons,
          List.take_succ_cons, resolvedIn_cons, Variables.learn_append]
        rfl
      · rw [resolvedIn_cons, Variables.learn_append]
        exact hlater

end Calls

/-- What is to be answered to a call when the names `before` have been resolved in
front of it and all calls together resolve the names `all`. The numbers depend on
`all` alone, so a name has the same one in every answer. -/
def Call.expected (before all : List String) : Call → Answer
  | .resolve name => .number (Variables.rank all name)
  | .get name => .found (if name ∈ before then some (Variables.rank all name) else none)
  | .size => .size before.eraseDups.length
  | .isEmpty => .isEmpty before.isEmpty
  | .entries => .entries (before.eraseDups.map fun name => ⟨name, Variables.rank all name⟩)

/-- What is to be answered to calls that are made one after the other. -/
def expectedAnswers (calls : List Call) : List Answer :=
  calls.mapIdx fun i call => call.expected (resolvedIn (calls.take i)) (resolvedIn calls)

theorem answer_learn_empty (before more : List String) (call : Call) :
    (Variables.empty.learn before).answer call =
      call.expected before (before ++ call.name?.toList ++ more) := by
  cases call with
  | resolve name =>
      have hmem : name ∈ before ++ [name] := by simp
      rw [Variables.answer, Variables.fst_resolve_learn_empty, Call.expected, Call.name?,
        Option.toList_some, Variables.rank_append_of_mem hmem]
  | get name =>
      rw [Variables.answer, Variables.get?_learn_empty, Call.expected]
      by_cases hold : name ∈ before
      · rw [List.append_assoc, Variables.rank_append_of_mem hold]
      · rw [if_neg hold, if_neg hold]
  | size => rw [Variables.answer, Variables.size_learn_empty, Call.expected]
  | isEmpty =>
      rw [Variables.answer, Variables.isEmpty_learn_empty, Call.expected]
  | entries =>
      rw [Variables.answer, List.append_assoc, Variables.entries_learn_empty, Call.expected]

theorem answers_learn_empty (calls : List Call) :
    (calls.mapIdx fun i call =>
      (Variables.empty.learn (resolvedIn (calls.take i))).answer call) =
        expectedAnswers calls := by
  rw [expectedAnswers, List.mapIdx_eq_mapIdx_iff]
  intro i hi
  -- The call stands between those before it and those behind it.
  have hall : resolvedIn calls =
      resolvedIn (calls.take i) ++ calls[i].name?.toList ++
        resolvedIn (calls.drop (i + 1)) := by
    rw [List.append_assoc, ← resolvedIn_cons, ← List.drop_eq_getElem_cons hi,
      ← resolvedIn_append, List.take_append_drop]
  rw [answer_learn_empty, ← hall]

/-! ## The two parts -/

/-- The array names every key of the map once, and the map numbers the names of the
array by their places, counted from 1. -/
structure InStep (index : NameIndex) : Prop where
  nodup : index.order.toList.Nodup
  mem_numbers_iff : ∀ name, name ∈ index.numbers ↔ name ∈ index.order
  number_eq : ∀ (i : ℕ) (name : String), index.order[i]? = some name →
    index.numbers[name]? = some (i + 1)

theorem Represents.inStep {index : NameIndex} {table : Variables}
    (h : index.Represents table) (hnum : table.WellNumbered) : index.InStep := by
  refine ⟨?_, ?_, ?_⟩
  · rw [h.order_eq]
    exact hnum.nodup
  · intro name
    have hget : index.numbers[name]? = table.get? name := h.get?_eq name
    rw [Std.HashMap.mem_iff_isSome_getElem?, hget, Variables.isSome_get?, decide_eq_true_iff,
      ← h.order_eq, Array.mem_toList_iff]
  · intro i name hname
    rw [← Array.getElem?_toList, h.order_eq, Variables.names, List.getElem?_map,
      Option.map_eq_some_iff] at hname
    obtain ⟨v, hv, rfl⟩ := hname
    rw [← hnum.id_eq i v hv, ← hnum.get?_of_mem (List.mem_of_getElem? hv)]
    exact h.get?_eq v.name

/-- **The two parts of an index never diverge.** An index that starts empty answers
whatever calls are made, listing its entries at any time included. Resolving a name
gives its rank among the names resolved, the same each time; a name is found, with
this number, from the call on that resolves it first; and the size is the number of
different names resolved before. Afterwards the array holds those names, each once and
in order of first occurrence, the map has a number for these names and no others, and
the number is the place in the array. The index is the table of these names in two
parts. -/
theorem run_empty_inStep (calls : List Call) :
    ∃ index : NameIndex,
      empty.run calls = some (expectedAnswers calls, index) ∧
      index.InStep ∧
      index.order.toList = (resolvedIn calls).eraseDups ∧
      index.Represents (Variables.empty.learn (resolvedIn calls)) := by
  have hnum := Variables.wellNumbered_empty
  obtain ⟨index, hrun, hindex⟩ := represents_empty.run_eq hnum calls
  rw [answers_learn_empty] at hrun
  refine ⟨index, hrun, hindex.inStep (hnum.learn _), ?_, hindex⟩
  rw [hindex.order_eq, Variables.names_learn_empty]

example : expectedAnswers
    [.resolve "b", .get "a", .resolve "a", .resolve "b", .get "a", .size, .entries] =
      [.number 1, .found none, .number 2, .number 1, .found (some 2), .size 2,
        .entries [⟨"b", 1⟩, ⟨"a", 2⟩]] := by
  decide

/-! ## The names of a source -/

theorem resolvedIn_map_resolve (names : List String) :
    resolvedIn (names.map .resolve) = names := by
  rw [resolvedIn, List.filterMap_map]
  exact List.filterMap_some

/-- The variables of a report are the entries of an index in which the names of the
source have been resolved from left to right. -/
theorem entries?_eq_vars (source : String) :
    ∃ answers index,
      empty.run ((namesIn (codeLines source)).map .resolve) = some (answers, index) ∧
      index.entries? = some (analyze source).vars := by
  have hnum := Variables.wellNumbered_empty
  obtain ⟨index, hrun, hindex⟩ := represents_empty.run_eq hnum
    ((namesIn (codeLines source)).map .resolve)
  rw [resolvedIn_map_resolve] at hindex
  refine ⟨_, index, hrun, ?_⟩
  rw [hindex.entries?_eq (hnum.learn _), vars_analyze, variablesOf]

end NameIndex

end FlowLex
