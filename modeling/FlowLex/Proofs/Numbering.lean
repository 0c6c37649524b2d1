import FlowLex.Variables
import Mathlib.Data.List.Basic
import Mathlib.Data.List.Infix
import Mathlib.Data.List.Nodup
import Mathlib.Data.List.TakeWhile

/-!
# Numbering names

A table numbers each of its names by the place of the name. One name more keeps
this and leaves the entries in front alone, so it holds after any number of
names. The numbers are then ranks of first occurrence, and a number that has
been given is the same in every later table.
-/

namespace FlowLex

/-- The elements of a list are read back when each of them is. -/
theorem mapM_map_eq_some {α β : Type} {write : α → β} {read : β → Option α} {parts : List α}
    (h : ∀ a ∈ parts, read (write a) = some a) : (parts.map write).mapM read = some parts := by
  induction parts with
  | nil => rfl
  | cons a parts ih =>
      have hrest := ih fun b hb => h b (List.mem_cons_of_mem a hb)
      simp [h a List.mem_cons_self, hrest]

namespace Variables

/-- Every name is numbered by its place, counted from 1, and has one place. -/
structure WellNumbered (table : Variables) : Prop where
  nodup : table.names.Nodup
  id_eq : ∀ (i : ℕ) (v : Variable), table.entries[i]? = some v → v.id = i + 1

/-- All entries of `table` stand at the front of `later`. -/
def Extends (later table : Variables) : Prop := table.entries <+: later.entries

theorem wellNumbered_empty : WellNumbered empty := by
  constructor
  · exact List.nodup_nil
  · intro i v h
    simp [empty] at h

theorem Extends.refl (table : Variables) : table.Extends table :=
  List.prefix_refl _

theorem Extends.trans {a b c : Variables} (hab : a.Extends b) (hbc : b.Extends c) :
    a.Extends c :=
  List.IsPrefix.trans hbc hab

/-! ## Looking a name up -/

theorem get?_eq_none_iff {table : Variables} {name : String} :
    table.get? name = none ↔ name ∉ table.names := by
  simp only [get?, Option.map_eq_none_iff, List.find?_eq_none, names, List.mem_map,
    beq_iff_eq, not_exists, not_and]

theorem isSome_get? (table : Variables) (name : String) :
    (table.get? name).isSome = decide (name ∈ table.names) := by
  rw [Bool.eq_iff_iff, decide_eq_true_iff, Option.isSome_iff_ne_none, Ne, get?_eq_none_iff,
    not_not]

theorem mem_entries_of_get? {table : Variables} {name : String} {id : ℕ}
    (h : table.get? name = some id) : ⟨name, id⟩ ∈ table.entries := by
  rw [get?, Option.map_eq_some_iff] at h
  obtain ⟨v, hv, rfl⟩ := h
  have hname : v.name = name := by simpa using List.find?_some hv
  have hmem := List.mem_of_find?_eq_some hv
  rw [← hname]
  exact hmem

theorem get?_of_extends {table later : Variables} {name : String} {id : ℕ}
    (hext : later.Extends table) (h : table.get? name = some id) :
    later.get? name = some id := by
  obtain ⟨more, hmore⟩ := hext
  rw [get?, Option.map_eq_some_iff] at h
  obtain ⟨v, hv, rfl⟩ := h
  simp [get?, ← hmore, List.find?_append, hv]

theorem size_eq_length_names (table : Variables) : table.size = table.names.length := by
  simp [size, names]

/-! ## One name -/

theorem resolve_of_get? {table : Variables} {name : String} {id : ℕ}
    (h : table.get? name = some id) : table.resolve name = (id, table) := by
  simp [resolve, h]

theorem resolve_of_not_mem {table : Variables} {name : String}
    (h : name ∉ table.names) :
    table.resolve name =
      (table.size + 1, ⟨table.entries ++ [⟨name, table.size + 1⟩]⟩) := by
  simp [resolve, get?_eq_none_iff.mpr h]

theorem exists_get?_of_mem {table : Variables} {name : String}
    (h : name ∈ table.names) : ∃ id, table.get? name = some id := by
  cases hget : table.get? name with
  | none => exact absurd h (get?_eq_none_iff.mp hget)
  | some id => exact ⟨id, rfl⟩

theorem resolve_of_mem {table : Variables} {name : String} (h : name ∈ table.names) :
    (table.resolve name).2 = table := by
  obtain ⟨id, hid⟩ := exists_get?_of_mem h
  rw [resolve_of_get? hid]

/-- A name that has been met has the number it was given. -/
theorem get?_resolve (table : Variables) (name : String) :
    (table.resolve name).2.get? name = some (table.resolve name).1 := by
  by_cases h : name ∈ table.names
  · obtain ⟨id, hid⟩ := exists_get?_of_mem h
    rw [resolve_of_get? hid, hid]
  · have hnone := get?_eq_none_iff.mpr h
    rw [get?, Option.map_eq_none_iff] at hnone
    simp [resolve_of_not_mem h, get?, List.find?_append, hnone]

theorem fst_resolve (table : Variables) (name : String) :
    (table.resolve name).1 = (table.get? name).getD (table.size + 1) := by
  cases h : table.get? name <;> simp [resolve, h]

theorem get?_snd_resolve (table : Variables) (name other : String) :
    (table.resolve name).2.get? other =
      if name = other then some (table.resolve name).1 else table.get? other := by
  by_cases heq : name = other
  · rw [if_pos heq, ← heq, get?_resolve]
  · rw [if_neg heq]
    cases h : table.get? name with
    | some id => rw [resolve_of_get? h]
    | none =>
        rw [resolve_of_not_mem (get?_eq_none_iff.mp h)]
        simp [get?, List.find?_append, heq]

theorem resolve_extends (table : Variables) (name : String) :
    (table.resolve name).2.Extends table := by
  by_cases h : name ∈ table.names
  · rw [resolve_of_mem h]
    exact Extends.refl table
  · rw [resolve_of_not_mem h]
    exact List.prefix_append _ _

theorem entries_resolve (table : Variables) (name : String) :
    (table.resolve name).2.entries =
      if name ∈ table.names then table.entries
      else table.entries ++ [⟨name, table.size + 1⟩] := by
  by_cases h : name ∈ table.names
  · rw [resolve_of_mem h, if_pos h]
  · rw [resolve_of_not_mem h, if_neg h]

theorem names_resolve (table : Variables) (name : String) :
    (table.resolve name).2.names =
      if name ∈ table.names then table.names else table.names ++ [name] := by
  rw [names, entries_resolve]
  split
  · rfl
  · rw [List.map_append]
    rfl

theorem WellNumbered.resolve {table : Variables} (h : table.WellNumbered)
    (name : String) : (table.resolve name).2.WellNumbered := by
  by_cases hmem : name ∈ table.names
  · rw [resolve_of_mem hmem]
    exact h
  · refine ⟨?_, ?_⟩
    · rw [names_resolve, if_neg hmem]
      exact List.nodup_append.mpr ⟨h.nodup, List.nodup_singleton name,
        fun a ha b hb => by
          rw [List.mem_singleton] at hb
          rintro rfl
          exact hmem (hb ▸ ha)⟩
    · intro i v hv
      rw [resolve_of_not_mem hmem] at hv
      -- An old entry, the new one behind them, or none.
      rcases Nat.lt_trichotomy i table.entries.length with hlt | rfl | hgt
      · rw [List.getElem?_append_left hlt] at hv
        exact h.id_eq i v hv
      · rw [List.getElem?_concat_length, Option.some.injEq] at hv
        rw [← hv]
        rfl
      · rw [List.getElem?_eq_none (by simp; omega)] at hv
        simp at hv

theorem WellNumbered.get?_of_mem {table : Variables} (h : table.WellNumbered)
    {v : Variable} (hv : v ∈ table.entries) : table.get? v.name = some v.id := by
  have hname : v.name ∈ table.names := List.mem_map_of_mem hv
  obtain ⟨id, hid⟩ := exists_get?_of_mem hname
  have heq := List.inj_on_of_nodup_map h.nodup (mem_entries_of_get? hid) hv rfl
  rw [hid, ← heq]

/-- The entries are the names with the numbers that are looked up for them. -/
theorem WellNumbered.mapM_get? {table : Variables} (h : table.WellNumbered) :
    table.names.mapM (fun name => (table.get? name).map (Variable.mk name)) =
      some table.entries := by
  apply mapM_map_eq_some
  intro v hv
  rw [h.get?_of_mem hv, Option.map_some]

/-- Known names are told apart by their numbers. -/
theorem WellNumbered.resolve_eq_iff {table : Variables} (h : table.WellNumbered)
    {a b : String} (ha : a ∈ table.names) (hb : b ∈ table.names) :
    (table.resolve a).1 = (table.resolve b).1 ↔ a = b := by
  constructor
  · intro hid
    obtain ⟨i, hi⟩ := exists_get?_of_mem ha
    obtain ⟨j, hj⟩ := exists_get?_of_mem hb
    rw [resolve_of_get? hi, resolve_of_get? hj] at hid
    obtain ⟨m, hm⟩ := List.mem_iff_getElem?.mp (mem_entries_of_get? hi)
    obtain ⟨n, hn⟩ := List.mem_iff_getElem?.mp (mem_entries_of_get? hj)
    -- Equal numbers are equal places, and one place has one entry.
    obtain rfl : m = n := by
      have hmi : i = m + 1 := h.id_eq m _ hm
      have hnj : j = n + 1 := h.id_eq n _ hn
      omega
    rw [hm] at hn
    exact congrArg Variable.name (Option.some.inj hn)
  · rintro rfl
    rfl

/-- Every later table gives a name the number that it was given first. -/
theorem resolve_of_extends {table later : Variables} {name : String}
    (hext : later.Extends (table.resolve name).2) :
    (later.resolve name).1 = (table.resolve name).1 := by
  rw [resolve_of_get? (get?_of_extends hext (get?_resolve table name))]

/-! ## Names one after the other -/

/-- The table after meeting some more names, from left to right. -/
def learn (table : Variables) (met : List String) : Variables :=
  met.foldl (fun table name => (table.resolve name).2) table

@[simp] theorem learn_nil (table : Variables) : table.learn [] = table := rfl

theorem learn_cons (table : Variables) (name : String) (met : List String) :
    table.learn (name :: met) = (table.resolve name).2.learn met := rfl

theorem learn_append (table : Variables) (met more : List String) :
    table.learn (met ++ more) = (table.learn met).learn more := by
  unfold learn
  rw [List.foldl_append]

theorem learn_extends (table : Variables) (met : List String) :
    (table.learn met).Extends table := by
  induction met generalizing table with
  | nil => exact Extends.refl table
  | cons name met ih => exact (ih _).trans (resolve_extends table name)

theorem WellNumbered.learn {table : Variables} (h : table.WellNumbered)
    (met : List String) : (table.learn met).WellNumbered := by
  induction met generalizing table with
  | nil => exact h
  | cons name met ih => exact ih (h.resolve name)

/-- **Names stand in order of first occurrence**: behind the names known before
come the new ones, each once. -/
theorem names_learn (table : Variables) (met : List String) :
    (table.learn met).names =
      table.names ++ (met.removeAll table.names).eraseDups := by
  induction met generalizing table with
  | nil => simp
  | cons name met ih =>
      rw [learn_cons, ih, names_resolve]
      by_cases h : name ∈ table.names
      · rw [if_pos h]
        simp [List.removeAll, h]
      · -- A new name is put behind the known ones and is known from there on.
        have hrest : met.removeAll (table.names ++ [name]) =
            (met.removeAll table.names).filter fun b => !b == name := by
          simp only [List.removeAll, List.filter_filter]
          apply List.filter_congr
          intro b _
          by_cases hb : b = name <;> simp [hb]
        have hfirst : (name :: met).removeAll table.names =
            name :: met.removeAll table.names := by
          simp [List.removeAll, h]
        rw [if_neg h, hrest, hfirst, List.eraseDups_cons, List.append_assoc,
          List.singleton_append]

theorem names_learn_empty (met : List String) :
    (empty.learn met).names = met.eraseDups := by
  rw [names_learn]
  simp [names, empty]

theorem mem_append_removeAll {known met : List String} {name : String} (h : name ∈ met) :
    name ∈ known ++ met.removeAll known := by
  rw [List.mem_append]
  by_cases hold : name ∈ known
  · exact Or.inl hold
  · exact Or.inr (List.mem_filter.mpr ⟨h, by simpa using hold⟩)

theorem mem_names_learn {table : Variables} {met : List String} {name : String}
    (h : name ∈ met) : name ∈ (table.learn met).names := by
  rw [names_learn, List.mem_append, List.mem_eraseDups, ← List.mem_append]
  exact mem_append_removeAll h

/-! ## Ranks of first occurrence -/

/-- The number of a name when names are met one after the other: one more than there
are distinct names in front of its first occurrence. -/
def rank (met : List String) (name : String) : ℕ :=
  (met.takeWhile (· != name)).eraseDups.length + 1

/-- What comes behind a name has no part in its number. -/
theorem rank_append_of_mem {met : List String} {name : String} (h : name ∈ met)
    (more : List String) : rank (met ++ more) name = rank met name := by
  have hstop : (met.takeWhile (· != name)).length ≠ met.length := by
    intro hlen
    have hall := (List.takeWhile_prefix (· != name)).eq_of_length hlen
    simpa using List.takeWhile_eq_self_iff.mp hall name h
  rw [rank, rank, List.takeWhile_append, if_neg hstop]

theorem rank_append_of_not_mem {met : List String} {name : String} (h : name ∉ met)
    (more : List String) : rank (met ++ name :: more) name = met.eraseDups.length + 1 := by
  have hpos : ∀ other ∈ met, (other != name) = true := by
    intro other hother
    rw [bne_iff_ne]
    rintro rfl
    exact h hother
  rw [rank, List.takeWhile_append_of_pos hpos]
  simp

theorem size_learn_empty (met : List String) :
    (empty.learn met).size = met.eraseDups.length := by
  rw [size_eq_length_names, names_learn_empty]

theorem isEmpty_learn_empty (met : List String) :
    (empty.learn met).isEmpty = met.isEmpty := by
  have hnames : (empty.learn met).isEmpty = (empty.learn met).names.isEmpty := by
    rw [names, List.isEmpty_map, isEmpty]
  rw [hnames, names_learn_empty]
  cases met with
  | nil => rfl
  | cons name met => rw [List.eraseDups_cons, List.isEmpty_cons, List.isEmpty_cons]

/-- A table that starts empty numbers the names by rank. -/
theorem get?_learn_empty (met : List String) (name : String) :
    (empty.learn met).get? name = if name ∈ met then some (rank met name) else none := by
  induction met using List.reverseRecOn generalizing name with
  | nil => rfl
  | append_singleton met last ih =>
      -- The last name had its number before or takes the next one.
      have hlast : ((empty.learn met).resolve last).1 = rank (met ++ [last]) last := by
        rw [fst_resolve, ih, size_learn_empty]
        by_cases hold : last ∈ met
        · rw [if_pos hold, rank_append_of_mem hold, Option.getD_some]
        · rw [if_neg hold, rank_append_of_not_mem hold, Option.getD_none]
      rw [learn_append, learn_cons, learn_nil, get?_snd_resolve, hlast, ih]
      by_cases heq : last = name
      · simp [heq]
      · rw [if_neg heq]
        by_cases hold : name ∈ met
        · simp [hold, rank_append_of_mem hold]
        · simp [hold, Ne.symm heq]

theorem fst_resolve_learn_empty (met : List String) (name : String) :
    ((empty.learn met).resolve name).1 = rank (met ++ [name]) name := by
  have hget := get?_resolve (empty.learn met) name
  have hlearn : ((empty.learn met).resolve name).2 = empty.learn (met ++ [name]) := by
    rw [learn_append, learn_cons, learn_nil]
  rw [hlearn, get?_learn_empty, if_pos (by simp)] at hget
  exact (Option.some.inj hget).symm

theorem entries_learn_empty (met more : List String) :
    (empty.learn met).entries =
      met.eraseDups.map fun name => ⟨name, rank (met ++ more) name⟩ := by
  have hentry : ∀ v ∈ (empty.learn met).entries,
      (⟨v.name, rank (met ++ more) v.name⟩ : Variable) = v := by
    intro v hv
    have hget := (wellNumbered_empty.learn met).get?_of_mem hv
    have hmem : v.name ∈ met := by
      by_contra hnot
      rw [get?_learn_empty, if_neg hnot] at hget
      simp at hget
    rw [get?_learn_empty, if_pos hmem, Option.some.injEq] at hget
    rw [rank_append_of_mem hmem, hget]
  rw [← names_learn_empty, names, List.map_map]
  exact (List.map_congr_left hentry |>.trans (List.map_id _)).symm

/-! ## Tables side by side -/

/-- A table that has met some names before goes on like one that has not, but
without those names. -/
theorem names_resolve_beside {table beside : Variables} {known : List String}
    (h : table.names = known ++ beside.names.removeAll known) (name : String) :
    (table.resolve name).2.names =
      known ++ (beside.resolve name).2.names.removeAll known := by
  have hmem : name ∈ table.names ↔ name ∈ known ∨ name ∈ beside.names := by
    rw [h, List.mem_append, List.removeAll, List.mem_filter]
    simp
    tauto
  rw [names_resolve, names_resolve]
  by_cases hbeside : name ∈ beside.names
  · rw [if_pos hbeside, if_pos (hmem.mpr (Or.inr hbeside)), h]
  · -- The name is new beside; it is new here unless it was known before.
    have happend : (beside.names ++ [name]).removeAll known =
        beside.names.removeAll known ++ if name ∈ known then [] else [name] := by
      by_cases hknown : name ∈ known <;> simp [List.removeAll, List.filter_append, hknown]
    rw [if_neg hbeside, happend, ← List.append_assoc, ← h]
    by_cases hknown : name ∈ known
    · rw [if_pos hknown, if_pos (hmem.mpr (Or.inl hknown)), List.append_nil]
    · have hnew : name ∉ table.names := fun hin => (hmem.mp hin).elim hknown hbeside
      rw [if_neg hknown, if_neg hnew]

theorem names_learn_beside {table beside : Variables} {known : List String}
    (h : table.names = known ++ beside.names.removeAll known) (met : List String) :
    (table.learn met).names = known ++ (beside.learn met).names.removeAll known := by
  induction met generalizing table beside with
  | nil => exact h
  | cons name met ih => exact ih (names_resolve_beside h name)

/-- A table that goes on puts those names behind its own that are new to it, in the
order in which an empty table would list them. -/
theorem names_learn_beside_empty (table : Variables) (met : List String) :
    (table.learn met).names =
      table.names ++ (empty.learn met).names.removeAll table.names := by
  apply names_learn_beside
  simp [empty, names, List.removeAll]

end Variables

end FlowLex
