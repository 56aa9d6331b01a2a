import SharedTree.Table
import Mathlib.Data.List.Nodup
import Mathlib.Tactic.Common

/-!
# Entries and keys of tables

This file relates the two ways of looking at a table: looking up a key, and going through
the entries.
-/

namespace SharedTree

namespace Table

universe u v

variable {κ : Type u} {ν : Type v}

theorem keys_nodup (table : Table κ ν) : table.keys.Nodup := table.distinct

variable [DecidableEq κ]

theorem mem_entries_iff (table : Table κ ν) (key : κ) (value : ν) :
    (key, value) ∈ table.entries ↔ table.find? key = some value := by
  rcases table with ⟨entries, distinct⟩
  simp only [find?]
  induction entries with
  | nil => simp
  | cons entry rest ih =>
      simp only [List.map_cons, List.nodup_cons] at distinct
      by_cases same : entry.1 = key
      · have absent : (key, value) ∉ rest := by
          intro valueMem
          apply distinct.1
          rw [same]
          exact List.mem_map_of_mem valueMem
        rw [List.find?_cons_of_pos (by simpa using same)]
        simp only [List.mem_cons, absent, or_false, Option.map_some, Option.some.injEq]
        constructor
        · intro equal
          rw [← equal]
        · intro equal
          rw [← equal, ← same]
      · rw [List.find?_cons_of_neg (by simpa using same)]
        have other : (key, value) ≠ entry := by
          intro equal
          apply same
          rw [← equal]
        simp only [List.mem_cons, other, false_or]
        exact ih distinct.2

/-- The entries with a key, of which there is at most one. -/
theorem filter_entries_eq (table : Table κ ν) (key : κ) :
    (table.entries.filter fun entry => entry.1 = key) =
      ((table.find? key).map (Prod.mk key)).toList := by
  rcases table with ⟨entries, distinct⟩
  simp only [find?]
  induction entries with
  | nil => rfl
  | cons entry rest ih =>
      rw [List.map_cons, List.nodup_cons] at distinct
      by_cases same : entry.1 = key
      · have others : (rest.filter fun other => other.1 = key) = [] := by
          rw [List.filter_eq_nil_iff]
          intro other mem sameKey
          rw [decide_eq_true_eq] at sameKey
          exact distinct.1 (same.trans sameKey.symm ▸ List.mem_map_of_mem mem)
        rcases entry with ⟨_, value⟩
        cases same
        simp [others]
      · simp [same, ih distinct.2]

/-- In whatever order the entries are visited, one with a key is met at most once. -/
theorem filter_arrange_entries {κ ν : Type} [DecidableEq κ] (order : VisitOrder)
    (table : Table κ ν) (key : κ) :
    ((order.arrange table.entries).filter fun entry => entry.1 = key) =
      ((table.find? key).map (Prod.mk key)).toList := by
  have same := (order.perm table.entries).filter fun entry => entry.1 = key
  rw [filter_entries_eq] at same
  cases found : table.find? key with
  | none =>
      rw [found] at same
      exact same.eq_nil
  | some value =>
      rw [found] at same
      exact List.perm_singleton.mp same

theorem mem_keys_iff (table : Table κ ν) (key : κ) :
    key ∈ table.keys ↔ ∃ value, table.find? key = some value := by
  constructor
  · intro keyMem
    rcases List.mem_map.mp keyMem with ⟨⟨found, value⟩, entryMem, rfl⟩
    exact ⟨value, (mem_entries_iff table found value).mp entryMem⟩
  · rintro ⟨value, found⟩
    exact List.mem_map_of_mem (f := Prod.fst) ((mem_entries_iff table key value).mpr found)

theorem mem_values_iff (table : Table κ ν) (value : ν) :
    value ∈ table.values ↔ ∃ key, table.find? key = some value := by
  constructor
  · intro valueMem
    rcases List.mem_map.mp valueMem with ⟨⟨key, found⟩, entryMem, rfl⟩
    exact ⟨key, (mem_entries_iff table key found).mp entryMem⟩
  · rintro ⟨key, found⟩
    exact List.mem_map_of_mem (f := Prod.snd) ((mem_entries_iff table key value).mpr found)

theorem find?_filter (test : κ → ν → Bool) (table : Table κ ν) (key : κ) :
    (table.filter test).find? key = (table.find? key).filter (test key) := by
  apply Option.ext
  intro value
  rw [Option.filter_eq_some_iff, ← mem_entries_iff, ← mem_entries_iff, filter, List.mem_filter]

theorem find?_eq_none_iff (table : Table κ ν) (key : κ) :
    table.find? key = none ↔ key ∉ table.keys := by
  rw [mem_keys_iff, Option.eq_none_iff_forall_ne_some]
  simp

theorem contains_iff (table : Table κ ν) (key : κ) :
    table.contains key = true ↔ ∃ value, table.find? key = some value :=
  Option.isSome_iff_exists

theorem contains_eq_false_iff (table : Table κ ν) (key : κ) :
    table.contains key = false ↔ table.find? key = none := by
  rw [contains, Option.isSome_eq_false_iff, Option.isNone_iff_eq_none]

theorem isEmpty_iff (table : Table κ ν) :
    table.isEmpty = true ↔ ∀ key, table.find? key = none := by
  constructor
  · intro isEmpty key
    rw [find?_eq_none_iff, keys, List.isEmpty_iff.mp isEmpty]
    simp
  · intro absent
    rw [isEmpty, List.isEmpty_iff, List.eq_nil_iff_forall_not_mem]
    rintro ⟨key, value⟩ entryMem
    rw [mem_entries_iff, absent key] at entryMem
    cases entryMem

theorem eq_empty_iff (table : Table κ ν) :
    table = .empty ↔ ∀ key, table.find? key = none := by
  rw [← isEmpty_iff, isEmpty, List.isEmpty_iff]
  constructor
  · rintro rfl
    rfl
  · exact fun same => Table.ext same

/-! ## Changing entries -/

/-- Only what is done to the entries that there are counts. -/
theorem map_congr {change changed : κ → ν → ν} {table : Table κ ν}
    (same : ∀ key value, table.find? key = some value → change key value = changed key value) :
    table.map change = table.map changed := by
  apply Table.ext
  apply List.map_congr_left
  rintro ⟨key, value⟩ mem
  rw [same key value ((mem_entries_iff _ _ _).mp mem)]

theorem map_of_same {change : κ → ν → ν} {table : Table κ ν}
    (same : ∀ key value, table.find? key = some value → change key value = value) :
    table.map change = table := by
  apply (map_congr same).trans
  apply Table.ext
  simp [map]

theorem modify_congr {change changed : ν → ν} {table : Table κ ν} {key : κ}
    (same : ∀ value, table.find? key = some value → change value = changed value) :
    table.modify key change = table.modify key changed := by
  apply map_congr
  intro other value found
  split
  · next isKey => exact same value (isKey ▸ found)
  · rfl

/-- A change that leaves the entry of a key as it is leaves the table as it is. -/
theorem modify_eq_self {table : Table κ ν} {key : κ} {change : ν → ν}
    (same : ∀ value, table.find? key = some value → change value = value) :
    table.modify key change = table :=
  (modify_congr same).trans (map_of_same fun _ _ _ => ite_self _)

theorem modify_of_absent {table : Table κ ν} {key : κ} (absent : table.find? key = none)
    (change : ν → ν) : table.modify key change = table := by
  refine modify_eq_self fun value found => ?_
  rw [absent] at found
  cases found

/-- Changes of different entries, and changes that commute, can be made in any order. -/
theorem modify_comm {key other : κ} {change changed : ν → ν}
    (commutes : key = other → ∀ value, changed (change value) = change (changed value))
    (table : Table κ ν) :
    (table.modify key change).modify other changed =
      (table.modify other changed).modify key change := by
  apply Table.ext
  simp only [modify, map, List.map_map]
  apply List.map_congr_left
  intro entry _
  simp only [Function.comp_apply]
  by_cases isKey : entry.1 = key <;> by_cases isOther : entry.1 = other
  · simp only [if_pos isKey, if_pos isOther, commutes (isKey.symm.trans isOther)]
  · simp only [if_pos isKey, if_neg isOther]
  · simp only [if_neg isKey, if_pos isOther]
  · simp only [if_neg isKey, if_neg isOther]

theorem erase_modify (table : Table κ ν) (key : κ) (change : ν → ν) :
    (table.modify key change).erase key = table.erase key := by
  apply Table.ext
  simp only [erase, filter, modify, map, List.filter_map]
  refine (List.map_congr_left ?_).trans (List.map_id _)
  intro entry mem
  have differs := (List.mem_filter.mp mem).2
  rw [Function.comp_apply, decide_eq_true_eq] at differs
  rw [if_neg differs]
  rfl

theorem keys_erase (table : Table κ ν) (key : κ) :
    (table.erase key).keys = table.keys.erase key := by
  rw [table.keys_nodup.erase_eq_filter]
  simp only [erase, keys, filter, List.filter_map]
  congr 1
  apply List.filter_congr
  intro entry _
  by_cases same : entry.1 = key <;> simp [same]

theorem erase_of_absent {table : Table κ ν} {key : κ} (absent : table.contains key = false) :
    table.erase key = table := by
  apply Table.ext
  refine List.filter_eq_self.mpr fun entry mem => ?_
  rw [decide_eq_true_eq]
  rintro rfl
  have found := (mem_entries_iff table entry.1 entry.2).mp mem
  rw [contains, found] at absent
  cases absent

theorem contains_erase (table : Table κ ν) (erased key : κ) :
    (table.erase erased).contains key = true ↔ table.contains key = true ∧ key ≠ erased := by
  rw [contains, find?_erase, contains]
  split
  · next same => simp [same]
  · next differs => simp [differs]

theorem contains_insert (table : Table κ ν) (inserted : κ) (value : ν) (key : κ) :
    (table.insert inserted value).contains key = true ↔
      table.contains key = true ∨ key = inserted := by
  rw [contains, find?_insert, contains]
  split
  · next same => simp [same]
  · next differs => simp [differs]

theorem entries_insert_of_absent {table : Table κ ν} {key : κ} (value : ν)
    (absent : table.find? key = none) :
    (table.insert key value).entries = table.entries ++ [(key, value)] := by
  have unknown := (contains_eq_false_iff table key).mpr absent
  exact congrArg (·.entries ++ [(key, value)]) (erase_of_absent unknown)

theorem erase_insert_of_absent {table : Table κ ν} {key : κ} (value : ν)
    (absent : table.find? key = none) : (table.insert key value).erase key = table := by
  have unknown := (contains_eq_false_iff table key).mpr absent
  have others : table.entries.filter (fun entry => entry.1 ≠ key) = table.entries :=
    congrArg entries (erase_of_absent unknown)
  apply Table.ext
  show (table.insert key value).entries.filter (fun entry => entry.1 ≠ key) = table.entries
  rw [entries_insert_of_absent value absent, List.filter_append, others]
  simp

theorem find?_foldl_insert (table : Table κ ν) (value : ν) (inserted : List κ) (key : κ) :
    (inserted.foldl (fun table key => table.insert key value) table).find? key =
      if key ∈ inserted then some value else table.find? key := by
  induction inserted generalizing table with
  | nil => simp
  | cons first others ih =>
      rw [List.foldl_cons, ih, find?_insert]
      by_cases same : key = first
      · simp [same]
      · simp [same]

theorem entries_foldl_insert {table : Table κ ν} (value : ν) {inserted : List κ}
    (nodup : inserted.Nodup) (absent : ∀ key ∈ inserted, table.find? key = none) :
    (inserted.foldl (fun table key => table.insert key value) table).entries =
      table.entries ++ inserted.map (·, value) := by
  induction inserted generalizing table with
  | nil => simp
  | cons first others ih =>
      rw [List.nodup_cons] at nodup
      rw [List.forall_mem_cons] at absent
      have stillAbsent : ∀ key ∈ others, (table.insert first value).find? key = none := by
        intro key mem
        have differs : key ≠ first := fun same => nodup.1 (same ▸ mem)
        rw [find?_insert, if_neg differs]
        exact absent.2 key mem
      rw [List.foldl_cons, ih nodup.2 stillAbsent, entries_insert_of_absent value absent.1,
        List.append_assoc]
      rfl

theorem keys_insert_of_absent {table : Table κ ν} {key : κ} (value : ν)
    (absent : table.find? key = none) : (table.insert key value).keys = table.keys ++ [key] := by
  have kept : (table.erase key).keys = table.keys := by
    rw [keys_erase, List.erase_of_not_mem ((find?_eq_none_iff _ _).mp absent)]
  rw [← kept]
  simp [insert, keys]

omit [DecidableEq κ] in
theorem size_eq_length_keys (table : Table κ ν) : table.size = table.keys.length := by
  rw [size, keys, List.length_map]

theorem size_erase_of_found {table : Table κ ν} {key : κ} {value : ν}
    (found : table.find? key = some value) : (table.erase key).size + 1 = table.size := by
  have mem := (mem_keys_iff table key).mpr ⟨value, found⟩
  rw [size_eq_length_keys, size_eq_length_keys, keys_erase, List.length_erase_add_one mem]

theorem size_insert (table : Table κ ν) (key : κ) (value : ν) :
    (table.insert key value).size =
      if table.contains key then table.size else table.size + 1 := by
  have last : (table.insert key value).size = (table.erase key).size + 1 := by
    simp [size, insert]
  rw [last]
  split
  · next known =>
    rcases (contains_iff _ _).mp known with ⟨former, found⟩
    exact size_erase_of_found found
  · next unknown =>
    rw [Bool.not_eq_true, contains_eq_false_iff] at unknown
    rw [size_eq_length_keys, keys_erase, List.erase_of_not_mem ((find?_eq_none_iff _ _).mp unknown),
      size_eq_length_keys]

end Table

end SharedTree
