/-!
# Finite tables

A table holds at most one entry for each key. It is a list of pairs whose keys are distinct, newest
key last; that invariant is part of the type. The observations are `find?` (the entry of a key) and
`size`.

The order of the list matters only where a table is traversed. Where that shows, the order is not
specified: it is a parameter, a `VisitOrder`, so that what holds in every order can be stated.
-/

namespace SharedTree

/-- An order in which to visit the members of a collection. -/
structure VisitOrder where
  /-- The members in the order of visiting. -/
  arrange : {α : Type} → List α → List α
  /-- Every member is visited once. -/
  perm : ∀ {α : Type} (members : List α), (arrange members).Perm members

/-- Visits members in the order in which they are stored. -/
def VisitOrder.stored : VisitOrder := ⟨fun members => members, fun members => .refl members⟩

instance : Inhabited VisitOrder := ⟨.stored⟩

universe u v

/-- A finite map from keys to entries. -/
structure Table (κ : Type u) (ν : Type v) where
  /-- The entries with their keys. -/
  entries : List (κ × ν)
  /-- No key occurs twice. -/
  distinct : (entries.map Prod.fst).Nodup

namespace Table

variable {κ : Type u} {ν : Type v}

/-- Tables are equal when their entries are. -/
@[ext] theorem ext {left right : Table κ ν} (same : left.entries = right.entries) : left = right := by
  cases left; cases right; cases same; rfl

/-- The table without entries. -/
def empty : Table κ ν := ⟨[], List.nodup_nil⟩

instance : Inhabited (Table κ ν) := ⟨empty⟩

instance : EmptyCollection (Table κ ν) := ⟨empty⟩

/-- Number of entries. -/
def size (table : Table κ ν) : Nat := table.entries.length

/-- Whether there is no entry. -/
def isEmpty (table : Table κ ν) : Bool := table.entries.isEmpty

/-- The keys that have an entry. -/
def keys (table : Table κ ν) : List κ := table.entries.map Prod.fst

/-- All entries. -/
def values (table : Table κ ν) : List ν := table.entries.map Prod.snd

/-- The entries that satisfy a test. -/
def filter (test : κ → ν → Bool) (table : Table κ ν) : Table κ ν where
  entries := table.entries.filter fun entry => test entry.1 entry.2
  distinct := table.distinct.sublist (List.filter_sublist.map Prod.fst)

/-- Every entry changed by a function of its key and itself. -/
def map (change : κ → ν → ν) (table : Table κ ν) : Table κ ν where
  entries := table.entries.map fun entry => (entry.1, change entry.1 entry.2)
  distinct := by
    have : (table.entries.map fun entry => (entry.1, change entry.1 entry.2)).map Prod.fst =
        table.entries.map Prod.fst := by simp [Function.comp_def]
    rw [this]; exact table.distinct

variable [DecidableEq κ]

/-- The entry of a key. -/
def find? (table : Table κ ν) (key : κ) : Option ν :=
  (table.entries.find? fun entry => entry.1 = key).map Prod.snd

/-- Whether a key has an entry. -/
def contains (table : Table κ ν) (key : κ) : Bool := (table.find? key).isSome

/-- The table without the entry of a key. -/
def erase (table : Table κ ν) (key : κ) : Table κ ν :=
  table.filter fun other _ => other ≠ key

/-- The table with an entry for a key, which replaces the one the key had. -/
def insert (table : Table κ ν) (key : κ) (value : ν) : Table κ ν where
  entries := (table.erase key).entries ++ [(key, value)]
  distinct := by
    rw [List.map_append, List.nodup_append]
    refine ⟨(table.erase key).distinct, by simp, ?_⟩
    intro found foundMem other otherMem
    simp only [erase, filter, List.mem_map, List.mem_filter] at foundMem
    obtain ⟨entry, ⟨_, differs⟩, rfl⟩ := foundMem
    simp only [List.map_cons, List.map_nil, List.mem_singleton] at otherMem
    subst otherMem
    simpa using differs

/-- The table with the entry of a key, if there is one, changed in place. -/
def modify (table : Table κ ν) (key : κ) (change : ν → ν) : Table κ ν :=
  table.map fun other value => if other = key then change value else value

@[simp] theorem find?_empty (key : κ) : (empty : Table κ ν).find? key = none := rfl

omit [DecidableEq κ] in
@[simp] theorem size_empty : (empty : Table κ ν).size = 0 := rfl

theorem find?_filter_key (test : κ → Bool) (table : Table κ ν) (key : κ) :
    (table.filter fun other _ => test other).find? key =
      if test key then table.find? key else none := by
  simp only [find?, filter]
  induction table.entries with
  | nil => simp
  | cons entry rest ih =>
    by_cases same : entry.1 = key <;> by_cases kept : test key <;>
      grind

@[simp] theorem find?_erase (table : Table κ ν) (erased key : κ) :
    (table.erase erased).find? key = if key = erased then none else table.find? key := by
  have := find?_filter_key (fun other => decide (other ≠ erased)) table key
  simp only [erase]
  by_cases same : key = erased <;> simp_all

@[simp] theorem find?_insert (table : Table κ ν) (inserted : κ) (value : ν) (key : κ) :
    (table.insert inserted value).find? key =
      if key = inserted then some value else table.find? key := by
  have erased := find?_erase table inserted key
  simp only [find?, insert] at erased ⊢
  rw [List.find?_append, Option.map_or, erased]
  by_cases same : key = inserted
  · simp [same]
  · have other : ¬inserted = key := fun equal => same equal.symm
    simp [same, other]

@[simp] theorem find?_map (change : κ → ν → ν) (table : Table κ ν) (key : κ) :
    (table.map change).find? key = (table.find? key).map (change key) := by
  simp only [find?, map]
  induction table.entries with
  | nil => simp
  | cons entry rest ih => by_cases same : entry.1 = key <;> simp_all

@[simp] theorem find?_modify (table : Table κ ν) (modified : κ) (change : ν → ν) (key : κ) :
    (table.modify modified change).find? key =
      if key = modified then (table.find? key).map change else table.find? key := by
  by_cases same : key = modified <;> simp [modify, same]

end Table

end SharedTree
