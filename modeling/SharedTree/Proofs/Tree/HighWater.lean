import SharedTree.Proofs.Tree.Custody
import SharedTree.Proofs.Tree.FlatStore
import Mathlib.Data.List.Dedup
import Mathlib.Order.Bounds.Defs

/-!
# How many uuids are used up

The count of the uuid pool goes on only when no uuid that waits can be handed out again, and then
every uuid below it belongs to a property that exists: it is live, or somebody holds it although it
has been deleted. So the count is the high-water mark of the properties that existed at the same
time. Requests that fail use nothing up, nothing is lost by deleting, and the uuids run out only
while all of them are in use.

The pool knows a former owner by its handle. The argument needs that this handle cannot come to
mean another property, which is what `Tree.Recalled` says.
-/

namespace SharedTree

namespace UuidPool

variable {ι : Type} {pool rest : UuidPool ι} {exists? : ι → Bool} {uuid : Uuid}

theorem waiting_of_take (taken : pool.take exists? = (some uuid, rest)) :
    rest.waiting ⊆ pool.waiting := by
  rcases take_eq_some taken with ⟨before, owner, after, split, _, rfl⟩ | ⟨_, _, rfl⟩
  · intro entry mem
    simp only [split, List.mem_append, List.mem_cons] at mem ⊢
    tauto
  · exact fun _ mem => mem

theorem find?_eq_none_iff :
    (pool.waiting.find? fun entry => !exists? entry.2) = none ↔
      ∀ entry ∈ pool.waiting, exists? entry.2 = true := by
  simp

/-- The count goes on only when the owner of every uuid that waits still exists. -/
theorem exists_of_next_ne (taken : pool.take exists? = (some uuid, rest))
    (goesOn : rest.next ≠ pool.next) : ∀ entry ∈ rest.waiting, exists? entry.2 = true := by
  unfold take at taken
  split at taken
  · cases taken
    exact absurd rfl goesOn
  · next noneFree =>
    split at taken
    · cases taken
      exact find?_eq_none_iff.mp noneFree
    · cases taken

theorem exists_of_take_eq_none (exhausted : (pool.take exists?).1 = none) :
    ∀ entry ∈ pool.waiting, exists? entry.2 = true := by
  unfold take at exhausted
  split at exhausted
  · cases exhausted
  · next noneFree => exact find?_eq_none_iff.mp noneFree

end UuidPool

namespace Tree

open Operation (outcome_cases)

/-- Number of properties in existence, the root excepted: the live ones, and the deleted ones that
somebody holds. -/
def existing (state : Tree × List Handle) : Nat :=
  state.1.size + (state.2.dedup.filter fun handle => !state.1.isLive handle).length

/-- One thing that happens to a tree and to the references that callers hold: a request to create or
delete a property, whether it fails or not, a reference taken or dropped, or a change of payloads and
watchers. -/
inductive Step : Tree × List Handle → Tree × List Handle → Prop where
  | create (tree : Tree) (held : List Handle) (path : String) (kind : PropertyKind)
      (payload : Bytes) (owner : SessionId) :
      Step (tree, held) ((tree.create path kind payload owner).2, held)
  | delete (tree : Tree) (held : List Handle) (path : String) :
      Step (tree, held) ((tree.delete path).2, held)
  | hold {tree : Tree} {held : List Handle} {handle : Handle}
      (found : tree.exists? handle = true) :
      Step (tree, held) (tree.hold handle, handle :: held)
  | release {tree : Tree} {held : List Handle} {handle : Handle} (mine : handle ∈ held) :
      Step (tree, held) (tree.release handle, held.erase handle)
  | overwrite (tree : Tree) (held : List Handle) (handle : Handle) (data : Bytes) :
      Step (tree, held) (tree.overwrite handle data, held)
  | rewatch (tree : Tree) (held : List Handle) (handle : Handle)
      (change : Table SessionId Observer → Table SessionId Observer) :
      Step (tree, held) (tree.mapWatchers handle change, held)

/-- The states that a tree that was new has gone through, up to the present one, which is the
last. -/
inductive Passes : List (Tree × List Handle) → Tree × List Handle → Prop where
  | new : Passes [(Tree.new, [])] (Tree.new, [])
  | step {states : List (Tree × List Handle)} {state next : Tree × List Handle}
      (before : Passes states state) (step : Step state next) : Passes (states ++ [next]) next

variable {tree next : Tree} {held : List Handle}

/-! ## What the pool knows of former owners -/

/-- A former owner that exists is the property that had the uuid. -/
structure Recalled (tree : Tree) : Prop where
  bounded : ∀ entry ∈ tree.pool.waiting, entry.2 < tree.nextHandle
  same : ∀ entry ∈ tree.pool.waiting, ∀ property, tree.property? entry.2 = some property →
    property.uuid = entry.1

namespace Recalled

theorem new : Tree.new.Recalled :=
  ⟨by simp [Tree.new, UuidPool.fresh], by simp [Tree.new, UuidPool.fresh]⟩

/-- Whatever has been in existence for longer may change, as long as it keeps its uuid. -/
theorem of_older (recalled : tree.Recalled) (waiting : next.pool.waiting ⊆ tree.pool.waiting)
    (later : tree.nextHandle ≤ next.nextHandle)
    (older : ∀ handle property, handle < tree.nextHandle → next.property? handle = some property →
      ∃ before, tree.property? handle = some before ∧ property.uuid = before.uuid) :
    next.Recalled := by
  refine ⟨?_, ?_⟩
  · intro entry waits
    exact Nat.lt_of_lt_of_le (recalled.bounded entry (waiting waits)) later
  · intro entry waits property found
    have waited := waiting waits
    rcases older _ _ (recalled.bounded entry waited) found with ⟨before, beforeFound, same⟩
    exact same.trans (recalled.same entry waited before beforeFound)

theorem alike (recalled : tree.Recalled) (alike : tree.Alike next) : next.Recalled := by
  apply recalled.of_older
  · rw [alike.pool]
    exact fun _ mem => mem
  · exact Nat.le_of_eq alike.nextHandle
  · intro handle property _ found
    rcases alike.symm.exists_property found with ⟨before, beforeFound, bareEq⟩
    exact ⟨before, beforeFound, (Property.eq_of_bare_eq bareEq).1.symm⟩

theorem create (recalled : tree.Recalled) {path : String} {kind : PropertyKind} {payload : Bytes}
    {owner : SessionId} {info : PropertyInfo}
    (success : tree.create path kind payload owner = (.ok info, next)) : next.Recalled := by
  rcases create_eq_ok success with ⟨_, _, _, _, _, _, found, _, _, rfl⟩
  apply recalled.of_older
  · exact UuidPool.waiting_of_take found.taken
  · exact Nat.le_succ _
  · intro handle property older isThere
    rcases old_of_property?_attach isThere (Nat.ne_of_lt older) with ⟨before, beforeFound, same⟩
    exact ⟨before, beforeFound, same.uuid⟩

theorem delete (recalled : tree.Recalled) (linked : tree.Linked) {path : String} {uuid : Uuid}
    (success : tree.delete path = (.ok uuid, next)) : next.Recalled := by
  rcases delete_eq_ok success with ⟨ancestors, name, parent, handle, property, found, _, rfl⟩
  have detachable := found.detachable
  refine ⟨?_, ?_⟩
  · intro entry waits
    rcases List.mem_append.mp waits with old | last
    · exact recalled.bounded entry old
    · rw [List.mem_singleton.mp last]
      exact linked.bounded _ _ detachable.found
  · intro entry waits left leftFound
    rcases old_of_property?_detach leftFound with ⟨before, beforeFound, same⟩
    rw [same.uuid]
    rcases List.mem_append.mp waits with old | last
    · exact recalled.same entry old before beforeFound
    · rw [List.mem_singleton.mp last, detachable.found] at beforeFound
      cases beforeFound
      rw [List.mem_singleton.mp last]

theorem release (recalled : tree.Recalled) (handle : Handle) : (tree.release handle).Recalled := by
  rcases tree.release_cases handle with alike | ⟨_, _, _, _, erased⟩
  · exact recalled.alike alike
  · rw [erased]
    apply recalled.of_older
    · exact fun _ mem => mem
    · exact Nat.le_refl _
    · intro other property _ found
      exact ⟨property, old_of_property?_eraseDead found, rfl⟩

/-- A former owner is not live again. -/
theorem isLive_eq_false (recalled : tree.Recalled) (sound : tree.Sound) {entry : Uuid × Handle}
    (waits : entry ∈ tree.pool.waiting) : tree.isLive entry.2 = false := by
  have waitsAs : entry.1 ∈ tree.pool.waiting.map Prod.fst := List.mem_map_of_mem waits
  rw [Bool.eq_false_iff]
  intro live
  rcases (isLive_iff _ _).mp live with isRoot | ⟨property, found, inIndex⟩
  · rcases sound.root with ⟨root, rootFound, uuidEq, _⟩
    have known := (sound.mem_uuids_iff entry.1).mp (List.mem_append_right _ waitsAs)
    rw [← isRoot] at rootFound
    rw [← recalled.same entry waits root rootFound, uuidEq] at known
    exact absurd known.1 (by decide)
  · rw [recalled.same entry waits property found] at inIndex
    exact (List.nodup_append.mp sound.uuids_nodup).2.2 _
      ((Table.mem_keys_iff _ _).mpr ⟨_, inIndex⟩) _ waitsAs rfl

end Recalled

/-! ## Counting -/

/-- What every step keeps. -/
structure Reckoned (state : Tree × List Handle) : Prop where
  kept : Kept [] state
  recalled : state.1.Recalled

namespace Reckoned

variable {state : Tree × List Handle}

theorem new : Reckoned (Tree.new, []) := ⟨kept_new, .new⟩

theorem step {next : Tree × List Handle} (reckoned : Reckoned state) (step : Step state next) :
    Reckoned next := by
  rcases reckoned with ⟨⟨sound, counted⟩, recalled⟩
  cases step with
  | create tree held path kind payload owner =>
      rcases outcome_cases fun _ => create_of_error with ⟨info, next, success⟩ | same
      · rw [success]
        exact ⟨⟨sound.create success, counted.create sound success⟩, recalled.create success⟩
      · rw [same]
        exact ⟨⟨sound, counted⟩, recalled⟩
  | delete tree held path =>
      rcases outcome_cases fun _ => delete_of_error with ⟨uuid, next, success⟩ | same
      · rw [success]
        exact ⟨⟨sound.delete success, counted.delete sound success⟩,
          recalled.delete sound.toLinked success⟩
      · rw [same]
        exact ⟨⟨sound, counted⟩, recalled⟩
  | hold found =>
      exact ⟨⟨sound_hold sound _, counted.hold found⟩, recalled.alike (alike_hold _ _)⟩
  | @release tree held handle mine =>
      exact ⟨⟨sound_release sound handle, (counted.perm (List.perm_cons_erase mine)).release⟩,
        recalled.release handle⟩
  | overwrite tree held handle data =>
      have alike := tree.alike_overwrite handle data
      exact ⟨⟨alike.sound sound, counted.overwrite data⟩, recalled.alike alike⟩
  | rewatch tree held handle change =>
      have alike := tree.alike_mapWatchers handle change
      exact ⟨⟨alike.sound sound, counted.mapWatchers change⟩, recalled.alike alike⟩

/-- The deleted properties that somebody holds are those former owners that exist. -/
theorem perm_owners (reckoned : Reckoned state) :
    (state.2.dedup.filter fun handle => !state.1.isLive handle).Perm
      ((state.1.pool.waiting.filter fun entry => state.1.exists? entry.2).map Prod.snd) := by
  rcases reckoned with ⟨⟨sound, counted⟩, recalled⟩
  have distinct : ((state.1.pool.waiting.filter fun entry =>
      state.1.exists? entry.2).map Prod.snd).Nodup := by
    have uuids := (List.nodup_append.mp sound.uuids_nodup).2.1
    apply List.Nodup.map_on _ ((List.Nodup.of_map _ uuids).filter _)
    intro left leftMem right rightMem sameOwner
    rw [List.mem_filter] at leftMem rightMem
    rcases (exists?_iff _ _).mp leftMem.2 with ⟨property, found⟩
    have leftUuid := recalled.same left leftMem.1 property found
    have rightUuid := recalled.same right rightMem.1 property (sameOwner ▸ found)
    exact Prod.ext (leftUuid.symm.trans rightUuid) sameOwner
  apply (List.perm_ext_iff_of_nodup ((List.nodup_dedup _).filter _) distinct).mpr
  intro handle
  simp only [List.mem_filter, List.mem_dedup, List.mem_map, Bool.not_eq_true']
  constructor
  · rintro ⟨mine, dead⟩
    have found := counted.exist handle mine
    rcases (exists?_iff _ _).mp found with ⟨property, isThere⟩
    exact ⟨(property.uuid, handle), ⟨sound.detached _ _ isThere dead, found⟩, rfl⟩
  · rintro ⟨entry, ⟨waits, found⟩, rfl⟩
    have dead := recalled.isLive_eq_false sound waits
    exact ⟨counted.dead _ found dead, dead⟩

theorem existing_eq (reckoned : Reckoned state) :
    existing state =
      state.1.size + state.1.pool.waiting.countP fun entry => state.1.exists? entry.2 := by
  rw [existing, reckoned.perm_owners.length_eq, List.length_map, List.countP_eq_length_filter]

/-- Every number that was handed out is that of a live property, or waits. -/
theorem next_eq (reckoned : Reckoned state) :
    state.1.pool.next = UuidPool.first + (state.1.size + state.1.pool.waiting.length) := by
  have sound : state.1.Sound := reckoned.kept.1
  have numbers := sound.numbers.length_eq
  have first := sound.first_le_next
  simp only [List.length_map, List.length_append, List.length_range',
    ← Table.size_eq_length_keys] at numbers
  simp only [Tree.size]
  omega

theorem existing_le (reckoned : Reckoned state) :
    UuidPool.first + existing state ≤ state.1.pool.next := by
  have some := List.countP_le_length (p := fun entry => state.1.exists? entry.2)
    (l := state.1.pool.waiting)
  rw [reckoned.existing_eq, reckoned.next_eq]
  omega

theorem existing_eq_of_exists (reckoned : Reckoned state)
    (all : ∀ entry ∈ state.1.pool.waiting, state.1.exists? entry.2 = true) :
    UuidPool.first + existing state = state.1.pool.next := by
  rw [reckoned.existing_eq, reckoned.next_eq, List.countP_eq_length.mpr all]

/-- When a step uses a number up, all numbers are in use afterwards. -/
theorem next_of_step {next : Tree × List Handle} (reckoned : Reckoned state)
    (step : Step state next) :
    next.1.pool.next = state.1.pool.next ∨
      state.1.pool.next ≤ next.1.pool.next ∧ UuidPool.first + existing next = next.1.pool.next := by
  have after := reckoned.step step
  cases step with
  | create tree held path kind payload owner =>
      rcases outcome_cases fun _ => create_of_error with ⟨info, next, success⟩ | same
      · rw [success] at after ⊢
        rcases create_eq_ok success with ⟨_, _, _, _, _, pool, found, _, _, rfl⟩
        by_cases goesOn : pool.next = tree.pool.next
        · exact Or.inl goesOn
        · refine Or.inr ⟨(reckoned.kept.1.next_of_take found.taken).2.1,
            after.existing_eq_of_exists ?_⟩
          intro entry waits
          have owned := UuidPool.exists_of_next_ne found.taken goesOn entry waits
          rcases (exists?_iff _ _).mp owned with ⟨property, isThere⟩
          rcases property?_attach_of_old reckoned.kept.1.toLinked isThere with
            ⟨later, laterFound, _⟩
          exact (exists?_iff _ _).mpr ⟨later, laterFound⟩
      · exact Or.inl (congrArg (·.pool.next) same)
  | delete tree held path =>
      left
      rcases outcome_cases fun _ => delete_of_error with ⟨uuid, next, success⟩ | same
      · rw [success]
        rcases delete_eq_ok success with ⟨_, _, _, _, _, _, _, rfl⟩
        rfl
      · exact congrArg (·.pool.next) same
  | hold found => exact Or.inl rfl
  | @release tree held handle mine =>
      left
      rcases tree.release_cases handle with alike | ⟨_, _, _, _, erased⟩
      · rw [alike.pool]
      · rw [erased]
  | overwrite tree held handle data => exact Or.inl rfl
  | rewatch tree held handle change => exact Or.inl rfl

end Reckoned

theorem place_ne_uuidsExhausted (tree : Tree) (path : String) (kind : PropertyKind)
    (payload : Bytes) : tree.place path kind payload ≠ .error .uuidsExhausted := by
  unfold place
  repeat' split
  all_goals simp

theorem take_eq_none_of_create {path : String} {kind : PropertyKind} {payload : Bytes}
    {owner : SessionId}
    (exhausted : (tree.create path kind payload owner).1 = .error .uuidsExhausted) :
    (tree.pool.take tree.exists?).1 = none := by
  rw [create_eq] at exhausted
  cases placed : tree.place path kind payload with
  | error error =>
      rw [placed] at exhausted
      cases exhausted
      exact absurd placed (place_ne_uuidsExhausted _ _ _ _)
  | ok place =>
      rw [placed] at exhausted
      rcases taken : tree.pool.take tree.exists? with ⟨_ | _, pool⟩
      · rfl
      · rw [taken] at exhausted
        cases exhausted

namespace Passes

variable {states : List (Tree × List Handle)} {state : Tree × List Handle}

theorem reckoned (passes : Passes states state) : Reckoned state := by
  induction passes with
  | new => exact .new
  | step _ step ih => exact ih.step step

theorem existing_le_next (passes : Passes states state) :
    ∀ earlier ∈ states, UuidPool.first + existing earlier ≤ state.1.pool.next := by
  induction passes with
  | new =>
      intro earlier mem
      rw [List.mem_singleton.mp mem]
      exact Reckoned.new.existing_le
  | @step states state next before step ih =>
      have reckoned := before.reckoned
      intro earlier mem
      rcases List.mem_append.mp mem with old | last
      · have grown : state.1.pool.next ≤ next.1.pool.next := by
          rcases reckoned.next_of_step step with same | ⟨grown, _⟩
          · exact Nat.le_of_eq same.symm
          · exact grown
        exact (ih earlier old).trans grown
      · rw [List.mem_singleton.mp last]
        exact (reckoned.step step).existing_le

theorem exists_peak (passes : Passes states state) :
    ∃ earlier ∈ states, UuidPool.first + existing earlier = state.1.pool.next := by
  induction passes with
  | new => exact ⟨_, List.mem_singleton_self _, rfl⟩
  | step before step ih =>
      rcases before.reckoned.next_of_step step with same | ⟨_, full⟩
      · rcases ih with ⟨earlier, mem, peak⟩
        exact ⟨earlier, List.mem_append_left _ mem, peak.trans same.symm⟩
      · exact ⟨_, List.mem_concat_self, full⟩

/-- As many uuids are used up as properties have existed at the same time, so there is none left
only while all of them are in use. -/
theorem isGreatest_existing (passes : Passes states (tree, held)) :
    UuidPool.first ≤ tree.pool.next ∧
      IsGreatest {count | ∃ state ∈ states, existing state = count}
        (tree.pool.next - UuidPool.first) ∧
      ∀ path kind payload owner,
        (tree.create path kind payload owner).1 = .error .uuidsExhausted →
          existing (tree, held) = UInt32.size - UuidPool.first := by
  have reckoned := passes.reckoned
  have sound : tree.Sound := reckoned.kept.1
  refine ⟨sound.first_le_next, ⟨?_, ?_⟩, ?_⟩
  · rcases passes.exists_peak with ⟨earlier, mem, peak⟩
    refine ⟨earlier, mem, ?_⟩
    simp only at peak
    omega
  · rintro count ⟨earlier, mem, rfl⟩
    have bound := passes.existing_le_next earlier mem
    simp only at bound
    omega
  · intro path kind payload owner exhausted
    have none := take_eq_none_of_create exhausted
    have used := UuidPool.take_eq_none none
    have full := reckoned.existing_eq_of_exists (UuidPool.exists_of_take_eq_none none)
    have last := sound.next_le
    simp only at full
    omega

/-- A held uuid is not reused and a failed request uses none up, so the third number goes out only
when three properties exist. -/
theorem isGreatest_existing_held :
    ∃ (states : List (Tree × List Handle)) (tree : Tree),
      Passes states (tree, []) ∧ states.map existing = [0, 1, 2, 2, 2, 2, 3, 2, 3] ∧
      tree.index.keys.map UInt32.toNat = [101, 102, 100] ∧
      IsGreatest {count | ∃ state ∈ states, existing state = count} (tree.pool.next - 100) := by
  have lamp := Passes.new.step (.create Tree.new [] "/lamp" .value [1] 7)
  have fan := lamp.step (.create _ _ "/fan" .rpc [] 7)
  have held := fan.step (.hold (show Tree.exists? _ 1 = true from rfl))
  have gone := held.step (.delete _ _ "/lamp")
  have refused := gone.step (.create _ _ "/fan" .value [2] 8)
  have door := refused.step (.create _ _ "/door" .value [3] 8)
  have dropped := door.step (.release (List.mem_singleton_self 1))
  have lock := dropped.step (.create _ _ "/lock" .value [4] 9)
  exact ⟨_, _, lock, by decide, by decide, (isGreatest_existing lock).2.1⟩

end Passes

end Tree

end SharedTree
