import SharedTree.Proofs.Tree.Steps
import Mathlib.Data.List.Perm.Basic
import Mathlib.Data.List.Range

/-!
# Where uuids are

Every uuid that was ever handed out is either that of a live property or waits in the
pool, and no uuid is in two places. `Tree.Accounted` states this together with what the
pool remembers of deleted properties that still exist, which is why a uuid taken from
the pool is that of no existing property.
-/

namespace SharedTree

namespace UuidPool

variable {ι : Type}

theorem take_eq_some {pool rest : UuidPool ι} {exists? : ι → Bool} {uuid : Uuid}
    (taken : pool.take exists? = (some uuid, rest)) :
    (∃ before owner after, pool.waiting = before ++ (uuid, owner) :: after ∧
      exists? owner = false ∧ rest = { pool with waiting := before ++ after }) ∨
    (pool.next < UInt32.size ∧ uuid = UInt32.ofNat pool.next ∧
      rest = { pool with next := pool.next + 1 }) := by
  unfold take at taken
  split at taken
  · next found ownerFound reusable =>
    simp only [Prod.mk.injEq, Option.some.injEq] at taken
    rcases taken with ⟨rfl, rfl⟩
    rcases List.find?_eq_some_iff_append.mp reusable with ⟨gone, before, after, split, stillThere⟩
    refine Or.inl ⟨before, _, after, split, by simpa using gone, ?_⟩
    rw [split, List.eraseP_append_right _ (by simpa using stillThere),
      List.eraseP_cons_of_pos (by simpa using gone)]
  · split at taken
    · next unused =>
      simp only [Prod.mk.injEq, Option.some.injEq] at taken
      exact Or.inr ⟨unused, taken.1.symm, taken.2.symm⟩
    · cases taken

theorem take_eq_none {pool : UuidPool ι} {exists? : ι → Bool}
    (exhausted : (pool.take exists?).1 = none) : UInt32.size ≤ pool.next := by
  unfold take at exhausted
  split at exhausted
  · cases exhausted
  · split at exhausted
    · cases exhausted
    · next used => exact Nat.le_of_not_lt used

end UuidPool

namespace Tree

variable {tree : Tree}

/-- Every uuid handed out is in exactly one place, and the pool knows the deleted properties that
still exist. -/
structure Accounted (tree : Tree) : Prop where
  first_le : ∀ handle property, tree.property? handle = some property → handle ≠ rootHandle →
    UuidPool.first ≤ property.uuid.toNat
  distinct : ∀ left right leftProperty rightProperty,
    tree.property? left = some leftProperty → tree.property? right = some rightProperty →
    leftProperty.uuid = rightProperty.uuid → left = right
  detached : ∀ handle property, tree.property? handle = some property →
    tree.isLive handle = false → (property.uuid, handle) ∈ tree.pool.waiting
  numbers : ((tree.index.keys ++ tree.pool.waiting.map Prod.fst).map UInt32.toNat).Perm
    (List.range' UuidPool.first (tree.pool.next - UuidPool.first))
  first_le_next : UuidPool.first ≤ tree.pool.next
  next_le : tree.pool.next ≤ UInt32.size

/-- A tree whose links fit together and whose uuids are accounted for. -/
structure Sound (tree : Tree) : Prop extends tree.Linked, tree.Accounted

namespace Accounted

theorem uuids_nodup (accounted : tree.Accounted) :
    (tree.index.keys ++ tree.pool.waiting.map Prod.fst).Nodup :=
  List.Nodup.of_map UInt32.toNat (accounted.numbers.nodup_iff.mpr List.nodup_range')

theorem mem_uuids_iff (accounted : tree.Accounted) (uuid : Uuid) :
    uuid ∈ tree.index.keys ++ tree.pool.waiting.map Prod.fst ↔
      UuidPool.first ≤ uuid.toNat ∧ uuid.toNat < tree.pool.next := by
  have inRange := accounted.numbers.mem_iff (a := uuid.toNat)
  rw [List.mem_map_of_injective (fun _ _ => UInt32.toNat_inj.mp), List.mem_range'_1] at inRange
  rw [inRange]
  have := accounted.first_le_next
  omega

end Accounted

namespace Sound

theorem mem_uuids_of_exists (sound : tree.Sound) {handle : Handle} {property : Property}
    (found : tree.property? handle = some property) (notRoot : handle ≠ rootHandle) :
    property.uuid ∈ tree.index.keys ++ tree.pool.waiting.map Prod.fst := by
  rw [List.mem_append]
  cases live : tree.isLive handle with
  | true =>
      rcases (isLive_iff _ _).mp live with isRoot | ⟨same, sameFound, inIndex⟩
      · exact absurd isRoot notRoot
      · rw [found] at sameFound
        cases sameFound
        exact Or.inl ((Table.mem_keys_iff _ _).mpr ⟨handle, inIndex⟩)
  | false =>
      exact Or.inr (List.mem_map_of_mem (f := Prod.fst) (sound.detached _ _ found live))

section Take

variable {uuid : Uuid} {pool : UuidPool Handle}

theorem first_le_of_take (sound : tree.Sound)
    (taken : tree.pool.take tree.exists? = (some uuid, pool)) :
    UuidPool.first ≤ uuid.toNat := by
  rcases UuidPool.take_eq_some taken with ⟨before, owner, after, split, _⟩ | ⟨unused, rfl, _⟩
  · refine ((sound.mem_uuids_iff uuid).mp ?_).1
    simp [split]
  · rw [UInt32.toNat_ofNat_of_lt' unused]
    exact sound.first_le_next

/-- A uuid taken from the pool is that of no existing property. -/
theorem ne_of_take (sound : tree.Sound)
    (taken : tree.pool.take tree.exists? = (some uuid, pool)) {handle : Handle}
    {property : Property} (found : tree.property? handle = some property) :
    property.uuid ≠ uuid := by
  rintro rfl
  have notRoot : handle ≠ rootHandle := by
    rintro rfl
    rcases sound.root with ⟨root, rootFound, uuidEq, _⟩
    rw [found] at rootFound
    cases rootFound
    have := sound.first_le_of_take taken
    rw [uuidEq] at this
    exact absurd this (by decide)
  have known := sound.mem_uuids_of_exists found notRoot
  rcases UuidPool.take_eq_some taken with
    ⟨before, owner, after, split, gone, _⟩ | ⟨unused, equal, _⟩
  · have waits : (property.uuid, owner) ∈ tree.pool.waiting := by simp [split]
    cases live : tree.isLive handle with
    | true =>
        rcases (isLive_iff _ _).mp live with isRoot | ⟨same, sameFound, inIndex⟩
        · exact notRoot isRoot
        · rw [found] at sameFound
          cases sameFound
          exact (List.nodup_append.mp sound.uuids_nodup).2.2 _
            ((Table.mem_keys_iff _ _).mpr ⟨handle, inIndex⟩) _
            (List.mem_map_of_mem (f := Prod.fst) waits) rfl
    | false =>
        have alsoWaits := sound.detached _ _ found live
        have nodup := (List.nodup_append.mp sound.uuids_nodup).2.1
        have same := List.inj_on_of_nodup_map nodup alsoWaits waits rfl
        have ownerEq : handle = owner := congrArg Prod.snd same
        rw [← ownerEq] at gone
        have stillThere := (exists?_iff _ _).mpr ⟨property, found⟩
        rw [gone] at stillThere
        cases stillThere
  · have below := ((sound.mem_uuids_iff _).mp known).2
    rw [equal, UInt32.toNat_ofNat_of_lt' unused] at below
    exact Nat.lt_irrefl _ below

theorem find?_index_of_take (sound : tree.Sound)
    (taken : tree.pool.take tree.exists? = (some uuid, pool)) :
    tree.index.find? uuid = none := by
  rw [Option.eq_none_iff_forall_ne_some]
  intro handle inIndex
  rcases sound.indexed _ _ inIndex with ⟨property, _, found, uuidEq, _⟩
  exact sound.ne_of_take taken found uuidEq

theorem waits_of_take (taken : tree.pool.take tree.exists? = (some uuid, pool))
    {entry : Uuid × Handle} (waits : entry ∈ tree.pool.waiting)
    (owned : tree.exists? entry.2 = true) : entry ∈ pool.waiting := by
  rcases UuidPool.take_eq_some taken with ⟨before, owner, after, split, gone, rfl⟩ | ⟨_, _, rfl⟩
  · have different : entry ≠ (uuid, owner) := by
      rintro rfl
      rw [gone] at owned
      cases owned
    simpa [split, different] using waits
  · exact waits

theorem numbers_of_take (sound : tree.Sound)
    (taken : tree.pool.take tree.exists? = (some uuid, pool)) :
    ((uuid :: (tree.index.keys ++ pool.waiting.map Prod.fst)).map UInt32.toNat).Perm
      (List.range' UuidPool.first (pool.next - UuidPool.first)) := by
  rcases UuidPool.take_eq_some taken with
    ⟨before, owner, after, split, _, rfl⟩ | ⟨unused, rfl, rfl⟩
  · refine List.Perm.trans (List.Perm.map _ ?_) sound.numbers
    simp only [split, List.map_append, List.map_cons, ← List.append_assoc]
    exact List.perm_middle.symm
  · have longer : tree.pool.next + 1 - UuidPool.first = tree.pool.next - UuidPool.first + 1 := by
      have := sound.first_le_next
      omega
    have last : UuidPool.first + 1 * (tree.pool.next - UuidPool.first) = tree.pool.next := by
      have := sound.first_le_next
      omega
    rw [List.map_cons, UInt32.toNat_ofNat_of_lt' unused]
    simp only [longer, List.range'_concat, last]
    exact (List.Perm.cons _ sound.numbers).trans (List.perm_append_singleton _ _).symm

theorem next_of_take (sound : tree.Sound)
    (taken : tree.pool.take tree.exists? = (some uuid, pool)) :
    UuidPool.first ≤ pool.next ∧ tree.pool.next ≤ pool.next ∧ pool.next ≤ UInt32.size := by
  have first := sound.first_le_next
  have last := sound.next_le
  rcases UuidPool.take_eq_some taken with ⟨_, _, _, _, _, rfl⟩ | ⟨unused, _, rfl⟩
  · exact ⟨first, Nat.le_refl _, last⟩
  · exact ⟨Nat.le_succ_of_le first, Nat.le_succ _, unused⟩

end Take

end Sound

/-! ## Every operation keeps a tree sound -/

theorem Alike.accounted {left right : Tree} (alike : left.Alike right) (holds : left.Accounted) :
    right.Accounted where
  first_le := by
    intro handle property found notRoot
    rcases alike.symm.exists_property found with ⟨other, otherFound, bareEq⟩
    rw [← (Property.eq_of_bare_eq bareEq).1]
    exact holds.first_le _ _ otherFound notRoot
  distinct := by
    intro first second firstProperty secondProperty firstFound secondFound sameUuid
    rcases alike.symm.exists_property firstFound with ⟨firstOther, firstOtherFound, firstBare⟩
    rcases alike.symm.exists_property secondFound with ⟨secondOther, secondOtherFound, secondBare⟩
    apply holds.distinct _ _ _ _ firstOtherFound secondOtherFound
    rw [(Property.eq_of_bare_eq firstBare).1, (Property.eq_of_bare_eq secondBare).1, sameUuid]
  detached := by
    intro handle property found dead
    rcases alike.symm.exists_property found with ⟨other, otherFound, bareEq⟩
    rw [← alike.isLive_eq] at dead
    rw [← alike.pool, ← (Property.eq_of_bare_eq bareEq).1]
    exact holds.detached _ _ otherFound dead
  numbers := by
    rw [← alike.index, ← alike.pool]
    exact holds.numbers
  first_le_next := alike.pool ▸ holds.first_le_next
  next_le := alike.pool ▸ holds.next_le

theorem Alike.sound {left right : Tree} (alike : left.Alike right) (holds : left.Sound) :
    right.Sound :=
  ⟨alike.linked holds.toLinked, alike.accounted holds.toAccounted⟩

theorem accounted_new : Tree.new.Accounted where
  first_le := by
    intro handle property found notRoot
    exact absurd (eq_of_property?_new found).1 notRoot
  distinct := by
    intro left right _ _ leftFound rightFound _
    rw [(eq_of_property?_new leftFound).1, (eq_of_property?_new rightFound).1]
  detached := by
    intro handle property found dead
    rw [(eq_of_property?_new found).1] at dead
    simp [isLive] at dead
  numbers := List.Perm.refl _
  first_le_next := Nat.le_refl _
  next_le := by decide

theorem sound_new : Tree.new.Sound := ⟨linked_new, accounted_new⟩

theorem accounted_attach (sound : tree.Sound) {parent : Handle} {name : String}
    {kind : PropertyKind} {payload : Bytes} {owner : SessionId} {uuid : Uuid}
    {pool : UuidPool Handle} (taken : tree.pool.take tree.exists? = (some uuid, pool)) :
    (tree.attach parent name (.new kind payload owner) uuid pool).Accounted where
  first_le := by
    intro handle property found notRoot
    by_cases isNew : handle = tree.nextHandle
    · rw [property?_attach, if_pos isNew] at found
      cases found
      exact sound.first_le_of_take taken
    · rcases old_of_property?_attach found isNew with ⟨before, beforeFound, same⟩
      rw [same.uuid]
      exact sound.first_le _ _ beforeFound notRoot
  distinct := by
    intro left right leftProperty rightProperty leftFound rightFound sameUuid
    by_cases leftNew : left = tree.nextHandle <;> by_cases rightNew : right = tree.nextHandle
    · rw [leftNew, rightNew]
    · rcases old_of_property?_attach rightFound rightNew with ⟨before, beforeFound, same⟩
      rw [property?_attach, if_pos leftNew] at leftFound
      cases leftFound
      exact absurd (same.uuid ▸ sameUuid.symm) (sound.ne_of_take taken beforeFound)
    · rcases old_of_property?_attach leftFound leftNew with ⟨before, beforeFound, same⟩
      rw [property?_attach, if_pos rightNew] at rightFound
      cases rightFound
      exact absurd (same.uuid ▸ sameUuid) (sound.ne_of_take taken beforeFound)
    · rcases old_of_property?_attach leftFound leftNew with ⟨_, leftBefore, leftSame⟩
      rcases old_of_property?_attach rightFound rightNew with ⟨_, rightBefore, rightSame⟩
      apply sound.distinct _ _ _ _ leftBefore rightBefore
      rw [← leftSame.uuid, ← rightSame.uuid, sameUuid]
  detached := by
    intro handle property found dead
    have notNew : handle ≠ tree.nextHandle := by
      rintro rfl
      rw [isLive_attach_new] at dead
      cases dead
    rcases old_of_property?_attach found notNew with ⟨before, beforeFound, same⟩
    have wasDead := dead_of_stays
      (isLive_attach_of_old sound.toLinked (sound.find?_index_of_take taken)) dead
    rw [same.uuid]
    exact Sound.waits_of_take taken (sound.detached _ _ beforeFound wasDead)
      ((exists?_iff _ _).mpr ⟨before, beforeFound⟩)
  numbers := by
    have keys : (tree.attach parent name (.new kind payload owner) uuid pool).index.keys =
        tree.index.keys ++ [uuid] :=
      Table.keys_insert_of_absent _ (sound.find?_index_of_take taken)
    refine List.Perm.trans (List.Perm.map _ ?_) (sound.numbers_of_take taken)
    rw [keys, List.append_assoc]
    exact List.perm_middle
  first_le_next := (sound.next_of_take taken).1
  next_le := (sound.next_of_take taken).2.2

theorem sound_attach (sound : tree.Sound) {parent : Handle} {children : Table String Handle}
    {name : String} {kind : PropertyKind} {payload : Bytes} {owner : SessionId} {uuid : Uuid}
    {pool : UuidPool Handle} (live : tree.isLive parent = true)
    (node : tree.children? parent = some children) (absent : tree.child? parent name = none)
    (segment : Path.IsSegment name)
    (taken : tree.pool.take tree.exists? = (some uuid, pool)) :
    (tree.attach parent name (.new kind payload owner) uuid pool).Sound :=
  ⟨linked_attach sound.toLinked live node absent segment (sound.find?_index_of_take taken),
    accounted_attach sound taken⟩

theorem accounted_detach (sound : tree.Sound) {parent handle : Handle} {name : String}
    {property : Property} (detachable : tree.Detachable parent name handle property) :
    (tree.detach parent name handle property).Accounted where
  first_le := by
    intro other otherProperty found notRoot
    rcases old_of_property?_detach found with ⟨before, beforeFound, same⟩
    rw [same.uuid]
    exact sound.first_le _ _ beforeFound notRoot
  distinct := by
    intro left right leftProperty rightProperty leftFound rightFound sameUuid
    rcases old_of_property?_detach leftFound with ⟨_, leftBefore, leftSame⟩
    rcases old_of_property?_detach rightFound with ⟨_, rightBefore, rightSame⟩
    apply sound.distinct _ _ _ _ leftBefore rightBefore
    rw [← leftSame.uuid, ← rightSame.uuid, sameUuid]
  detached := by
    intro other otherProperty found dead
    rcases old_of_property?_detach found with ⟨before, beforeFound, same⟩
    simp only [detach, UuidPool.giveBack, List.mem_append, List.mem_singleton]
    rw [same.uuid]
    by_cases isGone : other = handle
    · right
      rw [isGone, detachable.found] at beforeFound
      cases beforeFound
      rw [isGone]
    · left
      exact sound.detached _ _ beforeFound (dead_of_stays
        (fun alive => isLive_detach_of_other sound.toLinked detachable alive isGone) dead)
  numbers := by
    have inIndex := (sound.of_named detachable.named detachable.found).2.2
    refine List.Perm.trans (List.Perm.map _ ?_) sound.numbers
    simp only [detach, UuidPool.giveBack, Table.keys_erase, List.map_append, List.map_cons,
      List.map_nil, ← List.append_assoc]
    refine (List.perm_append_singleton _ _).trans ?_
    rw [← List.cons_append]
    exact List.Perm.append_right _
      (List.perm_cons_erase ((Table.mem_keys_iff _ _).mpr ⟨handle, inIndex⟩)).symm
  first_le_next := sound.first_le_next
  next_le := sound.next_le

theorem sound_detach (sound : tree.Sound) {parent handle : Handle} {name : String}
    {property : Property} (detachable : tree.Detachable parent name handle property) :
    (tree.detach parent name handle property).Sound :=
  ⟨linked_detach sound.toLinked detachable, accounted_detach sound detachable⟩

theorem sound_eraseDead (sound : tree.Sound) {handle : Handle}
    (dead : tree.isLive handle = false) :
    ({ tree with properties := tree.properties.erase handle } : Tree).Sound := by
  refine ⟨linked_eraseDead sound.toLinked dead, ?_, ?_, ?_, sound.numbers, sound.first_le_next,
    sound.next_le⟩
  · intro other property found notRoot
    exact sound.first_le _ _ (old_of_property?_eraseDead found) notRoot
  · intro left right _ _ leftFound rightFound sameUuid
    exact sound.distinct _ _ _ _ (old_of_property?_eraseDead leftFound)
      (old_of_property?_eraseDead rightFound) sameUuid
  · intro other property found otherDead
    exact sound.detached _ _ (old_of_property?_eraseDead found)
      (dead_of_stays (isLive_eraseDead dead) otherDead)

theorem sound_hold (sound : tree.Sound) (handle : Handle) : (tree.hold handle).Sound :=
  (tree.alike_hold handle).sound sound

theorem sound_release (sound : tree.Sound) (handle : Handle) : (tree.release handle).Sound := by
  rcases tree.release_cases handle with alike | ⟨_, _, dead, _, erased⟩
  · exact alike.sound sound
  · rw [erased]
    exact sound_eraseDead sound dead

end Tree

end SharedTree
