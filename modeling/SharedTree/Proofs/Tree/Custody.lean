import SharedTree.Proofs.Tree.Requests
import Mathlib.Data.List.Count

/-!
# Trees and the references that callers hold

Callers take and drop references to properties while they use a tree, and a reference
keeps a deleted property in existence. `Tree.Reaches` is what can happen to a tree
together with the references held at the moment: every operation is a step, also one that
fails. An observer that is told of a new payload may itself do anything that callers may
do.

The main result, `consistent_of_reaches`, is that the links between properties, the index
of live properties, the references and the uuid pool agree in every reachable state.
-/

namespace SharedTree

namespace Tree

open Operation (outcome_cases)

/-- What can happen to a tree and to the references that callers hold. -/
inductive Reaches : Tree × List Handle → Tree × List Handle → Prop where
  | refl (state : Tree × List Handle) : Reaches state state
  | create {start : Tree × List Handle} {tree : Tree} {held : List Handle}
      (before : Reaches start (tree, held)) (path : String) (kind : PropertyKind) (payload : Bytes)
      (owner : SessionId) : Reaches start ((tree.create path kind payload owner).2, held)
  | delete {start : Tree × List Handle} {tree : Tree} {held : List Handle}
      (before : Reaches start (tree, held)) (path : String) :
      Reaches start ((tree.delete path).2, held)
  | subscribe {start : Tree × List Handle} {tree : Tree} {held : List Handle}
      (before : Reaches start (tree, held)) (uuid : Uuid) (subscriber : SessionId)
      (observer : Observer) : Reaches start ((tree.subscribe uuid subscriber observer).2, held)
  | unsubscribe {start : Tree × List Handle} {tree : Tree} {held : List Handle}
      (before : Reaches start (tree, held)) (uuid : Uuid) (subscriber : SessionId) :
      Reaches start ((tree.unsubscribe uuid subscriber).2, held)
  | setValue {start : Tree × List Handle} {tree : Tree} {held : List Handle} {ω : Type}
      {react : Reaction (ω × List Handle)} (before : Reaches start (tree, held))
      (reacts : ∀ observer update tree outside held, Reaches (tree, held)
        ((react observer update (tree, outside, held)).2.1,
          (react observer update (tree, outside, held)).2.2.2))
      (order : VisitOrder) (uuid : Uuid) (data : Bytes) (outside : ω) :
      Reaches start ((Tree.setValue react order uuid data (tree, outside, held)).2.1,
        (Tree.setValue react order uuid data (tree, outside, held)).2.2.2)
  | hold {start : Tree × List Handle} {tree : Tree} {held : List Handle} {handle : Handle}
      (before : Reaches start (tree, held)) (found : tree.exists? handle = true) :
      Reaches start (tree.hold handle, handle :: held)
  | release {start : Tree × List Handle} {tree : Tree} {held : List Handle} {handle : Handle}
      (before : Reaches start (tree, held)) (mine : handle ∈ held) :
      Reaches start (tree.release handle, held.erase handle)

variable {tree next : Tree}

/-- The references to each property are counted, and only they keep deleted ones in existence. -/
structure Counted (tree : Tree) (references : List Handle) : Prop where
  holders : ∀ handle property, tree.property? handle = some property →
    property.holders = references.count handle
  exist : ∀ handle ∈ references, tree.exists? handle = true
  dead : ∀ handle, tree.exists? handle = true → tree.isLive handle = false → handle ∈ references

namespace Counted

variable {references rest : List Handle} {handle : Handle}

theorem perm (counted : tree.Counted references) (same : references.Perm rest) :
    tree.Counted rest where
  holders := by
    intro handle property found
    rw [← same.count_eq]
    exact counted.holders _ _ found
  exist := fun handle mine => counted.exist _ (same.mem_iff.mpr mine)
  dead := fun handle found gone => same.mem_iff.mp (counted.dead _ found gone)

theorem modify (counted : tree.Counted references) {change : Property → Property}
    (sameBare : ∀ property, (change property).bare = property.bare)
    (sameHolders : ∀ property, (change property).holders = property.holders) :
    ({ tree with properties := tree.properties.modify handle change } : Tree).Counted
      references := by
  have alike := tree.alike_modify handle change sameBare
  refine ⟨?_, ?_, ?_⟩
  · intro other property found
    simp only [property?, Table.find?_modify] at found
    split at found
    · rcases Option.map_eq_some_iff.mp found with ⟨before, beforeFound, rfl⟩
      rw [sameHolders]
      exact counted.holders _ _ beforeFound
    · exact counted.holders _ _ found
  · rw [← alike.exists?_eq]
    exact counted.exist
  · rw [← alike.exists?_eq, ← alike.isLive_eq]
    exact counted.dead

theorem mapWatchers (counted : tree.Counted references)
    (change : Table SessionId Observer → Table SessionId Observer) :
    (tree.mapWatchers handle change).Counted references :=
  counted.modify (Property.bare_mapWatchers change) (Property.holders_mapWatchers change)

theorem overwrite (counted : tree.Counted references) (data : Bytes) :
    (tree.overwrite handle data).Counted references :=
  counted.modify (Property.bare_withPayload data) (Property.holders_withPayload data)

theorem hold (counted : tree.Counted references) (found : tree.exists? handle = true) :
    (tree.hold handle).Counted (handle :: references) := by
  have alike := tree.alike_hold handle
  refine ⟨?_, ?_, ?_⟩
  · intro other property otherFound
    simp only [Tree.hold, property?, Table.find?_modify] at otherFound
    split at otherFound
    · next same =>
      rcases Option.map_eq_some_iff.mp otherFound with ⟨before, beforeFound, rfl⟩
      rw [same, List.count_cons_self, ← same, ← counted.holders _ _ beforeFound]
    · next different =>
      rw [List.count_cons_of_ne (Ne.symm different)]
      exact counted.holders _ _ otherFound
  · intro other mine
    rw [← alike.exists?_eq]
    rcases List.mem_cons.mp mine with rfl | old
    · exact found
    · exact counted.exist _ old
  · intro other otherFound gone
    rw [← alike.exists?_eq] at otherFound
    rw [← alike.isLive_eq] at gone
    exact List.mem_cons_of_mem _ (counted.dead _ otherFound gone)

theorem release (counted : tree.Counted (handle :: references)) :
    (tree.release handle).Counted references := by
  rcases (exists?_iff _ _).mp (counted.exist handle (by simp)) with ⟨property, found⟩
  have held := counted.holders _ _ found
  rw [List.count_cons_self] at held
  have gone_iff : property.holders ≤ 1 ↔ handle ∉ references := by
    rw [held, ← List.count_eq_zero]
    omega
  refine ⟨?_, ?_, ?_⟩
  · intro other otherProperty otherFound
    rw [property?_release found] at otherFound
    split at otherFound
    · next same =>
      split at otherFound
      · cases otherFound
      · cases otherFound
        rw [same, held]
        rfl
    · next different =>
      have count := counted.holders _ _ otherFound
      rwa [List.count_cons_of_ne (Ne.symm different)] at count
  · intro other mine
    rw [exists?_iff, property?_release found]
    split
    · next same =>
      rw [if_neg]
      · exact ⟨_, rfl⟩
      · rintro ⟨unheld, _⟩
        exact gone_iff.mp unheld (same ▸ mine)
    · exact (exists?_iff _ _).mp (counted.exist other (List.mem_cons_of_mem _ mine))
  · intro other otherFound gone
    have wasDead : tree.isLive other = false := dead_of_stays isLive_release gone
    rw [exists?_iff, property?_release found] at otherFound
    by_cases same : other = handle
    · subst same
      simp only [if_true, wasDead, and_true] at otherFound
      split at otherFound
      · rcases otherFound with ⟨_, impossible⟩
        cases impossible
      · next stillHeld => exact not_not.mp (fun absent => stillHeld (gone_iff.mpr absent))
    · rw [if_neg same] at otherFound
      have mine := counted.dead _ ((exists?_iff _ _).mpr otherFound) wasDead
      exact (List.mem_cons.mp mine).resolve_left same

theorem attach (counted : tree.Counted references) (linked : tree.Linked) {parent : Handle}
    {name : String} {kind : PropertyKind} {payload : Bytes} {owner : SessionId} {uuid : Uuid}
    {pool : UuidPool Handle} (fresh : tree.index.find? uuid = none) :
    (tree.attach parent name (.new kind payload owner) uuid pool).Counted references where
  holders := by
    intro other property found
    by_cases isNew : other = tree.nextHandle
    · rw [property?_attach, if_pos isNew] at found
      cases found
      rw [isNew]
      symm
      apply List.count_eq_zero_of_not_mem
      intro mine
      rcases (exists?_iff _ _).mp (counted.exist _ mine) with ⟨old, oldFound⟩
      exact linked.ne_nextHandle oldFound rfl
    · rcases old_of_property?_attach found isNew with ⟨before, beforeFound, same⟩
      rw [same.holders]
      exact counted.holders _ _ beforeFound
  exist := by
    intro other mine
    rcases (exists?_iff _ _).mp (counted.exist _ mine) with ⟨old, oldFound⟩
    rcases property?_attach_of_old linked oldFound with ⟨after, afterFound, _⟩
    exact (exists?_iff _ _).mpr ⟨after, afterFound⟩
  dead := by
    intro other otherFound gone
    have notNew : other ≠ tree.nextHandle := by
      rintro rfl
      rw [isLive_attach_new] at gone
      cases gone
    rcases (exists?_iff _ _).mp otherFound with ⟨property, found⟩
    rcases old_of_property?_attach found notNew with ⟨before, beforeFound, _⟩
    exact counted.dead _ ((exists?_iff _ _).mpr ⟨before, beforeFound⟩)
      (dead_of_stays (isLive_attach_of_old linked fresh) gone)

theorem detach (counted : tree.Counted references) (linked : tree.Linked) {parent : Handle}
    {name : String} {property : Property}
    (detachable : tree.Detachable parent name handle property) :
    (tree.detach parent name handle property).Counted references where
  holders := by
    intro other otherProperty found
    rcases old_of_property?_detach found with ⟨before, beforeFound, same⟩
    rw [same.holders]
    exact counted.holders _ _ beforeFound
  exist := by
    intro other mine
    rcases (exists?_iff _ _).mp (counted.exist _ mine) with ⟨old, oldFound⟩
    rw [exists?_iff, property?_detach, if_neg]
    · exact ⟨_, by rw [oldFound, Option.map_some]⟩
    · rintro ⟨rfl, unheld⟩
      rw [counted.holders _ _ detachable.found] at unheld
      exact List.count_eq_zero.mp unheld mine
  dead := by
    intro other otherFound gone
    rcases (exists?_iff _ _).mp otherFound with ⟨otherProperty, found⟩
    by_cases same : other = handle
    · subst same
      rw [property?_detach] at found
      split at found
      · cases found
      · next stillHeld =>
        rw [← List.count_pos_iff, ← counted.holders _ _ detachable.found]
        exact Nat.pos_of_ne_zero fun unheld => stillHeld ⟨rfl, unheld⟩
    · rcases old_of_property?_detach found with ⟨before, beforeFound, _⟩
      exact counted.dead _ ((exists?_iff _ _).mpr ⟨before, beforeFound⟩) (dead_of_stays
        (fun alive => isLive_detach_of_other linked detachable alive same) gone)

theorem create (counted : tree.Counted references) (sound : tree.Sound) {path : String}
    {kind : PropertyKind} {payload : Bytes} {owner : SessionId} {info : PropertyInfo}
    (success : tree.create path kind payload owner = (.ok info, next)) :
    next.Counted references := by
  rcases create_eq_ok success with ⟨_, _, _, _, _, _, found, _, _, rfl⟩
  exact counted.attach sound.toLinked (sound.find?_index_of_take found.taken)

theorem delete (counted : tree.Counted references) (sound : tree.Sound) {path : String}
    {uuid : Uuid} (success : tree.delete path = (.ok uuid, next)) : next.Counted references := by
  rcases delete_eq_ok success with ⟨_, _, _, _, _, found, _, rfl⟩
  exact counted.detach sound.toLinked found.detachable

theorem subscribe (counted : tree.Counted references) {uuid : Uuid} {subscriber : SessionId}
    {observer : Observer} (success : tree.subscribe uuid subscriber observer = (.ok (), next)) :
    next.Counted references := by
  rcases subscribe_eq_ok success with ⟨_, _, _, rfl⟩
  exact counted.mapWatchers _

theorem unsubscribe (counted : tree.Counted references) {uuid : Uuid} {subscriber : SessionId}
    (success : tree.unsubscribe uuid subscriber = (.ok (), next)) : next.Counted references := by
  rcases unsubscribe_eq_ok success with ⟨_, _, _, _, rfl⟩
  exact counted.mapWatchers _

end Counted

/-- What every step keeps: a sound tree, and all references counted. The pinned references are those
of writes under way, which the steps inside a write must leave alone. -/
def Kept (pinned : List Handle) (state : Tree × List Handle) : Prop :=
  state.1.Sound ∧ state.1.Counted (pinned ++ state.2)

section Kept

variable {held pinned : List Handle}

theorem kept_create (kept : Kept pinned (tree, held)) (path : String) (kind : PropertyKind)
    (payload : Bytes) (owner : SessionId) :
    Kept pinned ((tree.create path kind payload owner).2, held) := by
  rcases outcome_cases fun _ => create_of_error with ⟨info, next, success⟩ | same
  · rw [success]
    exact ⟨kept.1.create success, kept.2.create kept.1 success⟩
  · rwa [same]

theorem kept_delete (kept : Kept pinned (tree, held)) (path : String) :
    Kept pinned ((tree.delete path).2, held) := by
  rcases outcome_cases fun _ => delete_of_error with ⟨uuid, next, success⟩ | same
  · rw [success]
    exact ⟨kept.1.delete success, kept.2.delete kept.1 success⟩
  · rwa [same]

theorem kept_subscribe (kept : Kept pinned (tree, held)) (uuid : Uuid) (subscriber : SessionId)
    (observer : Observer) : Kept pinned ((tree.subscribe uuid subscriber observer).2, held) := by
  rcases outcome_cases fun _ => subscribe_of_error with ⟨_, next, success⟩ | same
  · rw [success]
    exact ⟨kept.1.subscribe success, kept.2.subscribe success⟩
  · rwa [same]

theorem kept_unsubscribe (kept : Kept pinned (tree, held)) (uuid : Uuid) (subscriber : SessionId) :
    Kept pinned ((tree.unsubscribe uuid subscriber).2, held) := by
  rcases outcome_cases fun _ => unsubscribe_of_error with ⟨_, next, success⟩ | same
  · rw [success]
    exact ⟨kept.1.unsubscribe success, kept.2.unsubscribe success⟩
  · rwa [same]

theorem kept_setValue {ω : Type} {react : Reaction (ω × List Handle)}
    (kept : Kept pinned (tree, held))
    (reacts : ∀ pinned observer update tree outside held, Kept pinned (tree, held) →
      Kept pinned ((react observer update (tree, outside, held)).2.1,
        (react observer update (tree, outside, held)).2.2.2))
    (order : VisitOrder) (uuid : Uuid) (data : Bytes) (outside : ω) :
    Kept pinned ((Tree.setValue react order uuid data (tree, outside, held)).2.1,
      (Tree.setValue react order uuid data (tree, outside, held)).2.2.2) := by
  rcases outcome_cases fun _ => setValue_of_error with ⟨_, world, success⟩ | same
  swap
  · rwa [same]
  rcases world with ⟨next, last, stillHeld⟩
  rw [success]
  rcases setValue_eq_ok success with
    ⟨handle, property, watchers, unserved, delivered, _, found, _, delivery, rfl⟩
  have alike := tree.alike_hold handle
  have foundBefore : tree.exists? handle = true := by
    rw [alike.exists?_eq]
    exact (exists?_iff _ _).mpr ⟨property, found⟩
  -- While observers run, the write itself holds the value and callers cannot let go of it.
  have pinnedToo : Kept (handle :: pinned) ((tree.hold handle).overwrite handle data, held) :=
    ⟨((tree.hold handle).alike_overwrite handle data).sound (sound_hold kept.1 handle),
      (kept.2.hold foundBefore).overwrite data⟩
  have afterwards := deliver_preserves { uuid := property.uuid, data }
    (fun world : Tree × ω × List Handle => Kept (handle :: pinned) (world.1, world.2.2))
    (fun observer world holds => reacts _ observer _ world.1 world.2.1 world.2.2 holds)
    (order.arrange watchers.entries) ((tree.hold handle).overwrite handle data, outside, held)
    pinnedToo
  rw [delivery] at afterwards
  exact ⟨sound_release ((delivered.alike_prune handle unserved).sound afterwards.1) handle,
    (afterwards.2.mapWatchers _).release⟩

end Kept

theorem kept_of_reaches {start stop : Tree × List Handle} (run : Reaches start stop)
    {pinned : List Handle} (kept : Kept pinned start) : Kept pinned stop := by
  induction run generalizing pinned with
  | refl => exact kept
  | create before path kind payload owner ih => exact kept_create (ih kept) path kind payload owner
  | delete before path ih => exact kept_delete (ih kept) path
  | subscribe before uuid subscriber observer ih =>
      exact kept_subscribe (ih kept) uuid subscriber observer
  | unsubscribe before uuid subscriber ih => exact kept_unsubscribe (ih kept) uuid subscriber
  | setValue before reacts order uuid data outside ih ihReacts =>
      exact kept_setValue (ih kept)
        (fun _ observer update tree outside held holds =>
          ihReacts observer update tree outside held holds) order uuid data outside
  | hold _ found ih =>
      exact ⟨sound_hold (ih kept).1 _, ((ih kept).2.hold found).perm List.perm_middle.symm⟩
  | @release _ tree held handle _ mine ih =>
      have split : (pinned ++ held).Perm (handle :: (pinned ++ held.erase handle)) :=
        (List.Perm.append_left pinned (List.perm_cons_erase mine)).trans List.perm_middle
      exact ⟨sound_release (ih kept).1 _, ((ih kept).2.perm split).release⟩

theorem kept_new : Kept [] (Tree.new, []) := by
  refine ⟨sound_new, ?_, by simp, ?_⟩
  · intro handle property found
    rw [(eq_of_property?_new found).2]
    rfl
  · intro handle found dead
    rcases (exists?_iff _ _).mp found with ⟨property, isThere⟩
    rw [(eq_of_property?_new isThere).1] at dead
    simp [isLive] at dead

/-- The index of live properties, the links between properties, the references that callers hold and
the uuid pool agree. -/
structure Consistent (tree : Tree) (held : List Handle) : Prop where
  indexed : ∀ uuid handle, tree.index.find? uuid = some handle ↔
    ∃ segments property, segments ≠ [] ∧ tree.resolve segments = some handle ∧
      tree.property? handle = some property ∧ property.uuid = uuid
  once : ∀ left right handle, tree.resolve left = some handle → tree.resolve right = some handle →
    left = right
  contained : ∀ parent name handle, tree.child? parent name = some handle →
    ∃ property, tree.property? handle = some property ∧ property.name = name ∧
      property.parent = some parent
  found : ∀ segments handle, tree.resolve segments = some handle →
    tree.find (tree.pathOf handle) = .ok handle
  existing : ∀ handle, tree.exists? handle = true ↔
    (∃ segments, tree.resolve segments = some handle) ∨ handle ∈ held
  distinct : ∀ left right leftProperty rightProperty,
    tree.property? left = some leftProperty → tree.property? right = some rightProperty →
    leftProperty.uuid = rightProperty.uuid → left = right
  first_le : ∀ handle property, tree.property? handle = some property → handle ≠ rootHandle →
    UuidPool.first ≤ property.uuid.toNat
  numbers : ((tree.index.keys ++ tree.pool.waiting.map Prod.fst).map UInt32.toNat).Perm
    (List.range' UuidPool.first (tree.pool.next - UuidPool.first))
  next_bounds : UuidPool.first ≤ tree.pool.next ∧ tree.pool.next ≤ UInt32.size

theorem Linked.index_eq_some_iff (linked : tree.Linked) (uuid : Uuid) (handle : Handle) :
    tree.index.find? uuid = some handle ↔
      ∃ segments property, segments ≠ [] ∧ tree.resolve segments = some handle ∧
        tree.property? handle = some property ∧ property.uuid = uuid := by
  constructor
  · intro inIndex
    rcases linked.exists_resolve_of_indexed inIndex with
      ⟨segments, property, ends, nonempty, found, same⟩
    exact ⟨segments, property, nonempty, ends, found, same⟩
  · rintro ⟨segments, property, nonempty, ends, found, rfl⟩
    exact linked.indexed_of_resolve ends nonempty found

theorem Kept.exists?_iff {held : List Handle} (kept : Kept [] (tree, held)) (handle : Handle) :
    tree.exists? handle = true ↔
      (∃ segments, tree.resolve segments = some handle) ∨ handle ∈ held := by
  constructor
  · intro found
    cases live : tree.isLive handle with
    | true => exact Or.inl (kept.1.exists_resolve_of_isLive live)
    | false => exact Or.inr (kept.2.dead _ found live)
  · rintro (⟨segments, ends⟩ | mine)
    · exact (Tree.exists?_iff _ _).mpr (kept.1.exists_property_of_resolve ends)
    · exact kept.2.exist _ mine

theorem Kept.consistent {held : List Handle} (kept : Kept [] (tree, held)) :
    tree.Consistent held := by
  have sound : tree.Sound := kept.1
  refine ⟨sound.index_eq_some_iff, ?_, ?_, ?_, kept.exists?_iff, sound.distinct, sound.first_le,
    sound.numbers, sound.first_le_next, sound.next_le⟩
  · intro left right handle leftEnds rightEnds
    exact sound.resolve_injective leftEnds rightEnds
  · intro parent name handle named
    rcases (sound.contained _ _ _ named).2 with ⟨property, found, nameEq, parentEq, _⟩
    exact ⟨property, found, nameEq, parentEq⟩
  · intro segments handle ends
    exact sound.find_pathOf ends

/-- Whatever has happened to a tree that was new, and whatever references are held: its index, its
links, the properties in existence and its uuids agree. -/
theorem consistent_of_reaches {held : List Handle} (run : Reaches (new, []) (tree, held)) :
    tree.Consistent held :=
  (kept_of_reaches run kept_new).consistent

theorem consistent_of_reaches_held :
    ∃ (tree : Tree) (info : PropertyInfo), Reaches (new, []) (tree, [1]) ∧
      tree.exists? 1 = true ∧ tree.isLive 1 = false ∧
      (tree.create "/fan" .rpc [] 7).1 = .ok info ∧ info.uuid.toNat = 101 ∧
      tree.Consistent [1] := by
  have lampMade := Reaches.create (.refl (new, [])) "/lamp" .value [1] 7
  have lampHeld := Reaches.hold (lampMade.create "/lamp" .rpc [] 8) (show Tree.exists? _ 1 = true from rfl)
  have lampGone := Reaches.delete lampHeld "/lamp"
  exact ⟨_, _, lampGone, rfl, rfl, rfl, rfl, consistent_of_reaches lampGone⟩

end Tree

end SharedTree
