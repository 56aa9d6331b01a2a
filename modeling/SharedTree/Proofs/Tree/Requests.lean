import SharedTree.Proofs.Tree.Uuids

/-!
# Successful requests

This file says what each operation on a tree found, and what it made of the tree, when it
succeeds: creating attaches a property, deleting detaches one, and subscribing and
unsubscribing change nothing but watchers. Writing a value holds it, replaces its payload,
lets the observers react, removes the registrations that were not served and lets go of
the value; whatever the reactions keep true of a tree is therefore true after the write.
-/

namespace SharedTree

namespace Tree

variable {tree next : Tree}

theorem getLast?_eq_some_iff_concat {segments : List String} {name : String} :
    segments.getLast? = some name ↔ segments = segments.dropLast ++ [name] := by
  constructor
  · intro last
    rcases List.getLast?_eq_some_iff.mp last with ⟨ancestors, rfl⟩
    simp
  · intro split
    rw [split]
    simp

/-- What the creation of a property found in the tree. -/
structure Creates (tree : Tree) (path : String) (ancestors : List String) (name : String)
    (parent : Handle) (children : Table String Handle) (uuid : Uuid)
    (pool : UuidPool Handle) : Prop where
  accepted : Path.segments? path = some (ancestors ++ [name])
  ends : tree.resolve ancestors = some parent
  node : tree.children? parent = some children
  absent : tree.child? parent name = none
  taken : tree.pool.take tree.exists? = (some uuid, pool)

theorem place_eq_ok {path : String} {kind : PropertyKind} {payload : Bytes}
    {parent : Handle} {name : String}
    (placed : tree.place path kind payload = .ok (parent, name)) :
    ∃ ancestors children, Path.segments? path = some (ancestors ++ [name]) ∧
      tree.resolve ancestors = some parent ∧ tree.children? parent = some children ∧
      tree.child? parent name = none ∧ (kind = .value ∨ payload = []) := by
  unfold place at placed
  split at placed
  · cases placed
  · next segments accepted =>
    split at placed
    · cases placed
    · next last =>
      split at placed
      · cases placed
      · next allowed =>
        split at placed
        · cases placed
        · next ends =>
          split at placed
          · cases placed
          · next children node =>
            split at placed
            · cases placed
            · split at placed
              · cases placed
              · next absent =>
                cases placed
                rw [getLast?_eq_some_iff_concat.mp last] at accepted
                refine ⟨_, children, accepted, ends, node, ?_, by tauto⟩
                simpa [child?, node, Table.contains] using absent

theorem create_eq_ok {path : String} {kind : PropertyKind} {payload : Bytes} {owner : SessionId}
    {info : PropertyInfo}
    (success : tree.create path kind payload owner = (.ok info, next)) :
    ∃ ancestors name parent children uuid pool,
      tree.Creates path ancestors name parent children uuid pool ∧
      (kind = .value ∨ payload = []) ∧ info = { uuid, kind, path } ∧
      next = tree.attach parent name (.new kind payload owner) uuid pool := by
  rw [create_eq] at success
  cases placed : tree.place path kind payload with
  | error error =>
      rw [placed] at success
      cases success
  | ok place =>
      rcases place with ⟨parent, name⟩
      rcases place_eq_ok placed with ⟨ancestors, children, accepted, ends, node, absent, allowed⟩
      cases taken : tree.pool.take tree.exists? with
      | mk uuid? pool =>
          rw [placed, taken] at success
          cases uuid? with
          | none => cases success
          | some uuid =>
              cases success
              exact ⟨ancestors, name, parent, children, uuid, pool,
                ⟨accepted, ends, node, absent, taken⟩, allowed, rfl, rfl⟩

/-- What the deletion of a property found in the tree. -/
structure Deletes (tree : Tree) (path : String) (ancestors : List String) (name : String)
    (parent handle : Handle) (property : Property) : Prop where
  accepted : Path.segments? path = some (ancestors ++ [name])
  ends : tree.resolve ancestors = some parent
  detachable : tree.Detachable parent name handle property

theorem target_eq_ok {path : String} {parent handle : Handle} {name : String} {property : Property}
    (targeted : tree.target path = .ok (parent, name, handle, property)) :
    ∃ ancestors, tree.Deletes path ancestors name parent handle property := by
  unfold target at targeted
  split at targeted
  · cases targeted
  · next segments accepted =>
    split at targeted
    · cases targeted
    · next same last =>
      split at targeted
      · cases targeted
      · next ends =>
        split at targeted
        · cases targeted
        · next children node =>
          split at targeted
          · cases targeted
          · split at targeted
            · cases targeted
            · next named =>
              split at targeted
              · cases targeted
              · next found =>
                split at targeted
                · cases targeted
                · next empty =>
                  cases targeted
                  rw [getLast?_eq_some_iff_concat.mp last] at accepted
                  have isChild : tree.child? parent name = some handle := by
                    rw [child?, node, Option.bind_some, named]
                  exact ⟨_, accepted, ends, isChild, found, empty⟩

theorem delete_eq_ok {path : String} {uuid : Uuid}
    (success : tree.delete path = (.ok uuid, next)) :
    ∃ ancestors name parent handle property,
      tree.Deletes path ancestors name parent handle property ∧
      uuid = property.uuid ∧ next = tree.detach parent name handle property := by
  rw [delete_eq] at success
  cases targeted : tree.target path with
  | error error =>
      rw [targeted] at success
      cases success
  | ok found =>
      rcases found with ⟨parent, name, handle, property⟩
      rcases target_eq_ok targeted with ⟨ancestors, deletes⟩
      rw [targeted] at success
      cases success
      exact ⟨ancestors, name, parent, handle, property, deletes, rfl, rfl⟩

theorem findUuid_eq_ok_iff (tree : Tree) (uuid : Uuid) (handle : Handle) :
    tree.findUuid uuid = .ok handle ↔ tree.index.find? uuid = some handle := by
  unfold findUuid
  cases tree.index.find? uuid <;> simp

theorem subscribe_eq_ok {uuid : Uuid} {subscriber : SessionId} {observer : Observer}
    (success : tree.subscribe uuid subscriber observer = (.ok (), next)) :
    ∃ handle watchers, tree.watched uuid = .ok (handle, watchers) ∧
      next = tree.mapWatchers handle (·.insert subscriber observer) := by
  rw [subscribe_eq] at success
  cases found : tree.watched uuid with
  | error error =>
      rw [found] at success
      cases success
  | ok value =>
      rw [found] at success
      cases success
      exact ⟨value.1, value.2, rfl, rfl⟩

theorem unsubscribe_eq_ok {uuid : Uuid} {subscriber : SessionId}
    (success : tree.unsubscribe uuid subscriber = (.ok (), next)) :
    ∃ handle watchers, tree.watched uuid = .ok (handle, watchers) ∧
      watchers.contains subscriber = true ∧
      next = tree.mapWatchers handle (·.erase subscriber) := by
  rw [unsubscribe_eq] at success
  cases found : tree.watched uuid with
  | error error =>
      rw [found] at success
      cases success
  | ok value =>
      rw [found] at success
      dsimp only at success
      split at success
      · next registered =>
        cases success
        exact ⟨value.1, value.2, rfl, registered, rfl⟩
      · cases success

theorem alike_subscribe {uuid : Uuid} {subscriber : SessionId} {observer : Observer}
    (success : tree.subscribe uuid subscriber observer = (.ok (), next)) : tree.Alike next := by
  rcases subscribe_eq_ok success with ⟨handle, _, _, rfl⟩
  exact tree.alike_mapWatchers handle _

theorem alike_unsubscribe {uuid : Uuid} {subscriber : SessionId}
    (success : tree.unsubscribe uuid subscriber = (.ok (), next)) : tree.Alike next := by
  rcases unsubscribe_eq_ok success with ⟨handle, _, _, _, rfl⟩
  exact tree.alike_mapWatchers handle _

namespace Sound

theorem create (sound : tree.Sound) {path : String} {kind : PropertyKind} {payload : Bytes}
    {owner : SessionId} {info : PropertyInfo}
    (success : tree.create path kind payload owner = (.ok info, next)) : next.Sound := by
  rcases create_eq_ok success with ⟨ancestors, name, parent, children, uuid, pool, found, _, _, rfl⟩
  refine sound_attach sound (sound.isLive_of_resolve found.ends) found.node found.absent ?_
    found.taken
  exact Path.isSegment_of_segments? found.accepted (by simp)

theorem delete (sound : tree.Sound) {path : String} {uuid : Uuid}
    (success : tree.delete path = (.ok uuid, next)) : next.Sound := by
  rcases delete_eq_ok success with ⟨_, _, _, _, _, found, _, rfl⟩
  exact sound_detach sound found.detachable

theorem subscribe (sound : tree.Sound) {uuid : Uuid} {subscriber : SessionId}
    {observer : Observer} (success : tree.subscribe uuid subscriber observer = (.ok (), next)) :
    next.Sound :=
  (alike_subscribe success).sound sound

theorem unsubscribe (sound : tree.Sound) {uuid : Uuid} {subscriber : SessionId}
    (success : tree.unsubscribe uuid subscriber = (.ok (), next)) : next.Sound :=
  (alike_unsubscribe success).sound sound

end Sound

/-! ## Writing -/

section Write

variable {ω : Type} {react : Reaction ω} {order : VisitOrder} {uuid : Uuid} {data : Bytes}
  {outside last : ω}

theorem deliver_preserves (update : ValueUpdate) (keeps : Tree × ω → Prop)
    (reacts : ∀ observer world, keeps world → keeps (react observer update world).2)
    (registrations : List Registration) (world : Tree × ω) (holds : keeps world) :
    keeps (deliver react update registrations world).2 := by
  induction registrations generalizing world with
  | nil => exact holds
  | cons registration others ih =>
      simp only [deliver]
      exact ih _ (reacts _ _ holds)

theorem setValue_eq_ok
    (success : setValue react order uuid data (tree, outside) = (.ok (), next, last)) :
    ∃ handle property watchers unserved delivered,
      tree.index.find? uuid = some handle ∧
      (tree.hold handle).property? handle = some property ∧
      property.watchers? = some watchers ∧
      deliver react { uuid := property.uuid, data } (order.arrange watchers.entries)
        ((tree.hold handle).overwrite handle data, outside) = (unserved, delivered, last) ∧
      next = (delivered.prune handle unserved).release handle := by
  rw [setValue_eq] at success
  cases found : tree.findUuid uuid with
  | error error =>
      rw [found] at success
      cases success
  | ok handle =>
      rw [found] at success
      dsimp only at success
      cases written : write react order handle data (tree.hold handle, outside) with
      | none =>
          rw [written] at success
          cases success
      | some world =>
          rw [written] at success
          simp only [write, Option.bind_eq_bind, Option.bind_eq_some_iff] at written
          rcases written with ⟨property, isThere, watchers, isValue, result⟩
          cases delivery : deliver react { uuid := property.uuid, data }
            (order.arrange watchers.entries)
            ((tree.hold handle).overwrite handle data, outside) with
          | mk unserved delivered =>
              rw [delivery] at result
              cases result
              cases success
              exact ⟨handle, property, watchers, unserved, delivered.1,
                (findUuid_eq_ok_iff _ _ _).mp found, isThere, isValue, delivery, rfl⟩

end Write

end Tree

end SharedTree
