import SharedTree.Proofs.Operation
import SharedTree.Proofs.Table
import SharedTree.Tree.Delivery

/-!
# What operations do to the tree

Creating and deleting change the tree in several steps. `Tree.attach` and `Tree.detach` say what
the steps come to, and `Tree.on_createWith` and `Tree.on_deleteWith` what comes out in each case.

Every operation checks what it has to check before it changes anything, except that a
registration is removed before it turns out that there was none. So an operation that fails
leaves the tree, and what is outside of it, as they were: `Tree.framed_createWith` and those after
it.
-/

namespace SharedTree

namespace UuidPool

variable {ι : Type}

/-- When there is no uuid left, the pool stays as it is. -/
theorem take_of_none {pool : UuidPool ι} {exists? : ι → Bool}
    (exhausted : (pool.take exists?).1 = none) : (pool.take exists?).2 = pool := by
  unfold take at exhausted ⊢
  split
  · next reusable =>
    rw [reusable] at exhausted
    cases exhausted
  · next noneFree =>
    rw [noneFree] at exhausted
    split
    · next unused =>
      rw [if_pos unused] at exhausted
      cases exhausted
    · rfl

end UuidPool

namespace Tree

open Operation

variable {tree : Tree}

/-! ## The steps together -/

/-- The tree with a new property under a name of a node, and the pool that its uuid was taken from. -/
def attach (tree : Tree) (parent : Handle) (name : String) (content : Content) (uuid : Uuid)
    (pool : UuidPool Handle) : Tree where
  properties :=
    (tree.properties.modify parent (·.mapChildren (·.insert name tree.nextHandle))).insert
      tree.nextHandle { uuid, name, parent := some parent, content }
  index := tree.index.insert uuid tree.nextHandle
  pool
  nextHandle := tree.nextHandle + 1

/-- The tree without a property that a node contains under a name. It is gone unless it is held. -/
def detach (tree : Tree) (parent : Handle) (name : String) (handle : Handle)
    (property : Property) : Tree :=
  let unlinked := tree.properties.modify parent (·.mapChildren (·.erase name))
  { tree with
    properties :=
      if property.holders = 0 then unlinked.erase handle else unlinked.modify handle (·.detach)
    index := tree.index.erase property.uuid
    pool := tree.pool.giveBack property.uuid handle }

/-- Putting a new property under its name and into the index attaches it. -/
theorem register_addChild (tree : Tree) (parent : Handle) (name : String) (content : Content)
    (uuid : Uuid) (pool : UuidPool Handle) :
    (({ tree with pool } : Tree).addChild parent name content uuid).register uuid
      tree.nextHandle = tree.attach parent name content uuid pool := rfl

theorem detach_mapChildren (property : Property)
    (change : Table String Handle → Table String Handle) :
    property.detach.mapChildren change = (property.mapChildren change).detach := by
  rcases property with ⟨_, _, _, _ | _ | _, _, _⟩ <;> rfl

theorem holders_detach (property : Property) : property.detach.holders = property.holders := by
  rcases property with ⟨_, _, _, _ | _ | _, _, _⟩ <;> rfl

theorem holders_mapChildren (property : Property)
    (change : Table String Handle → Table String Handle) :
    (property.mapChildren change).holders = property.holders := by
  rcases property with ⟨_, _, _, _ | _ | _, _, _⟩ <;> rfl

/-- Marking a property as deleted, taking it off its node and out of the index, and letting it go
unless it is held detaches it. -/
theorem collect_giveBack {parent handle : Handle} {name : String} {property : Property}
    (found : tree.property? handle = some property) :
    ((((tree.markDetached handle).removeChild parent name).unregister property.uuid).giveBack
      property.uuid handle).collect handle = tree.detach parent name handle property := by
  have swapped : ((tree.properties.modify handle (·.detach)).modify parent
      (·.mapChildren (·.erase name))) =
        (tree.properties.modify parent (·.mapChildren (·.erase name))).modify handle (·.detach) :=
    Table.modify_comm (fun _ property => detach_mapChildren property _) _
  have remains : ∃ left, ((((tree.markDetached handle).removeChild parent name).unregister
      property.uuid).giveBack property.uuid handle).property? handle = some left ∧
        left.holders = property.holders := by
    have isThere : tree.properties.find? handle = some property := found
    simp only [property?, giveBack, unregister, removeChild, markDetached, swapped,
      Table.find?_modify, if_pos, isThere]
    split
    · exact ⟨_, rfl, (holders_detach _).trans (holders_mapChildren _ _)⟩
    · exact ⟨_, rfl, holders_detach _⟩
  rcases remains with ⟨left, leftFound, sameHolders⟩
  rw [collect, leftFound]
  simp only [sameHolders, detach, giveBack, unregister, removeChild, markDetached, swapped]
  split
  · rw [Table.erase_modify]
  · rfl

/-! ## What comes out -/

section Outcomes

variable {ω α : Type}

theorem on_change_bind (step : Tree → Tree) (next : Unit → Operation TreeError (Tree × ω) α)
    (tree : Tree) (outside : ω) :
    (change step >>= next).on (tree, outside) = (next ()).on (step tree, outside) :=
  on_modify_bind _ next _

theorem on_announce_bind (step : ω → ω) (next : Unit → Operation TreeError (Tree × ω) α)
    (tree : Tree) (outside : ω) :
    (announce step >>= next).on (tree, outside) = (next ()).on (tree, step outside) :=
  on_modify_bind _ next _

theorem on_takeUuid_bind (next : Uuid → Operation TreeError (Tree × ω) α) (tree : Tree)
    (outside : ω) :
    (takeUuid >>= next).on (tree, outside) =
      match tree.pool.take tree.exists? with
      | (none, pool) => (.error .uuidsExhausted, { tree with pool }, outside)
      | (some uuid, pool) => (next uuid).on ({ tree with pool }, outside) := by
  rw [on_bind]
  simp only [takeUuid, on_get_bind, on_set_bind]
  rcases tree.pool.take tree.exists? with ⟨_ | _, pool⟩ <;> rfl

/-- Where a new property would go and what it would be called there, or why it is refused. -/
def place (tree : Tree) (path : String) (kind : PropertyKind) (payload : Bytes) :
    Except TreeError (Handle × String) :=
  match Path.segments? path with
  | none => .error .malformedPath
  | some segments =>
    match segments.getLast? with
    | none => .error .alreadyExists
    | some name =>
      if kind ≠ .value ∧ payload ≠ [] then .error .payloadNotAllowed
      else
        match tree.resolve segments.dropLast with
        | none => .error .parentNotFound
        | some parent =>
          match tree.children? parent with
          | none => .error .parentNotFound
          | some children =>
            if tree.isDetached parent then .error .parentNotFound
            else if children.contains name then .error .alreadyExists
            else .ok (parent, name)

/-- Creating a property looks for its place, takes a uuid and attaches the property. -/
theorem on_createWith (announcing : PropertyInfo → ω → ω) (path : String) (kind : PropertyKind)
    (payload : Bytes) (owner : SessionId) (tree : Tree) (outside : ω) :
    (createWith announcing path kind payload owner).on (tree, outside) =
      match tree.place path kind payload with
      | .error error => (.error error, tree, outside)
      | .ok (parent, name) =>
        match tree.pool.take tree.exists? with
        | (none, pool) => (.error .uuidsExhausted, { tree with pool }, outside)
        | (some uuid, pool) =>
          (.ok { uuid, kind, path }, tree.attach parent name (.new kind payload owner) uuid pool,
            announcing { uuid, kind, path } outside) := by
  simp only [createWith, on_require_bind, on_refuseIf_bind, on_get_bind, on_takeUuid_bind,
    on_change_bind, on_announce_bind, on_pure, register_addChild, place]
  cases Path.segments? path with
  | none => rfl
  | some segments =>
      dsimp only
      cases segments.getLast? with
      | none => rfl
      | some name =>
          dsimp only
          split
          · rfl
          · cases tree.resolve segments.dropLast with
            | none => rfl
            | some parent =>
                dsimp only
                cases tree.children? parent with
                | none => rfl
                | some children =>
                    dsimp only
                    split
                    · rfl
                    · split <;> rfl

/-- The property that would be deleted, with the node that contains it and its name there, or why that
is refused. -/
def target (tree : Tree) (path : String) :
    Except TreeError (Handle × String × Handle × Property) :=
  match Path.segments? path with
  | none => .error .malformedPath
  | some segments =>
    match segments.getLast? with
    | none => .error .notPermitted
    | some name =>
      match tree.resolve segments.dropLast with
      | none => .error .objectNotFound
      | some parent =>
        match tree.children? parent with
        | none => .error .objectNotFound
        | some children =>
          if tree.isDetached parent then .error .objectNotFound
          else
            match children.find? name with
            | none => .error .objectNotFound
            | some handle =>
              match tree.property? handle with
              | none => .error .objectNotFound
              | some property =>
                if property.children?.map (·.isEmpty) = some false then .error .notEmpty
                else .ok (parent, name, handle, property)

/-- Deleting a property looks for it and detaches it. -/
theorem on_deleteWith (announcing : Uuid → ω → ω) (path : String) (tree : Tree) (outside : ω) :
    (deleteWith announcing path).on (tree, outside) =
      match tree.target path with
      | .error error => (.error error, tree, outside)
      | .ok (parent, name, handle, property) =>
        (.ok property.uuid, tree.detach parent name handle property,
          announcing property.uuid outside) := by
  simp only [deleteWith, on_require_bind, on_refuseIf_bind, on_get_bind, on_change_bind,
    on_announce_bind, on_pure, target]
  cases Path.segments? path with
  | none => rfl
  | some segments =>
      dsimp only
      cases segments.getLast? with
      | none => rfl
      | some name =>
          dsimp only
          cases tree.resolve segments.dropLast with
          | none => rfl
          | some parent =>
              dsimp only
              cases tree.children? parent with
              | none => rfl
              | some children =>
                  dsimp only
                  split
                  · rfl
                  · cases children.find? name with
                    | none => rfl
                    | some handle =>
                        dsimp only
                        cases found : tree.property? handle with
                        | none => rfl
                        | some property =>
                            dsimp only
                            split
                            · rfl
                            · rw [collect_giveBack found]

theorem create_eq (tree : Tree) (path : String) (kind : PropertyKind) (payload : Bytes)
    (owner : SessionId) :
    tree.create path kind payload owner =
      match tree.place path kind payload with
      | .error error => (.error error, tree)
      | .ok (parent, name) =>
        match tree.pool.take tree.exists? with
        | (none, pool) => (.error .uuidsExhausted, { tree with pool })
        | (some uuid, pool) =>
          (.ok { uuid, kind, path }, tree.attach parent name (.new kind payload owner) uuid pool) := by
  rw [create, run, on_createWith]
  cases tree.place path kind payload with
  | error error => rfl
  | ok place => rcases tree.pool.take tree.exists? with ⟨_ | _, pool⟩ <;> rfl

theorem delete_eq (tree : Tree) (path : String) :
    tree.delete path =
      match tree.target path with
      | .error error => (.error error, tree)
      | .ok (parent, name, handle, property) =>
        (.ok property.uuid, tree.detach parent name handle property) := by
  rw [delete, run, on_deleteWith]
  cases tree.target path <;> rfl

/-- What is outside of the tree has no part in creating a property; it is told if that succeeds. -/
theorem on_createWith_eq (announcing : PropertyInfo → ω → ω) (path : String) (kind : PropertyKind)
    (payload : Bytes) (owner : SessionId) (tree : Tree) (outside : ω) :
    (createWith announcing path kind payload owner).on (tree, outside) =
      ((tree.create path kind payload owner).1, (tree.create path kind payload owner).2,
        match (tree.create path kind payload owner).1 with
        | .ok info => announcing info outside
        | .error _ => outside) := by
  rw [create_eq, on_createWith]
  cases tree.place path kind payload with
  | error error => rfl
  | ok place => rcases tree.pool.take tree.exists? with ⟨_ | _, pool⟩ <;> rfl

theorem on_deleteWith_eq (announcing : Uuid → ω → ω) (path : String) (tree : Tree) (outside : ω) :
    (deleteWith announcing path).on (tree, outside) =
      ((tree.delete path).1, (tree.delete path).2,
        match (tree.delete path).1 with
        | .ok uuid => announcing uuid outside
        | .error _ => outside) := by
  rw [delete_eq, on_deleteWith]
  cases tree.target path <;> rfl

theorem subscribe_eq (tree : Tree) (uuid : Uuid) (subscriber : SessionId) (observer : Observer) :
    tree.subscribe uuid subscriber observer =
      match tree.watched uuid with
      | .error error => (.error error, tree)
      | .ok (handle, _) => (.ok (), tree.mapWatchers handle (·.insert subscriber observer)) := by
  simp only [subscribe, run, on_ofExcept_bind]
  cases tree.watched uuid <;> rfl

theorem unsubscribe_eq (tree : Tree) (uuid : Uuid) (subscriber : SessionId) :
    tree.unsubscribe uuid subscriber =
      match tree.watched uuid with
      | .error error => (.error error, tree)
      | .ok (handle, watchers) =>
        (if watchers.contains subscriber then .ok () else .error (.notSubscribed uuid),
          tree.mapWatchers handle (·.erase subscriber)) := by
  simp only [unsubscribe, run, on_ofExcept_bind]
  cases tree.watched uuid with
  | error error => rfl
  | ok found =>
      simp only [on_change_bind, refuseIf]
      cases found.2.contains subscriber <;> rfl

theorem setValue_eq (react : Reaction ω) (order : VisitOrder) (uuid : Uuid) (data : Bytes)
    (tree : Tree) (outside : ω) :
    setValue react order uuid data (tree, outside) =
      match tree.findUuid uuid with
      | .error error => (.error error, tree, outside)
      | .ok handle =>
        match write react order handle data (tree.hold handle, outside) with
        | none => (.error (.notAValue uuid), tree, outside)
        | some (written, last) => (.ok (), written.release handle, last) := by
  simp only [setValue, on_get_bind, on_ofExcept_bind, on_require_bind, on_set_bind]
  cases tree.findUuid uuid with
  | error error => rfl
  | ok handle =>
      dsimp only
      cases write react order handle data (tree.hold handle, outside) <;> rfl

end Outcomes

/-! ## Failing without a trace -/

section Framed

variable {ω : Type}

theorem succeeds_change (step : Tree → Tree) :
    (change step : Operation TreeError (Tree × ω) Unit).Succeeds := succeeds_modify _

theorem succeeds_announce (step : ω → ω) :
    (announce step : Operation TreeError (Tree × ω) Unit).Succeeds := succeeds_modify _

theorem framed_takeUuid : (takeUuid : Operation TreeError (Tree × ω) Uuid).Framed := by
  rintro ⟨tree, outside⟩ error failed
  simp only [takeUuid, on_get_bind, on_set_bind] at failed ⊢
  cases taken : (tree.pool.take tree.exists?).1 with
  | none => rw [looks_require, UuidPool.take_of_none taken]
  | some uuid =>
      rw [taken] at failed
      cases failed

theorem framed_createWith (announcing : PropertyInfo → ω → ω) (path : String) (kind : PropertyKind)
    (payload : Bytes) (owner : SessionId) :
    (createWith announcing path kind payload owner).Framed := by
  refine (looks_require _ _).bind_framed fun segments => ?_
  refine (looks_require _ _).bind_framed fun name => ?_
  refine (looks_refuseIf _ _).bind_framed fun _ => ?_
  refine looks_get.bind_framed fun world => ?_
  refine (looks_require _ _).bind_framed fun parent => ?_
  refine (looks_require _ _).bind_framed fun children => ?_
  refine (looks_refuseIf _ _).bind_framed fun _ => ?_
  refine (looks_refuseIf _ _).bind_framed fun _ => ?_
  refine framed_takeUuid.bind_succeeds fun uuid => ?_
  exact (succeeds_change _).bind fun _ => (succeeds_change _).bind fun _ =>
    (succeeds_announce _).bind fun _ => succeeds_pure _

theorem framed_deleteWith (announcing : Uuid → ω → ω) (path : String) :
    (deleteWith announcing path).Framed := by
  refine (looks_require _ _).bind_framed fun segments => ?_
  refine (looks_require _ _).bind_framed fun name => ?_
  refine looks_get.bind_framed fun world => ?_
  refine (looks_require _ _).bind_framed fun parent => ?_
  refine (looks_require _ _).bind_framed fun children => ?_
  refine (looks_refuseIf _ _).bind_framed fun _ => ?_
  refine (looks_require _ _).bind_framed fun handle => ?_
  refine (looks_require _ _).bind_framed fun property => ?_
  refine (looks_refuseIf _ _).framed.bind_succeeds fun _ => ?_
  exact (succeeds_change _).bind fun _ => (succeeds_change _).bind fun _ =>
    (succeeds_change _).bind fun _ => (succeeds_change _).bind fun _ =>
    (succeeds_announce _).bind fun _ => (succeeds_change _).bind fun _ => succeeds_pure _

theorem run_of_framed {α : Type} {operation : Operation TreeError (Tree × Unit) α}
    (framed : operation.Framed) {error : TreeError}
    (failed : (tree.run operation).1 = .error error) : (tree.run operation).2 = tree :=
  congrArg Prod.fst (framed _ error failed)

theorem create_of_error {path : String} {kind : PropertyKind} {payload : Bytes} {owner : SessionId}
    {error : TreeError} (failed : (tree.create path kind payload owner).1 = .error error) :
    (tree.create path kind payload owner).2 = tree :=
  run_of_framed (framed_createWith _ _ _ _ _) failed

theorem delete_of_error {path : String} {error : TreeError}
    (failed : (tree.delete path).1 = .error error) : (tree.delete path).2 = tree :=
  run_of_framed (framed_deleteWith _ _) failed

theorem subscribe_of_error {uuid : Uuid} {subscriber : SessionId} {observer : Observer}
    {error : TreeError} (failed : (tree.subscribe uuid subscriber observer).1 = .error error) :
    (tree.subscribe uuid subscriber observer).2 = tree :=
  run_of_framed ((looks_ofExcept _).framed.bind_succeeds fun _ => succeeds_change _) failed

theorem watchers?_of_watched {uuid : Uuid} {handle : Handle} {watchers : Table SessionId Observer}
    (watched : tree.watched uuid = .ok (handle, watchers)) :
    (tree.property? handle).bind (·.watchers?) = some watchers := by
  unfold Tree.watched at watched
  split at watched
  · cases watched
  · split at watched
    · next isValue =>
      cases watched
      exact isValue
    · cases watched

/-- Removing a registration that there is not changes nothing. -/
theorem mapWatchers_erase_of_absent {handle : Handle} {watchers : Table SessionId Observer}
    {subscriber : SessionId} (isValue : (tree.property? handle).bind (·.watchers?) = some watchers)
    (absent : watchers.contains subscriber = false) :
    tree.mapWatchers handle (·.erase subscriber) = tree := by
  have unchanged : tree.properties.modify handle (·.mapWatchers (·.erase subscriber)) =
      tree.properties := by
    refine Table.modify_eq_self fun property found => ?_
    rw [property?, found, Option.bind_some] at isValue
    rcases property with ⟨_, _, _, _ | ⟨payload, same⟩ | _, _, _⟩
    · cases isValue
    · cases isValue
      simp only [Property.mapWatchers, Table.erase_of_absent absent]
    · cases isValue
  rw [mapWatchers, unchanged]

theorem unsubscribe_of_error {uuid : Uuid} {subscriber : SessionId} {error : TreeError}
    (failed : (tree.unsubscribe uuid subscriber).1 = .error error) :
    (tree.unsubscribe uuid subscriber).2 = tree := by
  rw [unsubscribe_eq] at failed ⊢
  cases watched : tree.watched uuid with
  | error error => rfl
  | ok found =>
      rw [watched] at failed
      cases registered : found.2.contains subscriber with
      | false => exact mapWatchers_erase_of_absent (watchers?_of_watched watched) registered
      | true =>
          simp only [registered] at failed
          cases failed

theorem setValue_of_error {react : Reaction ω} {order : VisitOrder} {uuid : Uuid} {data : Bytes}
    {world : Tree × ω} {error : TreeError}
    (failed : (setValue react order uuid data world).1 = .error error) :
    (setValue react order uuid data world).2 = world := by
  refine looks_get.bind_framed (fun world => (looks_ofExcept _).bind_framed fun handle =>
    (looks_require _ _).framed.bind_succeeds fun _ => ?_) world error failed
  exact (succeeds_modify _).bind fun _ => succeeds_change _

end Framed

end Tree

end SharedTree
