import SharedTree.Proofs.Tree.Quiet

/-!
# Values and their watchers

This file follows the values of a tree: the payload of each and who watches it. Creating a
property makes at most one value, which nobody watches. Writing changes the payload of one
value and changing watchers those of one value. Nothing else that happens to a tree changes
a value, though it may make one disappear.
-/

namespace SharedTree

namespace Property

/-- The payload of a value and who watches it. -/
def value? (property : Property) : Option (Bytes × Table SessionId Observer) :=
  match property.content with
  | .value payload watchers => some (payload, watchers)
  | _ => none

theorem value?_mapChildren (change : Table String Handle → Table String Handle)
    (property : Property) : (property.mapChildren change).value? = property.value? := by
  rcases property with ⟨_, _, _, content, _⟩
  cases content <;> rfl

theorem value?_detach (property : Property) : property.detach.value? = property.value? := by
  rcases property with ⟨_, _, _, content, _⟩
  cases content <;> rfl

theorem value?_withPayload (data : Bytes) (property : Property) :
    (property.withPayload data).value? = property.value?.map fun value => (data, value.2) := by
  rcases property with ⟨_, _, _, content, _⟩
  cases content <;> rfl

theorem value?_mapWatchers (change : Table SessionId Observer → Table SessionId Observer)
    (property : Property) :
    (property.mapWatchers change).value? =
      property.value?.map fun value => (value.1, change value.2) := by
  rcases property with ⟨_, _, _, content, _⟩
  cases content <;> rfl

theorem payload?_eq_value? (property : Property) :
    property.payload? = property.value?.map Prod.fst := by
  rcases property with ⟨_, _, _, content, _⟩
  cases content <;> rfl

theorem watchers?_eq_value? (property : Property) :
    property.watchers? = property.value?.map Prod.snd := by
  rcases property with ⟨_, _, _, content, _⟩
  cases content <;> rfl

end Property

namespace Tree

variable {tree before middle after : Tree}

/-- The payload of the value with a handle and who watches it. -/
def value? (tree : Tree) (handle : Handle) : Option (Bytes × Table SessionId Observer) :=
  (tree.property? handle).bind (·.value?)

theorem value?_new (handle : Handle) : Tree.new.value? handle = none := by
  rw [value?, Option.bind_eq_none_iff]
  intro property found
  rw [(eq_of_property?_new found).2]
  rfl

theorem value?_modify (tree : Tree) (handle : Handle) (change : Property → Property)
    (other : Handle) :
    ({ tree with properties := tree.properties.modify handle change } : Tree).value? other =
      if other = handle then (tree.property? other).bind fun property => (change property).value?
      else tree.value? other := by
  simp only [value?, property?, Table.find?_modify]
  split
  · rw [Option.bind_map]
    rfl
  · rfl

@[simp] theorem value?_hold (tree : Tree) (handle other : Handle) :
    (tree.hold handle).value? other = tree.value? other := by
  rw [hold, value?_modify]
  exact ite_self _

theorem value?_mapWatchers (tree : Tree) (handle : Handle)
    (change : Table SessionId Observer → Table SessionId Observer) (other : Handle) :
    (tree.mapWatchers handle change).value? other =
      if other = handle then (tree.value? other).map fun value => (value.1, change value.2)
      else tree.value? other := by
  rw [mapWatchers, value?_modify]
  simp only [Property.value?_mapWatchers, value?, Option.map_bind]
  rfl

theorem value?_overwrite (tree : Tree) (handle : Handle) (data : Bytes) (other : Handle) :
    (tree.overwrite handle data).value? other =
      if other = handle then (tree.value? other).map fun value => (data, value.2)
      else tree.value? other := by
  rw [overwrite, value?_modify]
  simp only [Property.value?_withPayload, value?, Option.map_bind]
  rfl

theorem value?_prune (tree : Tree) (handle : Handle) (unserved : List Registration) :
    (tree.prune handle unserved).value? handle = (tree.value? handle).map fun value =>
      (value.1, value.2.filter fun subscriber observer =>
        !unserved.contains (subscriber, observer)) := by
  rw [prune, value?_mapWatchers, if_pos rfl]

theorem value?_attach (tree : Tree) (parent : Handle) (name : String) (kind : PropertyKind)
    (payload : Bytes) (owner : SessionId) (uuid : Uuid) (pool : UuidPool Handle)
    (handle : Handle) :
    (tree.attach parent name (.new kind payload owner) uuid pool).value? handle =
      if handle = tree.nextHandle then if kind = .value then some (payload, .empty) else none
      else tree.value? handle := by
  simp only [value?, property?_attach]
  split
  · cases kind <;> rfl
  · split
    · simp only [Option.bind_map, Function.comp_def, Property.value?_mapChildren]
    · rfl

/-- The values of a tree that are left were already there, with the same payloads and watchers. -/
def KeepsValues (before after : Tree) : Prop :=
  ∀ handle value, after.value? handle = some value → before.value? handle = some value

theorem value?_remnant (parent : Handle) (name : String) (handle other : Handle)
    (property : Property) :
    (remnant parent name handle other property).value? = property.value? := by
  unfold remnant
  split <;> split <;> simp only [Property.value?_detach, Property.value?_mapChildren]

namespace KeepsValues

theorem refl (tree : Tree) : tree.KeepsValues tree :=
  fun _ _ found => found

theorem trans (first : before.KeepsValues middle) (second : middle.KeepsValues after) :
    before.KeepsValues after :=
  fun handle value found => first handle value (second handle value found)

theorem hold (tree : Tree) (handle : Handle) : tree.KeepsValues (tree.hold handle) := by
  intro other value found
  rwa [value?_hold] at found

theorem release (tree : Tree) (handle : Handle) : tree.KeepsValues (tree.release handle) := by
  intro other value found
  cases isThere : tree.property? handle with
  | none => simpa only [Tree.release, isThere] using found
  | some property =>
      simp only [value?, property?_release isThere] at found
      split at found
      · next same =>
        split at found
        · cases found
        · rw [value?, same, isThere]
          exact found
      · exact found

theorem lent (lent : before.Lent after) : before.KeepsValues after := by
  induction lent with
  | refl => exact refl before
  | hold _ handle ih => exact ih.trans (hold _ handle)
  | release _ handle ih => exact ih.trans (release _ handle)

theorem detach (tree : Tree) (parent : Handle) (name : String) (handle : Handle)
    (property : Property) : tree.KeepsValues (tree.detach parent name handle property) := by
  intro other value found
  simp only [value?, property?_detach] at found
  split at found
  · cases found
  · simp only [Option.bind_map, Function.comp_def, value?_remnant] at found
    exact found

theorem delete {path : String} {uuid : Uuid}
    (success : before.delete path = (.ok uuid, after)) : before.KeepsValues after := by
  rcases delete_eq_ok success with ⟨_, name, parent, gone, property, _, _, rfl⟩
  exact detach before parent name gone property

end KeepsValues

/-! ## What changes a value -/

/-- The live value with a uuid. -/
def liveValue? (tree : Tree) (uuid : Uuid) : Option Handle :=
  (tree.index.find? uuid).filter fun handle => (tree.value? handle).isSome

theorem liveValue?_eq_some_iff (tree : Tree) (uuid : Uuid) (handle : Handle) :
    tree.liveValue? uuid = some handle ↔
      tree.index.find? uuid = some handle ∧ ∃ value, tree.value? handle = some value := by
  rw [liveValue?, Option.filter_eq_some_iff, Option.isSome_iff_exists]

theorem watched_eq_ok_iff (tree : Tree) (uuid : Uuid) (handle : Handle)
    (watchers : Table SessionId Observer) :
    tree.watched uuid = .ok (handle, watchers) ↔
      tree.index.find? uuid = some handle ∧
        ∃ payload, tree.value? handle = some (payload, watchers) := by
  unfold watched findUuid
  cases tree.index.find? uuid with
  | none => simp
  | some other =>
      have same : (tree.property? other).bind (·.watchers?) = (tree.value? other).map Prod.snd := by
        simp only [value?, Property.watchers?_eq_value?, Option.map_bind]
        rfl
      dsimp only
      rw [same]
      cases isValue : tree.value? other with
      | none =>
          simp only [Option.map_none, reduceCtorEq, Option.some.injEq, false_iff]
          rintro ⟨rfl, payload, impossible⟩
          rw [isValue] at impossible
          cases impossible
      | some value =>
          simp only [Option.map_some, Except.ok.injEq, Prod.mk.injEq, Option.some.injEq]
          constructor
          · rintro ⟨rfl, rfl⟩
            exact ⟨rfl, value.1, isValue⟩
          · rintro ⟨rfl, payload, found⟩
            rw [isValue] at found
            cases found
            exact ⟨rfl, rfl⟩

/-! ## Writing -/

section Write

variable {ω : Type} {react : Reaction ω} {order : VisitOrder} {uuid : Uuid} {data : Bytes}
  {outside last : ω}

theorem value?_of_watchers? {handle : Handle} {property : Property}
    {watchers : Table SessionId Observer} (found : tree.property? handle = some property)
    (isValue : property.watchers? = some watchers) :
    ∃ payload, tree.value? handle = some (payload, watchers) := by
  rw [Property.watchers?_eq_value?, Option.map_eq_some_iff] at isValue
  rcases isValue with ⟨⟨payload, _⟩, isPair, rfl⟩
  exact ⟨payload, by rw [value?, found, Option.bind_some, isPair]⟩

theorem write_eq_some {handle : Handle} {property : Property} {watchers : Table SessionId Observer}
    (found : tree.property? handle = some property)
    (isValue : property.watchers? = some watchers) :
    write react order handle data (tree, outside) =
      let (unserved, told, last) :=
        deliver react { uuid := property.uuid, data } (order.arrange watchers.entries)
          (tree.overwrite handle data, outside)
      some (told.prune handle unserved, last) := by
  simp [write, found, isValue]

theorem exists_property_of_value? {handle : Handle} {payload : Bytes}
    {watchers : Table SessionId Observer}
    (isValue : tree.value? handle = some (payload, watchers)) :
    ∃ property, tree.property? handle = some property ∧ property.watchers? = some watchers := by
  rcases Option.bind_eq_some_iff.mp isValue with ⟨property, found, isPair⟩
  refine ⟨property, found, ?_⟩
  rw [property.watchers?_eq_value?, isPair]
  rfl

theorem exists_setValue {handle : Handle} {watchers : Table SessionId Observer}
    (watched : tree.watched uuid = .ok (handle, watchers)) :
    ∃ after, setValue react order uuid data (tree, outside) = (.ok (), after) := by
  rcases (watched_eq_ok_iff _ _ _ _).mp watched with ⟨inIndex, payload, isValue⟩
  rcases exists_property_of_value? (isValue ▸ tree.value?_hold handle handle) with
    ⟨property, found, isWatched⟩
  simp only [setValue_eq, (findUuid_eq_ok_iff _ _ _).mpr inIndex, write, found, isWatched,
    Option.bind_eq_bind, Option.bind_some]
  exact ⟨_, rfl⟩

/-- What writing a value makes of a tree that no observer changes. -/
theorem setValue_of_passive (linked : tree.Linked)
    (passive : ∀ observer update world, (react observer update world).2.1 = world.1)
    (success : setValue react order uuid data (tree, outside) = (.ok (), after, last)) :
    ∃ handle watchers unserved, tree.watched uuid = .ok (handle, watchers) ∧
      deliver react { uuid, data } (order.arrange watchers.entries)
        ((tree.hold handle).overwrite handle data, outside) =
          (unserved, (tree.hold handle).overwrite handle data, last) ∧
      after = (((tree.hold handle).overwrite handle data).prune handle unserved).release handle := by
  rcases setValue_eq_ok success with
    ⟨handle, property, watchers, unserved, delivered, inIndex, found, isWatched, delivery, rfl⟩
  have unchanged := deliver_preserves { uuid := property.uuid, data }
    (fun world : Tree × ω => world.1 = (tree.hold handle).overwrite handle data)
    (fun observer world same => (passive observer _ world).trans same)
    (order.arrange watchers.entries) ((tree.hold handle).overwrite handle data, outside) rfl
  rw [delivery] at unchanged
  rw [show delivered = (tree.hold handle).overwrite handle data from unchanged] at delivery ⊢
  have isValue := value?_of_watchers? found isWatched
  rw [value?_hold] at isValue
  have named : property.uuid = uuid := by
    rcases linked.indexed _ _ inIndex with ⟨same, _, sameFound, sameUuid, _⟩
    have held : (tree.hold handle).property? handle =
        some { same with holders := same.holders + 1 } := by
      simp only [hold, property?, Table.find?_modify, if_pos]
      rw [show tree.properties.find? handle = some same from sameFound]
      rfl
    rw [found] at held
    cases held
    exact sameUuid
  rw [named] at delivery
  exact ⟨handle, watchers, unserved, (watched_eq_ok_iff _ _ _ _).mpr ⟨inIndex, isValue⟩, delivery,
    rfl⟩

/-- What writing a value makes of the values of a tree that no observer changes. -/
theorem setValue_values (linked : tree.Linked)
    (passive : ∀ observer update world, (react observer update world).2.1 = world.1)
    (success : setValue react order uuid data (tree, outside) = (.ok (), after, last)) :
    ∃ handle watchers unserved, tree.watched uuid = .ok (handle, watchers) ∧
      deliver react { uuid, data } (order.arrange watchers.entries)
        ((tree.hold handle).overwrite handle data, outside) =
          (unserved, (tree.hold handle).overwrite handle data, last) ∧
      ∀ other value, after.value? other = some value →
        if other = handle then
          value = (data, watchers.filter fun subscriber observer =>
            !unserved.contains (subscriber, observer))
        else tree.value? other = some value := by
  rcases setValue_of_passive linked passive success with
    ⟨handle, watchers, unserved, watched, delivery, rfl⟩
  refine ⟨handle, watchers, unserved, watched, delivery, ?_⟩
  intro other value isLeft
  have before := KeepsValues.release _ handle other value isLeft
  rw [prune, value?_mapWatchers, value?_overwrite, value?_hold] at before
  split at before
  · next same =>
    rcases (watched_eq_ok_iff _ _ _ _).mp watched with ⟨_, payload, isValue⟩
    rw [if_pos same]
    rw [same, isValue] at before
    exact (Option.some.inj before).symm
  · next different =>
    rw [if_neg different]
    exact before

end Write

/-! ## Values by uuid -/

/-- The payload of the live value with a uuid and who watches it. -/
def valueAt? (tree : Tree) (uuid : Uuid) : Option (Bytes × Table SessionId Observer) :=
  (tree.index.find? uuid).bind tree.value?

theorem valueAt?_eq_some_iff (tree : Tree) (uuid : Uuid)
    (value : Bytes × Table SessionId Observer) :
    tree.valueAt? uuid = some value ↔
      ∃ handle, tree.index.find? uuid = some handle ∧ tree.value? handle = some value :=
  Option.bind_eq_some_iff

/-- Asking for a value gives its payload. -/
theorem getValue_eq_ok_iff (tree : Tree) (uuid : Uuid) (payload : Bytes) :
    tree.getValue uuid = .ok payload ↔ ∃ watchers, tree.valueAt? uuid = some (payload, watchers) := by
  unfold getValue findUuid valueAt?
  cases tree.index.find? uuid with
  | none => simp [bind, Except.bind]
  | some handle =>
      have same : (tree.property? handle).bind (·.payload?) = (tree.value? handle).map Prod.fst := by
        simp only [value?, Property.payload?_eq_value?, Option.map_bind]
        rfl
      simp only [bind, Except.bind, same, Option.bind_some]
      cases tree.value? handle with
      | none => simp [throw, throwThe, MonadExceptOf.throw]
      | some value => simp [pure, Except.pure, Prod.ext_iff]

/-- Whether a subscriber watches the live value with a uuid. -/
def isWatchedBy (tree : Tree) (uuid : Uuid) (subscriber : SessionId) : Bool :=
  (tree.valueAt? uuid).any (·.2.contains subscriber)

theorem value?_release_of_live {handle other : Handle} (live : tree.isLive other = true) :
    (tree.release handle).value? other = tree.value? other := by
  cases found : tree.property? handle with
  | none => simp only [release, found]
  | some property =>
      rw [value?, property?_release found]
      split
      · next same =>
        have stays : ¬(property.holders ≤ 1 ∧ tree.isLive handle = false) := by
          rintro ⟨_, dead⟩
          rw [← same, live] at dead
          cases dead
        rw [if_neg stays, value?, same, found]
        rfl
      · rfl

theorem Lent.value?_of_live (lent : before.Lent after) {handle : Handle}
    (live : before.isLive handle = true) : after.value? handle = before.value? handle := by
  induction lent with
  | refl => rfl
  | hold _ held ih => rw [value?_hold, ih]
  | release lent released ih => rw [value?_release_of_live (lent.quiet.isLive handle live), ih]

namespace Linked

/-- Holding and releasing properties changes no live value. -/
theorem valueAt?_of_lent (linked : before.Linked) (lent : before.Lent after) (uuid : Uuid) :
    after.valueAt? uuid = before.valueAt? uuid := by
  rw [valueAt?, lent.quiet.index, valueAt?]
  cases inIndex : before.index.find? uuid with
  | none => rfl
  | some handle => exact lent.value?_of_live (linked.isLive_of_index inIndex)

/-- A new value has the payload it was created with and nobody watches it. -/
theorem valueAt?_attach (linked : tree.Linked) (parent : Handle) (name : String)
    (kind : PropertyKind) (payload : Bytes) (owner : SessionId) (uuid : Uuid)
    (pool : UuidPool Handle) (other : Uuid) :
    (tree.attach parent name (.new kind payload owner) uuid pool).valueAt? other =
      if other = uuid then if kind = .value then some (payload, .empty) else none
      else tree.valueAt? other := by
  have isIndex : (tree.attach parent name (.new kind payload owner) uuid pool).index =
      tree.index.insert uuid tree.nextHandle := rfl
  rw [valueAt?, isIndex, Table.find?_insert]
  split
  · rw [Option.bind_some, value?_attach, if_pos rfl]
  · rw [valueAt?]
    cases inIndex : tree.index.find? other with
    | none => rfl
    | some handle =>
        rcases linked.indexed _ _ inIndex with ⟨property, _, found, _⟩
        rw [Option.bind_some, Option.bind_some, value?_attach,
          if_neg (linked.ne_nextHandle found)]

theorem valueAt?_detach (linked : tree.Linked) {parent handle : Handle} {name : String}
    {property : Property} (detachable : tree.Detachable parent name handle property)
    (uuid : Uuid) :
    (tree.detach parent name handle property).valueAt? uuid =
      if uuid = property.uuid then none else tree.valueAt? uuid := by
  have isIndex : (tree.detach parent name handle property).index =
      tree.index.erase property.uuid := rfl
  rw [valueAt?, isIndex, Table.find?_erase]
  split
  · rfl
  · next other =>
    rw [valueAt?]
    cases inIndex : tree.index.find? uuid with
    | none => rfl
    | some found =>
        have stays : ¬(found = handle ∧ property.holders = 0) := by
          rintro ⟨rfl, _⟩
          have named := (linked.of_named detachable.named detachable.found).2.2
          exact other (linked.eq_of_indexed inIndex named)
        rw [Option.bind_some, Option.bind_some, value?, property?_detach, if_neg stays,
          Option.bind_map]
        simp only [Function.comp_def, value?_remnant]
        rfl

theorem valueAt?_mapWatchers (linked : tree.Linked) {uuid : Uuid} {handle : Handle}
    (inIndex : tree.index.find? uuid = some handle)
    (change : Table SessionId Observer → Table SessionId Observer) (other : Uuid) :
    (tree.mapWatchers handle change).valueAt? other =
      if other = uuid then (tree.valueAt? other).map fun value => (value.1, change value.2)
      else tree.valueAt? other := by
  have isIndex : (tree.mapWatchers handle change).index = tree.index := rfl
  rw [valueAt?, isIndex, valueAt?]
  cases otherIndex : tree.index.find? other with
  | none => simp
  | some found =>
      have same : found = handle ↔ other = uuid := by
        constructor
        · rintro rfl
          exact linked.eq_of_indexed otherIndex inIndex
        · rintro rfl
          exact Option.some.inj (otherIndex.symm.trans inIndex)
      rw [Option.bind_some, Option.bind_some, value?_mapWatchers]
      simp only [same]

end Linked

/-- Writing a value that no observer changes gives it the payload, takes away the registrations that
were not served, and changes no other value. -/
theorem valueAt?_setValue {ω : Type} {react : Reaction ω} {order : VisitOrder} {uuid : Uuid}
    {data : Bytes} {outside last : ω} (linked : tree.Linked)
    (passive : ∀ observer update world, (react observer update world).2.1 = world.1)
    (success : setValue react order uuid data (tree, outside) = (.ok (), after, last)) :
    ∃ handle watchers unserved, tree.watched uuid = .ok (handle, watchers) ∧
      deliver react { uuid, data } (order.arrange watchers.entries)
        ((tree.hold handle).overwrite handle data, outside) =
          (unserved, (tree.hold handle).overwrite handle data, last) ∧
      ∀ other, after.valueAt? other =
        if other = uuid then some (data, watchers.filter fun subscriber observer =>
          !unserved.contains (subscriber, observer))
        else tree.valueAt? other := by
  rcases setValue_of_passive linked passive success with
    ⟨handle, watchers, unserved, watched, delivery, rfl⟩
  refine ⟨handle, watchers, unserved, watched, delivery, fun other => ?_⟩
  rcases (watched_eq_ok_iff _ _ _ _).mp watched with ⟨inIndex, payload, isValue⟩
  have alike := ((tree.alike_hold handle).trans (alike_overwrite _ handle data)).trans
    (alike_prune _ handle unserved)
  have lent : (((tree.hold handle).overwrite handle data).prune handle unserved).Lent
      ((((tree.hold handle).overwrite handle data).prune handle unserved).release handle) :=
    Lent.refl.release handle
  have sameIndex : (((tree.hold handle).overwrite handle data).prune handle unserved).index =
      tree.index := rfl
  rw [(alike.linked linked).valueAt?_of_lent lent, valueAt?, sameIndex, valueAt?]
  cases otherIndex : tree.index.find? other with
  | none =>
      have different : other ≠ uuid := by
        rintro rfl
        rw [inIndex] at otherIndex
        cases otherIndex
      rw [if_neg different]
      rfl
  | some found =>
      rw [Option.bind_some, Option.bind_some, prune, value?_mapWatchers, value?_overwrite,
        value?_hold]
      by_cases same : other = uuid
      · subst same
        cases otherIndex.symm.trans inIndex
        simp [isValue]
      · have different : found ≠ handle := by
          rintro rfl
          exact same (linked.eq_of_indexed otherIndex inIndex)
        rw [if_neg different, if_neg different, if_neg same]

end Tree

end SharedTree
