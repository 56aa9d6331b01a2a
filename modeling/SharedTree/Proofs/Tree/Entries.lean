import SharedTree.Proofs.Tree.FlatStore

/-!
# Entries of trees

What a flat store keeps of a property is its entry. This file says what every operation
does to the entries of a tree, and that without registrations no operation ever calls an
observer.
-/

namespace SharedTree

namespace Property

theorem entry_mapChildren (change : Table String Handle → Table String Handle)
    (property : Property) : (property.mapChildren change).entry = property.entry := by
  rcases property with ⟨_, _, _, content, _⟩
  cases content <;> rfl

theorem entry_mapWatchers (change : Table SessionId Observer → Table SessionId Observer)
    (property : Property) : (property.mapWatchers change).entry = property.entry := by
  rcases property with ⟨_, _, _, content, _⟩
  cases content <;> rfl

theorem entry_withPayload (data : Bytes) (property : Property) :
    (property.withPayload data).entry = property.entry.withPayload data := by
  rcases property with ⟨_, _, _, content, _⟩
  cases content <;> rfl

theorem watchers?_mapChildren (change : Table String Handle → Table String Handle)
    (property : Property) : (property.mapChildren change).watchers? = property.watchers? := by
  rcases property with ⟨_, _, _, content, _⟩
  cases content <;> rfl

theorem watchers?_detach (property : Property) :
    property.detach.watchers? = property.watchers? := by
  rcases property with ⟨_, _, _, content, _⟩
  cases content <;> rfl

theorem watchers?_withPayload (data : Bytes) (property : Property) :
    (property.withPayload data).watchers? = property.watchers? := by
  rcases property with ⟨_, _, _, content, _⟩
  cases content <;> rfl

theorem watchers?_mapWatchers (change : Table SessionId Observer → Table SessionId Observer)
    (property : Property) :
    (property.mapWatchers change).watchers? = property.watchers?.map change := by
  rcases property with ⟨_, _, _, content, _⟩
  cases content <;> rfl

theorem kind_eq_node_iff (property : Property) :
    property.kind = .node ↔ ∃ children, property.children? = some children := by
  rcases property with ⟨_, _, _, content, _⟩
  cases content <;> simp [kind, Content.kind, children?]

theorem payload?_eq_none_iff (property : Property) :
    property.payload? = none ↔ property.watchers? = none := by
  rcases property with ⟨_, _, _, content, _⟩
  cases content <;> simp [payload?, watchers?]

end Property

namespace Tree

open Operation (outcome_cases)

variable {tree next : Tree}

/-! ## What is kept of properties -/

theorem entry_created (uuid : Uuid) (name : String) (parent : Handle) (kind : PropertyKind)
    (payload : Bytes) (owner : SessionId) :
    (created uuid name parent kind payload owner).entry = .new uuid kind payload owner := by
  cases kind <;> rfl

theorem entryAt?_attach (tree : Tree) {parent : Handle} {name : String}
    {kind : PropertyKind} {payload : Bytes} {owner : SessionId} {uuid : Uuid}
    {pool : UuidPool Handle} (handle : Handle) :
    (tree.attach parent name (.new kind payload owner) uuid pool).entryAt? handle =
      if handle = tree.nextHandle then some (.new uuid kind payload owner)
      else tree.entryAt? handle := by
  simp only [entryAt?, property?_attach]
  split
  · rw [Option.map_some, entry_created]
  · split
    · simp only [Option.map_map, Function.comp_def, Property.entry_mapChildren]
    · rfl

theorem entryAt?_detach (tree : Tree) (parent : Handle) (name : String) {handle other : Handle}
    (property : Property) (different : other ≠ handle) :
    (tree.detach parent name handle property).entryAt? other = tree.entryAt? other := by
  simp only [entryAt?, property?_detach, remnant, different, false_and, if_false,
    Option.map_map, Function.comp_def]
  split
  · simp only [Property.entry_mapChildren]
  · rfl

/-- What the tree keeps under a chain of names from the root. -/
def stored? (tree : Tree) (segments : List String) : Option FlatEntry :=
  (tree.resolve segments).bind tree.entryAt?

theorem Linked.stored?_attach (linked : tree.Linked) {ancestors : List String} {parent : Handle}
    {name : String} {children : Table String Handle} {kind : PropertyKind} {payload : Bytes}
    {owner : SessionId} {uuid : Uuid} {pool : UuidPool Handle}
    (ends : tree.resolve ancestors = some parent) (node : tree.children? parent = some children)
    (absent : tree.child? parent name = none) (segments : List String) :
    (tree.attach parent name (.new kind payload owner) uuid pool).stored? segments =
      if segments = ancestors ++ [name] then some (.new uuid kind payload owner)
      else tree.stored? segments := by
  rw [stored?, resolve_attach linked ends node absent]
  split
  · rw [Option.bind_some, entryAt?_attach, if_pos rfl]
  · refine Option.bind_congr fun handle live => ?_
    rcases linked.exists_property_of_resolve live with ⟨property, found⟩
    rw [entryAt?_attach, if_neg (linked.ne_nextHandle found)]

theorem Linked.stored?_detach (linked : tree.Linked) {ancestors : List String}
    {parent handle : Handle} {name : String} {property : Property}
    (ends : tree.resolve ancestors = some parent)
    (detachable : tree.Detachable parent name handle property) (segments : List String) :
    (tree.detach parent name handle property).stored? segments =
      if segments = ancestors ++ [name] then none else tree.stored? segments := by
  rw [stored?, resolve_detach linked ends detachable]
  split
  · rfl
  · next others =>
    have whole : tree.resolve (ancestors ++ [name]) = some handle :=
      (resolve_concat_eq_some_iff _ _ _ _).mpr ⟨parent, ends, detachable.named⟩
    refine Option.bind_congr fun other live => entryAt?_detach _ _ _ _ ?_
    rintro rfl
    exact others (linked.resolve_injective live whole)

theorem entryAt?_modify (tree : Tree) (handle : Handle) (change : Property → Property)
    (same : ∀ property, (change property).entry = property.entry) (other : Handle) :
    ({ tree with properties := tree.properties.modify handle change } : Tree).entryAt? other =
      tree.entryAt? other := by
  simp only [entryAt?, property?, Table.find?_modify]
  split
  · simp only [Option.map_map, Function.comp_def, same]
  · rfl

theorem entryAt?_hold (tree : Tree) (handle other : Handle) :
    (tree.hold handle).entryAt? other = tree.entryAt? other :=
  tree.entryAt?_modify handle (fun property => { property with holders := property.holders + 1 })
    (fun _ => rfl) other

theorem entryAt?_mapWatchers (tree : Tree) (handle : Handle)
    (change : Table SessionId Observer → Table SessionId Observer) (other : Handle) :
    (tree.mapWatchers handle change).entryAt? other = tree.entryAt? other :=
  tree.entryAt?_modify handle _ (Property.entry_mapWatchers change) other

theorem entryAt?_overwrite (tree : Tree) (handle : Handle) (data : Bytes) (other : Handle) :
    (tree.overwrite handle data).entryAt? other =
      if other = handle then (tree.entryAt? other).map (·.withPayload data)
      else tree.entryAt? other := by
  simp only [entryAt?, overwrite, property?, Table.find?_modify]
  split
  · simp only [Option.map_map, Function.comp_def, Property.entry_withPayload]
  · rfl

theorem entryAt?_release {other : Handle} (live : tree.isLive other = true) (handle : Handle) :
    (tree.release handle).entryAt? other = tree.entryAt? other := by
  cases found : tree.property? handle with
  | none => simp only [release, found]
  | some property =>
      simp only [entryAt?, property?_release found]
      by_cases same : other = handle
      · subst same
        simp only [live, Bool.true_eq_false, and_false, if_true, if_false, found, Option.map_some]
        rfl
      · simp only [same, if_false]

theorem Linked.entryAt?_root (linked : tree.Linked) : tree.entryAt? rootHandle = some .root := by
  rcases linked.root with ⟨root, found, uuidEq, _, _, kindEq⟩
  rcases root with ⟨_, _, _, content, _⟩
  simp only [entryAt?, found, Option.map_some, Option.some.injEq, Property.entry, FlatEntry.root,
    FlatEntry.mk.injEq]
  cases content <;> simp_all [Property.kind, Content.kind, Property.payload?, Property.handler?]

/-! ## Trees without observers -/

/-- Nobody watches anything. -/
def Unwatched (tree : Tree) : Prop :=
  ∀ handle property watchers, tree.property? handle = some property →
    property.watchers? = some watchers → watchers.entries = []

theorem unwatched_new : Tree.new.Unwatched := by
  intro handle property watchers found watched
  simp only [new, property?, Table.find?_insert, Table.find?_empty] at found
  split at found
  · cases found
    cases watched
  · cases found

theorem watchers?_remnant (parent : Handle) (name : String) (handle other : Handle)
    (property : Property) :
    (remnant parent name handle other property).watchers? = property.watchers? := by
  unfold remnant
  split <;> split <;> simp only [Property.watchers?_detach, Property.watchers?_mapChildren]

namespace Unwatched

theorem modify (unwatched : tree.Unwatched) {change : Property → Property} (handle : Handle)
    (same : ∀ property, (change property).watchers? = property.watchers?) :
    ({ tree with properties := tree.properties.modify handle change } : Tree).Unwatched := by
  intro other property watchers found watched
  simp only [property?, Table.find?_modify] at found
  split at found
  · rcases Option.map_eq_some_iff.mp found with ⟨before, beforeFound, rfl⟩
    rw [same] at watched
    exact unwatched _ _ _ beforeFound watched
  · exact unwatched _ _ _ found watched

theorem hold (unwatched : tree.Unwatched) (handle : Handle) : (tree.hold handle).Unwatched :=
  unwatched.modify handle fun _ => rfl

theorem overwrite (unwatched : tree.Unwatched) (handle : Handle) (data : Bytes) :
    (tree.overwrite handle data).Unwatched :=
  unwatched.modify handle (Property.watchers?_withPayload data)

theorem prune (unwatched : tree.Unwatched) (handle : Handle) (unserved : List Registration) :
    (tree.prune handle unserved).Unwatched := by
  intro other property watchers found watched
  simp only [Tree.prune, mapWatchers, property?, Table.find?_modify] at found
  split at found
  · rcases Option.map_eq_some_iff.mp found with ⟨before, beforeFound, rfl⟩
    rw [Property.watchers?_mapWatchers] at watched
    rcases Option.map_eq_some_iff.mp watched with ⟨earlier, earlierWatched, rfl⟩
    simp [Table.filter, unwatched _ _ _ beforeFound earlierWatched]
  · exact unwatched _ _ _ found watched

theorem release (unwatched : tree.Unwatched) (handle : Handle) :
    (tree.release handle).Unwatched := by
  intro other property watchers found watched
  cases isThere : tree.property? handle with
  | none =>
      simp only [Tree.release, isThere] at found
      exact unwatched _ _ _ found watched
  | some before =>
      rw [property?_release isThere] at found
      split at found
      · split at found
        · cases found
        · cases found
          exact unwatched _ before _ isThere watched
      · exact unwatched _ _ _ found watched

theorem attach (unwatched : tree.Unwatched) (parent : Handle) (name : String)
    (kind : PropertyKind) (payload : Bytes) (owner : SessionId) (uuid : Uuid)
    (pool : UuidPool Handle) :
    (tree.attach parent name (.new kind payload owner) uuid pool).Unwatched := by
  intro other property watchers found watched
  rw [property?_attach] at found
  split at found
  · cases found
    cases kind <;> cases watched
    rfl
  · split at found
    · rcases Option.map_eq_some_iff.mp found with ⟨before, beforeFound, rfl⟩
      rw [Property.watchers?_mapChildren] at watched
      exact unwatched _ _ _ beforeFound watched
    · exact unwatched _ _ _ found watched

theorem detach (unwatched : tree.Unwatched) (parent : Handle) (name : String) (handle : Handle)
    (removed : Property) : (tree.detach parent name handle removed).Unwatched := by
  intro other property watchers found watched
  rw [property?_detach] at found
  split at found
  · cases found
  · rcases Option.map_eq_some_iff.mp found with ⟨before, beforeFound, rfl⟩
    rw [watchers?_remnant] at watched
    exact unwatched _ _ _ beforeFound watched

end Unwatched

theorem write_of_unwatched (unwatched : tree.Unwatched) {ω : Type} (react : Reaction ω)
    (order : VisitOrder) (handle : Handle) (data : Bytes) (outside : ω) :
    write react order handle data (tree, outside) =
      if (tree.entryAt? handle).bind (·.payload?) = none then none
      else some ((tree.overwrite handle data).prune handle [], outside) := by
  by_cases noValue : (tree.entryAt? handle).bind (·.payload?) = none
  · rw [if_pos noValue]
    cases found : tree.property? handle with
    | none => simp only [write, found, Option.bind_eq_bind, Option.bind_none]
    | some property =>
        rw [entryAt?, found] at noValue
        have notWatched := property.payload?_eq_none_iff.mp noValue
        simp only [write, found, notWatched, Option.bind_eq_bind, Option.bind_some,
          Option.bind_none]
  · rw [if_neg noValue]
    cases found : tree.property? handle with
    | none => exact absurd (by rw [entryAt?, found]; rfl) noValue
    | some property =>
        cases watched : property.watchers? with
        | none =>
            rw [entryAt?, found] at noValue
            exact absurd (property.payload?_eq_none_iff.mpr watched) noValue
        | some watchers =>
            have nobody : order.arrange watchers.entries = [] := by
              rw [unwatched _ _ _ found watched]
              exact (order.perm []).eq_nil
            simp only [write, found, watched, nobody, Option.bind_eq_bind, Option.bind_some]
            rfl

theorem setValue_of_unwatched (unwatched : tree.Unwatched) {ω : Type} (react : Reaction ω)
    (order : VisitOrder) (uuid : Uuid) (data : Bytes) (outside : ω) :
    setValue react order uuid data (tree, outside) =
      match tree.index.find? uuid with
      | none => (.error .objectNotFound, tree, outside)
      | some handle =>
        if (tree.entryAt? handle).bind (·.payload?) = none then
          (.error (.notAValue uuid), tree, outside)
        else
          (.ok (), (((tree.hold handle).overwrite handle data).prune handle []).release handle,
            outside) := by
  rw [setValue_eq, findUuid]
  cases tree.index.find? uuid with
  | none => rfl
  | some handle =>
      simp only [write_of_unwatched (unwatched.hold handle), entryAt?_hold]
      by_cases noValue : (tree.entryAt? handle).bind (·.payload?) = none
      · simp only [if_pos noValue]
      · simp only [if_neg noValue]

theorem pool_release (tree : Tree) (handle : Handle) :
    (tree.release handle).pool = tree.pool := by
  unfold release
  split <;> rfl

/-- What serving a request does to a tree that nobody watches, and the answer. -/
inductive Served (tree : Tree) : Except TreeError StoreAnswer → Tree → Prop where
  | unchanged (answer : Except TreeError StoreAnswer) : Served tree answer tree
  | created {path : String} {kind : PropertyKind} {payload : Bytes} {owner : SessionId}
      {info : PropertyInfo} {next : Tree}
      (success : tree.create path kind payload owner = (.ok info, next)) :
      Served tree (.ok (.created info)) next
  | deleted {path : String} {uuid : Uuid} {next : Tree}
      (success : tree.delete path = (.ok uuid, next)) : Served tree (.ok (.deleted uuid)) next
  | written (handle : Handle) (data : Bytes) :
      Served tree (.ok .written)
        ((((tree.hold handle).overwrite handle data).prune handle []).release handle)

theorem Unwatched.served (unwatched : tree.Unwatched) {ω : Type} (react : Reaction ω)
    (order : VisitOrder) (outside : ω) (request : StoreRequest) :
    tree.Served (tree.respond react order outside request).1
      (tree.respond react order outside request).2 := by
  cases request with
  | create path kind payload owner =>
      simp only [Tree.respond, answering]
      rcases outcome_cases fun _ => create_of_error with ⟨info, next, success⟩ | same
      · rw [success]
        exact .created success
      · rw [same]
        exact .unchanged _
  | delete path =>
      simp only [Tree.respond, answering]
      rcases outcome_cases fun _ => delete_of_error with ⟨uuid, next, success⟩ | same
      · rw [success]
        exact .deleted success
      · rw [same]
        exact .unchanged _
  | setValue uuid data =>
      simp only [Tree.respond, answering, setValue_of_unwatched unwatched]
      cases tree.index.find? uuid with
      | none => exact .unchanged _
      | some handle =>
          dsimp only
          split
          · exact .unchanged _
          · exact .written handle data
  | getValue uuid => exact .unchanged _
  | getByPath path => exact .unchanged _
  | getByUuid uuid => exact .unchanged _
  | info path => exact .unchanged _

namespace Served

variable {answer : Except TreeError StoreAnswer} {next : Tree}

theorem unwatched (served : tree.Served answer next) (unwatched : tree.Unwatched) :
    next.Unwatched := by
  cases served with
  | unchanged _ => exact unwatched
  | created success =>
      rcases create_eq_ok success with ⟨_, _, _, _, _, _, _, _, _, rfl⟩
      exact unwatched.attach _ _ _ _ _ _ _
  | deleted success =>
      rcases delete_eq_ok success with ⟨_, _, _, _, _, _, _, rfl⟩
      exact unwatched.detach _ _ _ _
  | written handle data => exact (((unwatched.hold _).overwrite _ _).prune _ _).release _

theorem sound (served : tree.Served answer next) (sound : tree.Sound) : next.Sound := by
  cases served with
  | unchanged _ => exact sound
  | created success => exact sound.create success
  | deleted success => exact sound.delete success
  | written handle data =>
      have written := (Tree.alike_overwrite _ handle data).sound (sound_hold sound handle)
      exact sound_release ((Tree.alike_prune _ handle []).sound written) handle

/-- A request uses at most one number up, and only by creating a property. -/
theorem next_le (served : tree.Served answer next) (request : StoreRequest) :
    next.pool.next ≤ tree.pool.next + creations [(request, answer)] := by
  cases served with
  | unchanged _ => exact Nat.le_add_right _ _
  | created success =>
      rcases create_eq_ok success with ⟨_, _, _, _, _, _, found, _, _, rfl⟩
      rcases UuidPool.take_eq_some found.taken with ⟨_, _, _, _, _, rfl⟩ | ⟨_, _, rfl⟩
      · exact Nat.le_add_right _ _
      · exact Nat.le_refl _
  | deleted success =>
      rcases delete_eq_ok success with ⟨_, _, _, _, _, _, _, rfl⟩
      exact Nat.le_add_right _ _
  | written handle data =>
      rw [pool_release]
      exact Nat.le_add_right _ _

end Served

end Tree

end SharedTree
