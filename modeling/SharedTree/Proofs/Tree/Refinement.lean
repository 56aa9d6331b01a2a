import SharedTree.Proofs.Tree.Entries

/-!
# Trees refine flat stores

A tree flattens to a store when the chain of names that spells a path leads to what the
store maps the path to. Every request keeps it so and has the answer that the flat store
gives. Whatever callers observe of a tree is therefore what a flat store could have shown
them.
-/

namespace SharedTree

namespace Tree

variable {tree : Tree} {store : FlatStore}

/-- The store maps exactly the paths of the live properties of the tree, to what is there. -/
structure Flattens (tree : Tree) (store : FlatStore) : Prop where
  mapped : ∀ segments, store.entryAt? segments = (tree.resolve segments).bind tree.entryAt?
  rootless : store.find? [] = none

namespace Flattens

theorem find?_eq (flattens : tree.Flattens store) {segments : List String}
    (nonempty : segments ≠ []) :
    store.find? segments = (tree.resolve segments).bind tree.entryAt? := by
  rw [← flattens.mapped, FlatStore.entryAt?, if_neg nonempty]

theorem find?_eq_some (flattens : tree.Flattens store) {segments : List String}
    {entry : FlatEntry} (found : store.find? segments = some entry) :
    segments ≠ [] ∧ ∃ handle property, tree.resolve segments = some handle ∧
      tree.property? handle = some property ∧ property.entry = entry := by
  have nonempty : segments ≠ [] := by
    rintro rfl
    rw [flattens.rootless] at found
    cases found
  rw [flattens.find?_eq nonempty] at found
  rcases Option.bind_eq_some_iff.mp found with ⟨handle, ends, kept⟩
  rcases Option.map_eq_some_iff.mp kept with ⟨property, isThere, entryEq⟩
  exact ⟨nonempty, handle, property, ends, isThere, entryEq⟩

theorem contains_iff (flattens : tree.Flattens store) (linked : tree.Linked)
    {segments : List String} (nonempty : segments ≠ []) :
    store.contains segments = (tree.resolve segments).isSome := by
  rw [Table.contains, flattens.find?_eq nonempty]
  cases ends : tree.resolve segments with
  | none => rfl
  | some handle =>
      rcases linked.exists_property_of_resolve ends with ⟨property, found⟩
      simp [entryAt?, found]

theorem unambiguous (flattens : tree.Flattens store) (linked : tree.Linked) :
    store.Unambiguous := by
  intro left right leftEntry rightEntry leftMapped rightMapped sameUuid
  rcases flattens.find?_eq_some leftMapped with
    ⟨leftNonempty, leftHandle, leftProperty, leftEnds, leftFound, rfl⟩
  rcases flattens.find?_eq_some rightMapped with
    ⟨rightNonempty, rightHandle, rightProperty, rightEnds, rightFound, rfl⟩
  have leftIndexed := linked.indexed_of_resolve leftEnds leftNonempty leftFound
  have rightIndexed := linked.indexed_of_resolve rightEnds rightNonempty rightFound
  have sameIndexed : leftProperty.uuid = rightProperty.uuid := sameUuid
  rw [sameIndexed, rightIndexed] at leftIndexed
  cases leftIndexed
  exact linked.resolve_injective leftEnds rightEnds

theorem locate?_eq_none (flattens : tree.Flattens store) (linked : tree.Linked) {uuid : Uuid}
    (unknown : tree.index.find? uuid = none) : store.locate? uuid = none := by
  rw [FlatStore.locate?, List.find?_eq_none]
  rintro ⟨segments, entry⟩ isEntry
  have mapped := (Table.mem_entries_iff _ _ _).mp isEntry
  rcases flattens.find?_eq_some mapped with ⟨nonempty, handle, property, ends, found, rfl⟩
  have inIndex := linked.indexed_of_resolve ends nonempty found
  intro same
  rw [show property.uuid = uuid from of_decide_eq_true same, unknown] at inIndex
  cases inIndex

theorem locate?_eq_some (flattens : tree.Flattens store) (linked : tree.Linked) {uuid : Uuid}
    {handle : Handle} (inIndex : tree.index.find? uuid = some handle) :
    ∃ segments property, segments ≠ [] ∧ tree.resolve segments = some handle ∧
      tree.property? handle = some property ∧
      store.locate? uuid = some (segments, property.entry) := by
  rcases linked.exists_resolve_of_indexed inIndex with
    ⟨segments, property, ends, nonempty, found, uuidEq⟩
  have mapped : store.find? segments = some property.entry := by
    rw [flattens.find?_eq nonempty, ends, Option.bind_some, entryAt?, found, Option.map_some]
  cases located : store.locate? uuid with
  | none =>
      have absent := List.find?_eq_none.mp located _ ((Table.mem_entries_iff _ _ _).mpr mapped)
      exact absurd (decide_eq_true uuidEq) absent
  | some other =>
      rcases other with ⟨otherSegments, otherEntry⟩
      have otherMapped := (Table.mem_entries_iff _ _ _).mp (List.mem_of_find?_eq_some located)
      have otherUuid : otherEntry.uuid = uuid := by simpa using List.find?_some located
      have same := flattens.unambiguous linked _ _ _ _ otherMapped mapped
        (otherUuid.trans uuidEq.symm)
      rw [same, mapped] at otherMapped
      cases otherMapped
      exact ⟨segments, property, nonempty, ends, found, by rw [same]⟩

theorem extends?_iff (flattens : tree.Flattens store) (linked : tree.Linked)
    {segments : List String} {handle : Handle} {property : Property}
    (ends : tree.resolve segments = some handle) (found : tree.property? handle = some property) :
    property.entry.kind = .node ∧ store.extends? segments = true ↔
      property.children?.map (·.isEmpty) = some false := by
  have child (name : String) :
      tree.child? handle name = property.children?.bind (·.find? name) := by
    rw [child?, children?, found, Option.bind_some]
  rw [Option.map_eq_some_iff]
  constructor
  · rintro ⟨isNode, extended⟩
    rcases property.kind_eq_node_iff.mp isNode with ⟨children, childrenEq⟩
    rcases List.any_eq_true.mp extended with ⟨other, isKey, above⟩
    simp only [Bool.and_eq_true, List.isPrefixOf_iff_prefix, decide_eq_true_eq] at above
    rcases above with ⟨⟨tail, rfl⟩, longer⟩
    rcases (Table.mem_keys_iff _ _).mp isKey with ⟨entry, mapped⟩
    rcases (flattens.find?_eq_some mapped).2 with ⟨_, _, otherEnds, _⟩
    cases tail with
    | nil => simp at longer
    | cons name rest =>
        rcases exists_child_of_resolve_append otherEnds with ⟨parent, below, parentEnds, named⟩
        rw [ends] at parentEnds
        cases parentEnds
        rw [child, childrenEq, Option.bind_some] at named
        refine ⟨children, childrenEq, ?_⟩
        rw [Bool.eq_false_iff]
        intro isEmpty
        rw [(Table.isEmpty_iff _).mp isEmpty] at named
        cases named
  · rintro ⟨children, childrenEq, notEmpty⟩
    refine ⟨property.kind_eq_node_iff.mpr ⟨children, childrenEq⟩, ?_⟩
    have inhabited : ∃ name below, children.find? name = some below := by
      by_contra none
      push Not at none
      rw [Bool.eq_false_iff, Ne, Table.isEmpty_iff] at notEmpty
      exact notEmpty fun name => Option.eq_none_iff_forall_ne_some.mpr (none name)
    rcases inhabited with ⟨name, below, named⟩
    have belowEnds : tree.resolve (segments ++ [name]) = some below := by
      rw [resolve_concat, ends, Option.bind_some, child, childrenEq, Option.bind_some, named]
    have mapped := flattens.contains_iff linked (show segments ++ [name] ≠ [] by simp)
    rw [belowEnds, Option.isSome_some, Table.contains_iff] at mapped
    refine List.any_eq_true.mpr ⟨segments ++ [name], (Table.mem_keys_iff _ _).mpr mapped, ?_⟩
    simp

theorem attach (flattens : tree.Flattens store) (linked : tree.Linked) {ancestors : List String}
    {parent : Handle} {name : String} {children : Table String Handle} {kind : PropertyKind}
    {payload : Bytes} {owner : SessionId} {uuid : Uuid} {pool : UuidPool Handle}
    (ends : tree.resolve ancestors = some parent) (node : tree.children? parent = some children)
    (absent : tree.child? parent name = none) :
    (tree.attach parent name (.new kind payload owner) uuid pool).Flattens
      (store.insert (ancestors ++ [name]) (.new uuid kind payload owner)) := by
  refine ⟨?_, ?_⟩
  · intro segments
    have before : store.entryAt? segments = tree.stored? segments := flattens.mapped segments
    show _ = Tree.stored? _ segments
    rw [linked.stored?_attach ends node absent, ← before]
    by_cases isNew : segments = ancestors ++ [name]
    · simp [FlatStore.entryAt?, isNew]
    · simp only [FlatStore.entryAt?, Table.find?_insert, if_neg isNew]
  · rw [Table.find?_insert, if_neg (by simp)]
    exact flattens.rootless

theorem detach (flattens : tree.Flattens store) (linked : tree.Linked) {ancestors : List String}
    {parent handle : Handle} {name : String} {property : Property}
    (ends : tree.resolve ancestors = some parent)
    (detachable : tree.Detachable parent name handle property) :
    (tree.detach parent name handle property).Flattens
      (store.erase (ancestors ++ [name])) := by
  refine ⟨?_, ?_⟩
  · intro segments
    have before : store.entryAt? segments = tree.stored? segments := flattens.mapped segments
    show _ = Tree.stored? _ segments
    rw [linked.stored?_detach ends detachable, ← before]
    by_cases isGone : segments = ancestors ++ [name]
    · simp [FlatStore.entryAt?, isGone]
    · simp only [FlatStore.entryAt?, Table.find?_erase, if_neg isGone]
  · rw [Table.find?_erase, if_neg (by simp)]
    exact flattens.rootless

theorem overwrite (flattens : tree.Flattens store) (linked : tree.Linked)
    {segments : List String} {handle : Handle} {property : Property} {data : Bytes}
    (nonempty : segments ≠ []) (ends : tree.resolve segments = some handle)
    (found : tree.property? handle = some property) :
    ((((tree.hold handle).overwrite handle data).prune handle []).release handle).Flattens
      (store.insert segments (property.entry.withPayload data)) := by
  have alike : tree.Alike (((tree.hold handle).overwrite handle data).prune handle []) :=
    (tree.alike_hold handle).trans
      (((tree.hold handle).alike_overwrite handle data).trans (Tree.alike_prune _ handle []))
  refine ⟨?_, ?_⟩
  · intro other
    rw [resolve_release (alike.linked linked), ← alike.resolve_eq]
    have before := flattens.mapped other
    simp only [FlatStore.entryAt?, Table.find?_insert] at before ⊢
    have after (middle : Handle) (live : tree.resolve other = some middle) :
        ((((tree.hold handle).overwrite handle data).prune handle []).release handle).entryAt?
          middle = if middle = handle then (tree.entryAt? middle).map (·.withPayload data)
            else tree.entryAt? middle := by
      have isLive := linked.isLive_of_resolve live
      rw [alike.isLive_eq] at isLive
      rw [entryAt?_release isLive, Tree.prune, entryAt?_mapWatchers, entryAt?_overwrite,
        entryAt?_hold]
    by_cases same : other = segments
    · subst same
      rw [if_neg nonempty, if_pos rfl, ends, Option.bind_some, after _ ends, if_pos rfl, entryAt?,
        found]
      rfl
    · rw [if_neg same, before]
      refine Option.bind_congr fun middle live => ?_
      rw [after _ live, if_neg]
      rintro rfl
      exact same (linked.resolve_injective live ends)
  · rw [Table.find?_insert, if_neg (Ne.symm nonempty)]
    exact flattens.rootless

end Flattens

/-! ## Requests -/

/-- An operation on a tree and one on a store fail alike and leave the tree of the store as it was, or
succeed alike and leave a tree and its store. -/
inductive Matches {α : Type} (before : FlatStore) :
    Except TreeError α × Tree → Except TreeError (α × FlatStore) → Prop where
  | error {tree : Tree} (error : TreeError) (flattens : tree.Flattens before) :
      Matches before (.error error, tree) (.error error)
  | ok {tree : Tree} {store : FlatStore} (value : α) (flattens : tree.Flattens store) :
      Matches before (.ok value, tree) (.ok (value, store))

theorem Matches.answers {α : Type} {left : Except TreeError α × Tree}
    {right : Except TreeError (α × FlatStore)} (alike : Matches store left right)
    (answer : α → StoreAnswer) :
    (answering answer left).1 = (FlatStore.settle store answer right).1 ∧
      (answering answer left).2.Flattens (FlatStore.settle store answer right).2 := by
  cases alike with
  | error error after => exact ⟨rfl, after⟩
  | ok value after => exact ⟨rfl, after⟩

/-- The uuid that the next property gets. -/
def freshUuid? (tree : Tree) : Option Uuid := (tree.pool.take tree.exists?).1

namespace Flattens

theorem create (flattens : tree.Flattens store) (linked : tree.Linked) (path : String)
    (kind : PropertyKind) (payload : Bytes) (owner : SessionId) :
    Matches store (tree.create path kind payload owner)
      (store.create tree.freshUuid? path kind payload owner) := by
  rw [create_eq]
  unfold place FlatStore.create
  cases Path.segments? path with
  | none => exact .error _ flattens
  | some segments =>
      rcases List.eq_nil_or_concat' segments with rfl | ⟨ancestors, name, rfl⟩
      · exact .error _ flattens
      · simp only [List.getLast?_concat, List.dropLast_concat, List.append_eq_nil_iff,
          List.cons_ne_self, and_false, if_false, flattens.mapped ancestors]
        by_cases refused : kind ≠ .value ∧ payload ≠ []
        · simp only [if_pos refused]
          exact .error _ flattens
        · simp only [if_neg refused]
          cases ends : tree.resolve ancestors with
          | none => exact .error _ flattens
          | some parent =>
              rcases linked.exists_property_of_resolve ends with ⟨property, found⟩
              have mapped := flattens.contains_iff linked
                (show ancestors ++ [name] ≠ [] by simp)
              rw [resolve_concat, ends, Option.bind_some] at mapped
              simp only [Option.bind_some, entryAt?, found, Option.map_some, Property.entry]
              cases isNode : property.children? with
              | none =>
                  have notThere : tree.children? parent = none := by
                    rw [children?, found, Option.bind_some, isNode]
                  simp only [notThere]
                  have notNode : some property.kind ≠ some .node := by
                    rw [Ne, Option.some_inj, property.kind_eq_node_iff, isNode]
                    simp
                  rw [if_pos notNode]
                  exact .error _ flattens
              | some children =>
                  have node : tree.children? parent = some children := by
                    rw [children?, found, Option.bind_some, isNode]
                  have named : store.contains (ancestors ++ [name]) = children.contains name := by
                    rw [mapped, child?, node]
                    rfl
                  have isKind := property.kind_eq_node_iff.mpr ⟨children, isNode⟩
                  rw [if_neg (not_not.mpr (congrArg some isKind)), named]
                  simp only [node, linked.not_isDetached_of_resolve ends, Bool.false_eq_true,
                    if_false]
                  cases absent : children.contains name with
                  | true => exact .error _ flattens
                  | false =>
                    have nowhere : tree.child? parent name = none := by
                      rw [child?, node, Option.bind_some]
                      simpa [Table.contains] using absent
                    cases taken : (tree.pool.take tree.exists?).1 with
                    | none =>
                        rw [freshUuid?, ← Prod.eta (tree.pool.take tree.exists?), taken,
                          UuidPool.take_of_none taken]
                        exact .error _ flattens
                    | some uuid =>
                        rw [freshUuid?, ← Prod.eta (tree.pool.take tree.exists?), taken]
                        exact .ok _ (flattens.attach linked ends node nowhere)

theorem delete (flattens : tree.Flattens store) (linked : tree.Linked) (path : String) :
    Matches store (tree.delete path) (store.delete path) := by
  rw [delete_eq]
  unfold target FlatStore.delete
  cases Path.segments? path with
  | none => exact .error _ flattens
  | some segments =>
      rcases List.eq_nil_or_concat' segments with rfl | ⟨ancestors, name, rfl⟩
      · exact .error _ flattens
      · have nonempty : ancestors ++ [name] ≠ [] := by simp
        simp only [List.getLast?_concat, List.dropLast_concat, if_neg nonempty,
          flattens.find?_eq nonempty, resolve_concat]
        cases ends : tree.resolve ancestors with
        | none => exact .error _ flattens
        | some parent =>
            simp only [Option.bind_some, linked.not_isDetached_of_resolve ends,
              Bool.false_eq_true, if_false, child?]
            cases node : tree.children? parent with
            | none => exact .error _ flattens
            | some children =>
                simp only [Option.bind_some]
                cases entry : children.find? name with
                | none => exact .error _ flattens
                | some handle =>
                    have named : tree.child? parent name = some handle := by
                      rw [child?, node, Option.bind_some, entry]
                    have whole : tree.resolve (ancestors ++ [name]) = some handle :=
                      (resolve_concat_eq_some_iff _ _ _ _).mpr ⟨parent, ends, named⟩
                    rcases linked.exists_property_of_resolve whole with ⟨property, found⟩
                    simp only [Option.bind_some, entryAt?, found, Option.map_some,
                      flattens.extends?_iff linked whole found]
                    by_cases full : property.children?.map (·.isEmpty) = some false
                    · simp only [if_pos full]
                      exact .error _ flattens
                    · simp only [if_neg full]
                      exact .ok _ (flattens.detach linked ends ⟨named, found, full⟩)

theorem setValue (flattens : tree.Flattens store) (linked : tree.Linked)
    (unwatched : tree.Unwatched) {ω : Type} (react : Reaction ω) (order : VisitOrder)
    (outside : ω) (uuid : Uuid) (data : Bytes) :
    Matches store ((Tree.setValue react order uuid data (tree, outside)).1,
      (Tree.setValue react order uuid data (tree, outside)).2.1) (store.setValue uuid data) := by
  rw [setValue_of_unwatched unwatched]
  unfold FlatStore.setValue
  cases inIndex : tree.index.find? uuid with
  | none =>
      rw [flattens.locate?_eq_none linked inIndex]
      exact .error _ flattens
  | some handle =>
      rcases flattens.locate?_eq_some linked inIndex with
        ⟨segments, property, nonempty, ends, found, located⟩
      simp only [located, entryAt?, found, Option.map_some, Option.bind_some]
      split
      · exact .error _ flattens
      · exact .ok () (flattens.overwrite linked nonempty ends found)

theorem look (flattens : tree.Flattens store) (linked : tree.Linked) {segments : List String}
    {handle : Handle} {entry : FlatEntry} (ends : tree.resolve segments = some handle)
    (mapped : store.entryAt? segments = some entry) :
    tree.look (.ok handle) = .ok (.found entry (Path.ofSegments segments)) := by
  rw [flattens.mapped, ends, Option.bind_some] at mapped
  simp only [Tree.look, bind, Except.bind, mapped, linked.pathOf_of_resolve ends]
  rfl

/-- A path leads to the same place in the tree and in the store. -/
theorem find_cases (flattens : tree.Flattens store) (linked : tree.Linked) (path : String) :
    (∃ error, tree.find path = .error error ∧ store.find path = .error error) ∨
      ∃ segments handle property, tree.find path = .ok handle ∧
        store.find path = .ok (segments, property.entry) ∧
        tree.resolve segments = some handle ∧ tree.property? handle = some property := by
  unfold Tree.find FlatStore.find
  cases Path.segments? path with
  | none => exact Or.inl ⟨_, rfl, rfl⟩
  | some segments =>
      have mapped := flattens.mapped segments
      cases ends : tree.resolve segments with
      | none =>
          rw [ends, Option.bind_none] at mapped
          simp only [ends, mapped]
          exact Or.inl ⟨_, rfl, rfl⟩
      | some handle =>
          rcases linked.exists_property_of_resolve ends with ⟨property, found⟩
          rw [ends, Option.bind_some, entryAt?, found, Option.map_some] at mapped
          simp only [ends, mapped]
          exact Or.inr ⟨segments, handle, property, rfl, rfl, ends, found⟩

theorem getByPath (flattens : tree.Flattens store) (linked : tree.Linked) (path : String) :
    tree.look (tree.find path) =
      (store.find path).map fun (segments, entry) => .found entry (Path.ofSegments segments) := by
  rcases flattens.find_cases linked path with
    ⟨error, notThere, notMapped⟩ | ⟨segments, handle, property, isThere, mapped, ends, found⟩
  · rw [notThere, notMapped]
    rfl
  · rw [isThere, mapped]
    apply flattens.look linked ends
    rw [flattens.mapped, ends, Option.bind_some, entryAt?, found, Option.map_some]

theorem info (flattens : tree.Flattens store) (linked : tree.Linked) (path : String) :
    tree.info path = (store.find path).map fun (segments, entry) =>
      { uuid := entry.uuid, kind := entry.kind, path := Path.ofSegments segments } := by
  unfold Tree.info
  rcases flattens.find_cases linked path with
    ⟨error, notThere, notMapped⟩ | ⟨segments, handle, property, isThere, mapped, ends, found⟩
  · rw [notThere, notMapped]
    rfl
  · simp only [isThere, mapped, bind, Except.bind, info?, found, Option.map_some,
      linked.pathOf_of_resolve ends]
    rfl

theorem getByUuid (flattens : tree.Flattens store) (linked : tree.Linked) (uuid : Uuid) :
    tree.look (tree.findUuid uuid) =
      match store.locate? uuid with
      | none => .error .objectNotFound
      | some (segments, entry) => .ok (.found entry (Path.ofSegments segments)) := by
  unfold Tree.findUuid
  cases inIndex : tree.index.find? uuid with
  | none =>
      rw [flattens.locate?_eq_none linked inIndex]
      rfl
  | some handle =>
      rcases flattens.locate?_eq_some linked inIndex with
        ⟨segments, property, nonempty, ends, found, located⟩
      rw [located]
      apply flattens.look linked ends
      rw [flattens.mapped, ends, Option.bind_some, entryAt?, found, Option.map_some]

theorem getValue (flattens : tree.Flattens store) (linked : tree.Linked) (uuid : Uuid) :
    tree.getValue uuid = store.getValue uuid := by
  unfold Tree.getValue Tree.findUuid FlatStore.getValue
  cases inIndex : tree.index.find? uuid with
  | none =>
      rw [flattens.locate?_eq_none linked inIndex]
      rfl
  | some handle =>
      rcases flattens.locate?_eq_some linked inIndex with
        ⟨segments, property, nonempty, ends, found, located⟩
      simp only [located, bind, Except.bind, found, Option.bind_some, Property.entry]
      cases property.payload? <;> rfl

theorem respond (flattens : tree.Flattens store) (linked : tree.Linked)
    (unwatched : tree.Unwatched) {ω : Type} (react : Reaction ω) (order : VisitOrder)
    (outside : ω) (request : StoreRequest) :
    (tree.respond react order outside request).1 = (store.respond tree.freshUuid? request).1 ∧
      (tree.respond react order outside request).2.Flattens
        (store.respond tree.freshUuid? request).2 := by
  cases request with
  | create path kind payload owner =>
      exact (flattens.create linked path kind payload owner).answers _
  | delete path => exact (flattens.delete linked path).answers _
  | setValue uuid data =>
      exact (flattens.setValue linked unwatched react order outside uuid data).answers _
  | getValue uuid =>
      exact ⟨congrArg (Except.map StoreAnswer.payload) (flattens.getValue linked uuid), flattens⟩
  | getByPath path => exact ⟨flattens.getByPath linked path, flattens⟩
  | getByUuid uuid => exact ⟨flattens.getByUuid linked uuid, flattens⟩
  | info path =>
      refine ⟨?_, flattens⟩
      simp only [Tree.respond, FlatStore.respond, flattens.info linked path]
      cases store.find path <;> rfl

theorem hold (flattens : tree.Flattens store) (handle : Handle) :
    (tree.hold handle).Flattens store := by
  refine ⟨?_, flattens.rootless⟩
  intro segments
  rw [flattens.mapped, (tree.alike_hold handle).resolve_eq]
  exact Option.bind_congr fun middle _ => (tree.entryAt?_hold handle middle).symm

theorem release (flattens : tree.Flattens store) (linked : tree.Linked) (handle : Handle) :
    (tree.release handle).Flattens store := by
  refine ⟨?_, flattens.rootless⟩
  intro segments
  rw [flattens.mapped, resolve_release linked]
  exact Option.bind_congr fun middle ends =>
    (entryAt?_release (linked.isLive_of_resolve ends) handle).symm

theorem new : Tree.new.Flattens .empty := by
  refine ⟨?_, rfl⟩
  intro segments
  cases segments with
  | nil => exact linked_new.entryAt?_root.symm
  | cons name rest => rfl

end Flattens

/-! ## Runs -/

/-- What every run keeps: the tree is sound, nobody watches it, it has used no more uuids than it
created properties, and a flat store allows the same exchanges and is what the tree flattens to. -/
structure Refines (log : List Exchange) (tree : Tree) : Prop where
  sound : tree.Sound
  unwatched : tree.Unwatched
  next_le : tree.pool.next ≤ UuidPool.first + creations log
  flat : ∃ store, FlatStore.Answers log store ∧ tree.Flattens store

namespace Refines

variable {log : List Exchange}

theorem hold (refines : Refines log tree) (handle : Handle) : Refines log (tree.hold handle) := by
  rcases refines.flat with ⟨store, answers, flattens⟩
  exact ⟨sound_hold refines.sound handle, refines.unwatched.hold handle, refines.next_le,
    store, answers, flattens.hold handle⟩

theorem release (refines : Refines log tree) (handle : Handle) :
    Refines log (tree.release handle) := by
  rcases refines.flat with ⟨store, answers, flattens⟩
  refine ⟨sound_release refines.sound handle, refines.unwatched.release handle, ?_,
    store, answers, flattens.release refines.sound.toLinked handle⟩
  rw [pool_release]
  exact refines.next_le

theorem respond (refines : Refines log tree) {ω : Type} (react : Reaction ω) (order : VisitOrder)
    (outside : ω) (request : StoreRequest) :
    Refines (log ++ [(request, (tree.respond react order outside request).1)])
      (tree.respond react order outside request).2 := by
  rcases refines.flat with ⟨store, answers, flattens⟩
  have sound := refines.sound
  have step := flattens.respond sound.toLinked refines.unwatched react order outside request
  have served := refines.unwatched.served react order outside request
  refine ⟨served.sound sound, served.unwatched refines.unwatched, ?_, _, ?_, step.2⟩
  · rw [creations, List.countP_append, ← Nat.add_assoc]
    exact (served.next_le request).trans (Nat.add_le_add_right refines.next_le _)
  · rw [step.1]
    refine answers.respond ?_ ?_ request
    · intro uuid isFresh
      have taken : tree.pool.take tree.exists? = (some uuid, (tree.pool.take tree.exists?).2) :=
        Prod.ext isFresh rfl
      refine ⟨sound.first_le_of_take taken, ?_⟩
      intro segments entry mapped
      rcases flattens.find?_eq_some mapped with ⟨_, handle, property, _, found, rfl⟩
      exact sound.ne_of_take taken found
    · intro isNone
      have used := UuidPool.take_eq_none isNone
      have := refines.next_le
      omega

end Refines

theorem refines_of_performs {log : List Exchange} {state : Tree × List Handle}
    (run : Performs log state) : Refines log state.1 := by
  induction run with
  | new => exact ⟨sound_new, unwatched_new, Nat.le_refl _, .empty, .empty, .new⟩
  | respond _ react order outside request ih => exact ih.respond react order outside request
  | hold _ _ ih => exact ih.hold _
  | release _ _ ih => exact ih.release _

/-- Whatever requests are made of a tree that was new, and whatever references are held meanwhile,
there is a flat store that gives the same answers and maps exactly what the tree then contains. -/
theorem exists_flatStore_of_performs {log : List Exchange} {held : List Handle}
    (run : Performs log (tree, held)) :
    ∃ store, FlatStore.Answers log store ∧ tree.Flattens store ∧ store.Unambiguous := by
  have refines := refines_of_performs run
  rcases refines.flat with ⟨store, answers, flattens⟩
  exact ⟨store, answers, flattens, flattens.unambiguous refines.sound.toLinked⟩

theorem exists_flatStore_of_performs_reused :
    ∃ (tree : Tree) (log : List Exchange), Performs log (tree, []) ∧
      log = [(.create "/a" .node [] 7, .ok (.created ⟨100, .node, "/a"⟩)),
        (.create "/a/b" .value [1] 7, .ok (.created ⟨101, .value, "/a/b"⟩)),
        (.delete "/a", .error .notEmpty),
        (.delete "/a/b", .ok (.deleted 101)),
        (.create "/c" .rpc [] 7, .ok (.created ⟨101, .rpc, "/c"⟩)),
        (.getByUuid 101, .ok (.found ⟨101, .rpc, none, some 7⟩ "/c")),
        (.setValue 100 [2], .error (.notAValue 100))] ∧
      ∃ store, FlatStore.Answers log store ∧ tree.Flattens store ∧ store.Unambiguous := by
  have serve {log : List Exchange} {tree : Tree} (before : Performs log (tree, [])) :=
    before.respond (fun _ _ (world : Tree × Unit) => (true, world)) .stored ()
  have run := serve Performs.new (.create "/a" .node [] 7)
  have run := serve run (.create "/a/b" .value [1] 7)
  have run := serve run (.delete "/a")
  have run := serve run (.delete "/a/b")
  have run := serve run (.create "/c" .rpc [] 7)
  have run := serve run (.getByUuid 101)
  have run := serve run (.setValue 100 [2])
  exact ⟨_, _, run, rfl, exists_flatStore_of_performs run⟩

end Tree

end SharedTree
