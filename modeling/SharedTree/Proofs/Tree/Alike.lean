import SharedTree.Proofs.Tree.Links

/-!
# What payloads, watchers and holders leave alone

Writing a value, changing who watches it and holding a property change nothing that
finding a property looks at. Two trees that differ at most in this are `Tree.Alike`;
they contain the same properties at the same places, under the same uuids.
-/

namespace SharedTree

/-- The content without payload and watchers. -/
def Content.bare : Content → Content
  | .node children => .node children
  | .value _ _ => .value [] .empty
  | .rpc handler => .rpc handler

namespace Property

/-- The property without payload, watchers and holders. -/
def bare (property : Property) : Property :=
  { property with content := property.content.bare, holders := 0 }

@[simp] theorem bare_uuid (property : Property) : property.bare.uuid = property.uuid := rfl

@[simp] theorem bare_name (property : Property) : property.bare.name = property.name := rfl

@[simp] theorem bare_parent (property : Property) : property.bare.parent = property.parent := rfl

@[simp] theorem bare_detached (property : Property) :
    property.bare.detached = property.detached := rfl

@[simp] theorem bare_kind (property : Property) : property.bare.kind = property.kind := by
  rcases property with ⟨_, _, _, content, _⟩
  cases content <;> rfl

@[simp] theorem bare_children? (property : Property) :
    property.bare.children? = property.children? := by
  rcases property with ⟨_, _, _, content, _⟩
  cases content <;> rfl

@[simp] theorem bare_handler? (property : Property) :
    property.bare.handler? = property.handler? := by
  rcases property with ⟨_, _, _, content, _⟩
  cases content <;> rfl

theorem eq_of_bare_eq {left right : Property} (bareEq : left.bare = right.bare) :
    left.uuid = right.uuid ∧ left.name = right.name ∧ left.parent = right.parent ∧
      left.kind = right.kind ∧ left.handler? = right.handler? := by
  refine ⟨?_, ?_, ?_, ?_, ?_⟩
  · simpa using congrArg Property.uuid bareEq
  · simpa using congrArg Property.name bareEq
  · simpa using congrArg Property.parent bareEq
  · simpa using congrArg Property.kind bareEq
  · simpa using congrArg Property.handler? bareEq

theorem bare_withPayload (payload : Bytes) (property : Property) :
    (property.withPayload payload).bare = property.bare := by
  rcases property with ⟨_, _, _, content, _⟩
  cases content <;> rfl

theorem bare_mapWatchers (change : Table SessionId Observer → Table SessionId Observer)
    (property : Property) : (property.mapWatchers change).bare = property.bare := by
  rcases property with ⟨_, _, _, content, _⟩
  cases content <;> rfl

@[simp] theorem holders_withPayload (payload : Bytes) (property : Property) :
    (property.withPayload payload).holders = property.holders := by
  rcases property with ⟨_, _, _, content, _⟩
  cases content <;> rfl

@[simp] theorem holders_mapWatchers
    (change : Table SessionId Observer → Table SessionId Observer) (property : Property) :
    (property.mapWatchers change).holders = property.holders := by
  rcases property with ⟨_, _, _, content, _⟩
  cases content <;> rfl

end Property

namespace Tree

/-- The trees differ at most in payloads, watchers and holders. -/
structure Alike (left right : Tree) : Prop where
  index : left.index = right.index
  pool : left.pool = right.pool
  nextHandle : left.nextHandle = right.nextHandle
  bare : ∀ handle, (left.property? handle).map Property.bare =
    (right.property? handle).map Property.bare

namespace Alike

variable {left middle right : Tree}

theorem refl (tree : Tree) : tree.Alike tree := ⟨rfl, rfl, rfl, fun _ => rfl⟩

theorem symm (alike : left.Alike right) : right.Alike left :=
  ⟨alike.index.symm, alike.pool.symm, alike.nextHandle.symm, fun handle => (alike.bare handle).symm⟩

theorem trans (first : left.Alike middle) (second : middle.Alike right) : left.Alike right :=
  ⟨first.index.trans second.index, first.pool.trans second.pool,
    first.nextHandle.trans second.nextHandle,
    fun handle => (first.bare handle).trans (second.bare handle)⟩

theorem exists_property (alike : left.Alike right) {handle : Handle} {property : Property}
    (found : left.property? handle = some property) :
    ∃ other, right.property? handle = some other ∧ other.bare = property.bare := by
  have same := alike.bare handle
  rw [found, Option.map_some] at same
  rcases Option.map_eq_some_iff.mp same.symm with ⟨other, otherFound, otherBare⟩
  exact ⟨other, otherFound, otherBare⟩

theorem exists?_eq (alike : left.Alike right) : left.exists? = right.exists? := by
  funext handle
  have same := congrArg Option.isSome (alike.bare handle)
  simpa [exists?, Table.contains, property?] using same

theorem child?_eq (alike : left.Alike right) : left.child? = right.child? := by
  have bareChild (tree : Tree) (parent : Handle) (name : String) : tree.child? parent name =
      (((tree.property? parent).map Property.bare).bind (·.children?)).bind (·.find? name) := by
    simp only [child?, children?]
    cases tree.property? parent <;> simp
  funext parent name
  rw [bareChild, bareChild, alike.bare]

theorem resolve_eq (alike : left.Alike right) : left.resolve = right.resolve := by
  funext segments
  simp only [resolve, alike.child?_eq]

theorem isLive_eq (alike : left.Alike right) : left.isLive = right.isLive := by
  have bareLive (tree : Tree) (handle : Handle) : tree.isLive handle =
      (handle = rootHandle || ((tree.property? handle).map Property.bare).any fun property =>
        tree.index.find? property.uuid = some handle) := by
    simp only [isLive]
    cases tree.property? handle <;> rfl
  funext handle
  rw [bareLive, bareLive, alike.bare, alike.index]

theorem namesDown_eq (alike : left.Alike right) (bound : Nat) (handle : Handle) :
    left.namesDown bound handle = right.namesDown bound handle := by
  induction bound generalizing handle with
  | zero => rfl
  | succ bound ih =>
      have same := alike.bare handle
      simp only [namesDown]
      cases leftFound : left.property? handle with
      | none =>
          rw [leftFound, Option.map_none] at same
          rw [Option.map_eq_none_iff.mp same.symm]
      | some property =>
          rcases alike.exists_property leftFound with ⟨other, rightFound, bareEq⟩
          rcases Property.eq_of_bare_eq bareEq with ⟨_, nameEq, parentEq, _⟩
          simp only [rightFound, nameEq, parentEq]
          cases property.parent with
          | none => rfl
          | some parent => simp only [ih]

theorem pathOf_eq (alike : left.Alike right) : left.pathOf = right.pathOf := by
  funext handle
  simp only [pathOf, alike.namesDown_eq]

theorem info?_eq (alike : left.Alike right) : left.info? = right.info? := by
  have bareInfo (tree : Tree) (handle : Handle) : tree.info? handle =
      ((tree.property? handle).map Property.bare).map fun property =>
        { uuid := property.uuid, kind := property.kind, path := tree.pathOf handle } := by
    simp only [info?]
    cases tree.property? handle <;> simp
  funext handle
  rw [bareInfo, bareInfo, alike.bare, alike.pathOf_eq]

theorem linked (alike : left.Alike right) (holds : left.Linked) : right.Linked where
  root := by
    rcases holds.root with ⟨root, found, uuidEq, nameEq, noParent, kindEq⟩
    rcases alike.exists_property found with ⟨other, otherFound, bareEq⟩
    rcases Property.eq_of_bare_eq bareEq with ⟨sameUuid, sameName, sameParent, sameKind, _⟩
    exact ⟨other, otherFound, sameUuid.trans uuidEq, sameName.trans nameEq,
      sameParent.trans noParent, sameKind.trans kindEq⟩
  bounded := by
    intro handle property found
    rcases alike.symm.exists_property found with ⟨other, otherFound, _⟩
    exact alike.nextHandle ▸ holds.bounded _ _ otherFound
  placed := by
    intro handle property found notRoot
    rcases alike.symm.exists_property found with ⟨other, otherFound, bareEq⟩
    rcases Property.eq_of_bare_eq bareEq with ⟨_, sameName, sameParent, _⟩
    rw [← sameName, ← sameParent]
    exact holds.placed _ _ otherFound notRoot
  contained := by
    intro parent name handle named
    rw [← alike.child?_eq] at named
    rw [← alike.isLive_eq]
    rcases holds.contained _ _ _ named with ⟨live, property, found, nameEq, parentEq, inIndex⟩
    rcases alike.exists_property found with ⟨other, otherFound, bareEq⟩
    rcases Property.eq_of_bare_eq bareEq with ⟨sameUuid, sameName, sameParent, _⟩
    refine ⟨live, other, otherFound, sameName.trans nameEq, sameParent.trans parentEq, ?_⟩
    rw [← alike.index, sameUuid]
    exact inIndex
  indexed := by
    intro uuid handle inIndex
    rw [← alike.index] at inIndex
    rcases holds.indexed _ _ inIndex with ⟨property, parent, found, uuidEq, parentEq, named⟩
    rcases alike.exists_property found with ⟨other, otherFound, bareEq⟩
    rcases Property.eq_of_bare_eq bareEq with ⟨sameUuid, sameName, sameParent, _⟩
    refine ⟨other, parent, otherFound, sameUuid.trans uuidEq, sameParent.trans parentEq, ?_⟩
    rw [← alike.child?_eq, sameName]
    exact named
  attached := by
    intro handle property found live
    rcases alike.symm.exists_property found with ⟨other, otherFound, bareEq⟩
    rw [← alike.isLive_eq] at live
    have same := congrArg Property.detached bareEq
    rw [Property.bare_detached, Property.bare_detached] at same
    rw [← same]
    exact holds.attached _ _ otherFound live

end Alike

theorem alike_modify (tree : Tree) (handle : Handle) (change : Property → Property)
    (sameBare : ∀ property, (change property).bare = property.bare) :
    tree.Alike { tree with properties := tree.properties.modify handle change } where
  index := rfl
  pool := rfl
  nextHandle := rfl
  bare := by
    intro other
    simp only [property?, Table.find?_modify]
    split
    · simp [Function.comp_def, sameBare]
    · rfl

theorem alike_mapWatchers (tree : Tree) (handle : Handle)
    (change : Table SessionId Observer → Table SessionId Observer) :
    tree.Alike (tree.mapWatchers handle change) :=
  tree.alike_modify handle _ (Property.bare_mapWatchers change)

theorem alike_hold (tree : Tree) (handle : Handle) : tree.Alike (tree.hold handle) :=
  tree.alike_modify handle _ fun _ => rfl

theorem alike_overwrite (tree : Tree) (handle : Handle) (data : Bytes) :
    tree.Alike (tree.overwrite handle data) :=
  tree.alike_modify handle _ (Property.bare_withPayload data)

theorem alike_prune (tree : Tree) (handle : Handle) (unserved : List Registration) :
    tree.Alike (tree.prune handle unserved) :=
  tree.alike_mapWatchers handle _

end Tree

end SharedTree
