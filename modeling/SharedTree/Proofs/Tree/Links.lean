import SharedTree.Proofs.Path
import SharedTree.Proofs.Tree.Operations
import Mathlib.Data.List.Induction

/-!
# Links between properties

Parents know their children by name, children know their parents, and the index knows
every live property by its uuid. `Tree.Linked` says that the three agree. In a linked tree
a property is live exactly when a chain of names leads to it from the root; there is only
one such chain, and the path rebuilt from the links to parents spells it.
-/

namespace SharedTree

namespace Tree

/-- Links to parents, links to children and the index of live properties agree, and no live
property is marked as deleted. -/
structure Linked (tree : Tree) : Prop where
  root : ∃ root, tree.property? rootHandle = some root ∧ root.uuid = noUuid ∧ root.name = "" ∧
    root.parent = none ∧ root.kind = .node
  bounded : ∀ handle property, tree.property? handle = some property → handle < tree.nextHandle
  placed : ∀ handle property, tree.property? handle = some property → handle ≠ rootHandle →
    Path.IsSegment property.name ∧ ∃ parent, property.parent = some parent ∧ parent < handle
  contained : ∀ parent name handle, tree.child? parent name = some handle →
    tree.isLive parent = true ∧ ∃ property, tree.property? handle = some property ∧
      property.name = name ∧ property.parent = some parent ∧
      tree.index.find? property.uuid = some handle
  indexed : ∀ uuid handle, tree.index.find? uuid = some handle →
    ∃ property parent, tree.property? handle = some property ∧ property.uuid = uuid ∧
      property.parent = some parent ∧ tree.child? parent property.name = some handle
  attached : ∀ handle property, tree.property? handle = some property →
    tree.isLive handle = true → property.detached = false

variable {tree : Tree}

theorem isLive_iff (tree : Tree) (handle : Handle) :
    tree.isLive handle = true ↔ handle = rootHandle ∨
      ∃ property, tree.property? handle = some property ∧
        tree.index.find? property.uuid = some handle := by
  simp only [isLive, Bool.or_eq_true, decide_eq_true_eq]
  cases tree.property? handle <;> simp

/-- What is no longer part of a tree was no part of an earlier one whose properties all stay. -/
theorem dead_of_stays {later : Tree} {handle : Handle}
    (stays : tree.isLive handle = true → later.isLive handle = true)
    (gone : later.isLive handle = false) : tree.isLive handle = false := by
  rw [Bool.eq_false_iff]
  intro alive
  rw [stays alive] at gone
  cases gone

theorem property?_new (handle : Handle) :
    Tree.new.property? handle = if handle = rootHandle then some newRoot else none := by
  simp [new, property?]

theorem eq_of_property?_new {handle : Handle} {property : Property}
    (found : Tree.new.property? handle = some property) :
    handle = rootHandle ∧ property = newRoot := by
  rw [property?_new] at found
  split at found
  · next isRoot => exact ⟨isRoot, (Option.some.inj found).symm⟩
  · cases found

theorem exists?_iff (tree : Tree) (handle : Handle) :
    tree.exists? handle = true ↔ ∃ property, tree.property? handle = some property :=
  Table.contains_iff _ _

theorem child?_eq_some_iff (tree : Tree) (parent : Handle) (name : String) (handle : Handle) :
    tree.child? parent name = some handle ↔
      ∃ property children, tree.property? parent = some property ∧
        property.children? = some children ∧ children.find? name = some handle := by
  simp only [child?, children?, Option.bind_eq_some_iff]
  constructor
  · rintro ⟨children, ⟨property, found, isNode⟩, named⟩
    exact ⟨property, children, found, isNode, named⟩
  · rintro ⟨property, children, found, isNode, named⟩
    exact ⟨children, ⟨property, found, isNode⟩, named⟩

@[simp] theorem resolve_nil (tree : Tree) : tree.resolve [] = some rootHandle := rfl

theorem resolve_concat (tree : Tree) (segments : List String) (name : String) :
    tree.resolve (segments ++ [name]) =
      (tree.resolve segments).bind fun parent => tree.child? parent name := by
  simp only [resolve, List.foldlM_append]
  cases List.foldlM tree.child? rootHandle segments <;> simp

theorem resolve_concat_eq_some_iff (tree : Tree) (segments : List String) (name : String)
    (handle : Handle) :
    tree.resolve (segments ++ [name]) = some handle ↔
      ∃ parent, tree.resolve segments = some parent ∧ tree.child? parent name = some handle := by
  rw [resolve_concat, Option.bind_eq_some_iff]

theorem exists_child_of_resolve_append {segments rest : List String} {name : String}
    {handle : Handle} (ends : tree.resolve (segments ++ name :: rest) = some handle) :
    ∃ parent child, tree.resolve segments = some parent ∧ tree.child? parent name = some child := by
  simp only [resolve, List.foldlM_append, List.foldlM_cons, Option.bind_eq_bind,
    Option.bind_eq_some_iff] at ends
  rcases ends with ⟨parent, parentEnds, child, named, _⟩
  exact ⟨parent, child, parentEnds, named⟩

namespace Linked

/-- What is found under a name of a node has that name, that parent and a place in the index. -/
theorem of_named (linked : tree.Linked) {parent handle : Handle} {name : String}
    {property : Property} (named : tree.child? parent name = some handle)
    (found : tree.property? handle = some property) :
    property.name = name ∧ property.parent = some parent ∧
      tree.index.find? property.uuid = some handle := by
  rcases (linked.contained _ _ _ named).2 with ⟨same, sameFound, rest⟩
  rw [found] at sameFound
  cases sameFound
  exact rest

theorem child_ne_root (linked : tree.Linked) {parent handle : Handle} {name : String}
    (named : tree.child? parent name = some handle) : handle ≠ rootHandle := by
  rintro rfl
  rcases linked.root with ⟨root, rootFound, _, _, noParent, _⟩
  have parentEq := (linked.of_named named rootFound).2.1
  rw [noParent] at parentEq
  cases parentEq

/-- No two uuids lead to the same property. -/
theorem eq_of_indexed (linked : tree.Linked) {uuid other : Uuid} {handle : Handle}
    (inIndex : tree.index.find? uuid = some handle)
    (otherInIndex : tree.index.find? other = some handle) : uuid = other := by
  rcases linked.indexed _ _ inIndex with ⟨property, _, found, uuidEq, _⟩
  rcases linked.indexed _ _ otherInIndex with ⟨same, _, sameFound, otherEq, _⟩
  rw [found] at sameFound
  cases sameFound
  exact uuidEq.symm.trans otherEq

theorem indexed_ne_root (linked : tree.Linked) {uuid : Uuid} {handle : Handle}
    (found : tree.index.find? uuid = some handle) : handle ≠ rootHandle := by
  rcases linked.indexed _ _ found with ⟨_, _, _, _, _, named⟩
  exact linked.child_ne_root named

theorem resolve_injective (linked : tree.Linked) {left right : List String} {handle : Handle}
    (leftEnds : tree.resolve left = some handle) (rightEnds : tree.resolve right = some handle) :
    left = right := by
  induction left using List.reverseRecOn generalizing right handle with
  | nil =>
      cases leftEnds
      rcases List.eq_nil_or_concat' right with rfl | ⟨segments, name, rfl⟩
      · rfl
      · rcases (resolve_concat_eq_some_iff _ _ _ _).mp rightEnds with ⟨parent, _, named⟩
        exact absurd rfl (linked.child_ne_root named)
  | append_singleton segments name ih =>
      rcases (resolve_concat_eq_some_iff _ _ _ _).mp leftEnds with ⟨parent, parentEnds, named⟩
      rcases (linked.contained _ _ _ named).2 with ⟨property, found, nameEq, parentEq, _⟩
      rcases List.eq_nil_or_concat' right with rfl | ⟨otherSegments, otherName, rfl⟩
      · cases rightEnds
        exact absurd rfl (linked.child_ne_root named)
      · rcases (resolve_concat_eq_some_iff _ _ _ _).mp rightEnds with
          ⟨otherParent, otherParentEnds, otherNamed⟩
        rcases linked.of_named otherNamed found with ⟨otherNameEq, otherParentEq, _⟩
        rw [parentEq] at otherParentEq
        cases otherParentEq
        rw [ih parentEnds otherParentEnds, ← nameEq, ← otherNameEq]

theorem chain_eq_iff (linked : tree.Linked) {left right : List String} {leftEnd rightEnd : Handle}
    {leftName rightName : String} (leftEnds : tree.resolve left = some leftEnd)
    (rightEnds : tree.resolve right = some rightEnd) :
    leftEnd = rightEnd ∧ leftName = rightName ↔ left ++ [leftName] = right ++ [rightName] := by
  rw [List.append_singleton_inj]
  constructor
  · rintro ⟨rfl, rfl⟩
    exact ⟨linked.resolve_injective leftEnds rightEnds, rfl⟩
  · rintro ⟨rfl, rfl⟩
    rw [rightEnds] at leftEnds
    exact ⟨(Option.some.inj leftEnds).symm, rfl⟩

theorem isLive_of_resolve (linked : tree.Linked) {segments : List String} {handle : Handle}
    (ends : tree.resolve segments = some handle) : tree.isLive handle = true := by
  rw [isLive_iff]
  rcases List.eq_nil_or_concat' segments with rfl | ⟨ancestors, name, rfl⟩
  · cases ends
    exact Or.inl rfl
  · rcases (resolve_concat_eq_some_iff _ _ _ _).mp ends with ⟨parent, _, named⟩
    rcases (linked.contained _ _ _ named).2 with ⟨property, found, _, _, inIndex⟩
    exact Or.inr ⟨property, found, inIndex⟩

/-- No chain of names leads to a deleted node. -/
theorem not_isDetached_of_resolve (linked : tree.Linked) {segments : List String}
    {handle : Handle} (ends : tree.resolve segments = some handle) :
    tree.isDetached handle = false := by
  have live := linked.isLive_of_resolve ends
  unfold isDetached
  cases found : tree.property? handle with
  | none => rfl
  | some property => exact linked.attached _ _ found live

theorem exists_resolve_of_isLive (linked : tree.Linked) {handle : Handle}
    (live : tree.isLive handle = true) : ∃ segments, tree.resolve segments = some handle := by
  -- The number of links up to the root is not known; handles grow from parents to children.
  induction handle using Nat.strongRecOn with
  | ind handle ih =>
      rcases (isLive_iff _ _).mp live with rfl | ⟨property, found, inIndex⟩
      · exact ⟨[], rfl⟩
      · rcases linked.indexed _ _ inIndex with ⟨same, parent, sameFound, _, parentEq, named⟩
        rw [found] at sameFound
        cases sameFound
        rcases linked.placed _ _ found (linked.child_ne_root named) with
          ⟨_, parent', parentEq', before⟩
        rw [parentEq] at parentEq'
        cases parentEq'
        rcases ih parent before (linked.contained _ _ _ named).1 with ⟨segments, ends⟩
        exact ⟨segments ++ [property.name],
          (resolve_concat_eq_some_iff _ _ _ _).mpr ⟨parent, ends, named⟩⟩

theorem exists_resolve_of_indexed (linked : tree.Linked) {uuid : Uuid} {handle : Handle}
    (found : tree.index.find? uuid = some handle) :
    ∃ segments property, tree.resolve segments = some handle ∧ segments ≠ [] ∧
      tree.property? handle = some property ∧ property.uuid = uuid := by
  rcases linked.indexed _ _ found with ⟨property, parent, exists?, rfl, _, named⟩
  rcases linked.exists_resolve_of_isLive ((isLive_iff _ _).mpr (Or.inr ⟨property, exists?, found⟩))
    with ⟨segments, ends⟩
  refine ⟨segments, property, ends, ?_, exists?, rfl⟩
  rintro rfl
  cases ends
  exact linked.child_ne_root named rfl

theorem isLive_of_index (linked : tree.Linked) {uuid : Uuid} {handle : Handle}
    (inIndex : tree.index.find? uuid = some handle) : tree.isLive handle = true := by
  rcases linked.exists_resolve_of_indexed inIndex with ⟨segments, _, ends, _⟩
  exact linked.isLive_of_resolve ends

theorem exists_property_of_resolve (linked : tree.Linked) {segments : List String}
    {handle : Handle} (ends : tree.resolve segments = some handle) :
    ∃ property, tree.property? handle = some property := by
  rcases List.eq_nil_or_concat' segments with rfl | ⟨ancestors, name, rfl⟩
  · cases ends
    rcases linked.root with ⟨root, found, _⟩
    exact ⟨root, found⟩
  · rcases (resolve_concat_eq_some_iff _ _ _ _).mp ends with ⟨parent, _, named⟩
    rcases (linked.contained _ _ _ named).2 with ⟨property, found, _⟩
    exact ⟨property, found⟩

theorem indexed_of_resolve (linked : tree.Linked) {segments : List String} {handle : Handle}
    {property : Property} (ends : tree.resolve segments = some handle) (nonempty : segments ≠ [])
    (found : tree.property? handle = some property) :
    tree.index.find? property.uuid = some handle := by
  rcases List.eq_nil_or_concat' segments with rfl | ⟨ancestors, name, rfl⟩
  · exact absurd rfl nonempty
  · rcases (resolve_concat_eq_some_iff _ _ _ _).mp ends with ⟨parent, _, named⟩
    exact (linked.of_named named found).2.2

theorem isSegment_of_resolve (linked : tree.Linked) {segments : List String} {handle : Handle}
    (ends : tree.resolve segments = some handle) :
    ∀ segment ∈ segments, Path.IsSegment segment := by
  induction segments using List.reverseRecOn generalizing handle with
  | nil => simp
  | append_singleton segments name ih =>
      rcases (resolve_concat_eq_some_iff _ _ _ _).mp ends with ⟨parent, parentEnds, named⟩
      rcases (linked.contained _ _ _ named).2 with ⟨property, found, rfl, _⟩
      intro segment segmentMem
      rcases List.mem_append.mp segmentMem with old | last
      · exact ih parentEnds segment old
      · rw [List.mem_singleton.mp last]
        exact (linked.placed _ _ found (linked.child_ne_root named)).1

theorem namesDown_of_resolve (linked : tree.Linked) {segments : List String} {handle : Handle}
    {bound : Nat} (ends : tree.resolve segments = some handle) (enough : handle < bound) :
    tree.namesDown bound handle = "" :: segments := by
  induction segments using List.reverseRecOn generalizing handle bound with
  | nil =>
      cases ends
      rcases linked.root with ⟨root, found, _, nameEq, noParent, _⟩
      cases bound with
      | zero => exact absurd enough (Nat.not_lt_zero _)
      | succ bound => simp [namesDown, found, noParent, nameEq]
  | append_singleton segments name ih =>
      rcases (resolve_concat_eq_some_iff _ _ _ _).mp ends with ⟨parent, parentEnds, named⟩
      rcases (linked.contained _ _ _ named).2 with ⟨property, found, nameEq, parentEq, _⟩
      rcases linked.placed _ _ found (linked.child_ne_root named) with
        ⟨_, parent', parentEq', before⟩
      rw [parentEq] at parentEq'
      cases parentEq'
      cases bound with
      | zero => exact absurd enough (Nat.not_lt_zero _)
      | succ bound =>
          have above : tree.namesDown bound parent = "" :: segments :=
            ih parentEnds (Nat.lt_of_lt_of_le before (Nat.le_of_lt_succ enough))
          simp [namesDown, found, parentEq, above, nameEq]

/-- The path rebuilt from the links to parents spells the chain of names from the root. -/
theorem pathOf_of_resolve (linked : tree.Linked) {segments : List String} {handle : Handle}
    (ends : tree.resolve segments = some handle) :
    tree.pathOf handle = Path.ofSegments segments := by
  have nonempty : segments.filter (fun name => decide (name ≠ "")) = segments := by
    rw [List.filter_eq_self]
    intro segment segmentMem
    simpa using (linked.isSegment_of_resolve ends segment segmentMem).1
  rw [pathOf, linked.namesDown_of_resolve ends (Nat.lt_succ_self handle)]
  rw [List.filter_cons_of_neg (by simp), nonempty]

theorem find_pathOf (linked : tree.Linked) {segments : List String} {handle : Handle}
    (ends : tree.resolve segments = some handle) : tree.find (tree.pathOf handle) = .ok handle := by
  have accepted := Path.segments?_ofSegments (linked.isSegment_of_resolve ends)
  rw [linked.pathOf_of_resolve ends]
  simp [find, accepted, ends]

end Linked

end Tree

end SharedTree
