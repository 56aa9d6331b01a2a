import SharedTree.Proofs.Tree.Alike

/-!
# Creating, deleting and letting go

This file says what attaching, detaching and releasing a property do to the links of a
tree. Attaching makes exactly one chain of names lead to the new property, detaching makes
exactly one chain lead nowhere, and releasing changes no chain; all three keep a linked
tree linked.
-/

namespace SharedTree

namespace Property

/-- The same property, but for what it contains. -/
structure SamePlace (left right : Property) : Prop where
  uuid : left.uuid = right.uuid
  name : left.name = right.name
  parent : left.parent = right.parent
  kind : left.kind = right.kind
  handler : left.handler? = right.handler?
  holders : left.holders = right.holders

theorem SamePlace.refl (property : Property) : property.SamePlace property :=
  ⟨rfl, rfl, rfl, rfl, rfl, rfl⟩

theorem SamePlace.trans {left middle right : Property} (first : left.SamePlace middle)
    (second : middle.SamePlace right) : left.SamePlace right :=
  ⟨first.uuid.trans second.uuid, first.name.trans second.name, first.parent.trans second.parent,
    first.kind.trans second.kind, first.handler.trans second.handler,
    first.holders.trans second.holders⟩

theorem samePlace_mapChildren (change : Table String Handle → Table String Handle)
    (property : Property) : (property.mapChildren change).SamePlace property := by
  rcases property with ⟨_, _, _, content, _⟩
  cases content <;> exact ⟨rfl, rfl, rfl, rfl, rfl, rfl⟩

theorem detached_mapChildren (change : Table String Handle → Table String Handle)
    (property : Property) : (property.mapChildren change).detached = property.detached := by
  rcases property with ⟨_, _, _, content, _⟩
  cases content <;> rfl

theorem samePlace_detach (property : Property) : property.detach.SamePlace property := by
  rcases property with ⟨_, _, _, content, _⟩
  cases content <;> exact ⟨rfl, rfl, rfl, rfl, rfl, rfl⟩

theorem children?_detach (property : Property) : property.detach.children? = property.children? := by
  rcases property with ⟨_, _, _, content, _⟩
  cases content <;> rfl

theorem children?_mapChildren (change : Table String Handle → Table String Handle)
    (property : Property) :
    (property.mapChildren change).children? = property.children?.map change := by
  rcases property with ⟨_, _, _, content, _⟩
  cases content <;> rfl

end Property

namespace Tree

variable {tree : Tree}

/-! ## Attaching -/

/-- A property as it is when it has just been created. -/
def created (uuid : Uuid) (name : String) (parent : Handle) (kind : PropertyKind)
    (payload : Bytes) (owner : SessionId) : Property :=
  { uuid, name, parent := some parent, content := .new kind payload owner }

theorem children?_created {uuid : Uuid} {name : String} {parent : Handle} {kind : PropertyKind}
    {payload : Bytes} {owner : SessionId} {children : Table String Handle}
    (isNode : (created uuid name parent kind payload owner).children? = some children) :
    children = .empty := by
  cases kind <;> simp_all [created, Content.new, Property.children?]

section Attach

variable {parent : Handle} {name : String} {kind : PropertyKind} {payload : Bytes}
  {owner : SessionId} {uuid : Uuid} {pool : UuidPool Handle} {children : Table String Handle}

theorem property?_attach (tree : Tree) (parent : Handle) (name : String) (kind : PropertyKind)
    (payload : Bytes) (owner : SessionId) (uuid : Uuid) (pool : UuidPool Handle)
    (handle : Handle) :
    (tree.attach parent name (.new kind payload owner) uuid pool).property? handle =
      if handle = tree.nextHandle then some (created uuid name parent kind payload owner)
      else if handle = parent then
        (tree.property? handle).map (·.mapChildren (·.insert name tree.nextHandle))
      else tree.property? handle := by
  simp only [attach, property?, Table.find?_insert, Table.find?_modify]
  rfl

theorem Linked.property?_nextHandle (linked : tree.Linked) :
    tree.property? tree.nextHandle = none := by
  rw [Option.eq_none_iff_forall_ne_some]
  intro property found
  exact Nat.lt_irrefl _ (linked.bounded _ _ found)

theorem Linked.ne_nextHandle (linked : tree.Linked) {handle : Handle} {property : Property}
    (found : tree.property? handle = some property) : handle ≠ tree.nextHandle :=
  Nat.ne_of_lt (linked.bounded _ _ found)

theorem child?_attach (linked : tree.Linked) (node : tree.children? parent = some children)
    (other : Handle) (otherName : String) :
    (tree.attach parent name (.new kind payload owner) uuid pool).child? other otherName =
      if other = parent ∧ otherName = name then some tree.nextHandle
      else tree.child? other otherName := by
  rcases Option.bind_eq_some_iff.mp node with ⟨property, found, isNode⟩
  simp only [child?, children?, property?_attach]
  by_cases isNew : other = tree.nextHandle
  · have notParent : other ≠ parent := isNew ▸ (linked.ne_nextHandle found).symm
    rw [if_pos isNew, if_neg (by simp [notParent]), isNew, linked.property?_nextHandle]
    simp only [Option.bind_some, Option.bind_none]
    cases nodeNew : (created uuid name parent kind payload owner).children? with
    | none => rfl
    | some children =>
        rw [children?_created nodeNew]
        simp
  · by_cases isParent : other = parent
    · subst isParent
      simp only [isNew, if_false, if_true, found, Option.map_some, Option.bind_some,
        Property.children?_mapChildren, isNode, Table.find?_insert, true_and]
    · simp [isNew, isParent]

theorem resolve_attach (linked : tree.Linked) {ancestors : List String}
    (ends : tree.resolve ancestors = some parent) (node : tree.children? parent = some children)
    (absent : tree.child? parent name = none) (segments : List String) :
    (tree.attach parent name (.new kind payload owner) uuid pool).resolve segments =
      if segments = ancestors ++ [name] then some tree.nextHandle else tree.resolve segments := by
  induction segments using List.reverseRecOn with
  | nil => simp
  | append_singleton segments last ih =>
      rw [resolve_concat, resolve_concat, ih]
      by_cases isNew : segments = ancestors ++ [name]
      · have below : segments ++ [last] ≠ ancestors ++ [name] := by
          intro equal
          rw [(List.append_inj_left' equal rfl)] at isNew
          simp at isNew
        have nowhere : tree.resolve segments = none := by
          rw [isNew, resolve_concat, ends, Option.bind_some, absent]
        have notParent : tree.nextHandle ≠ parent := by
          rcases Option.bind_eq_some_iff.mp node with ⟨property, found, _⟩
          exact (linked.ne_nextHandle found).symm
        rw [if_pos isNew, if_neg below, nowhere, Option.bind_some, Option.bind_none,
          child?_attach linked node, if_neg (by simp [notParent])]
        simp [child?, children?, linked.property?_nextHandle]
      · rw [if_neg isNew]
        cases middleEnds : tree.resolve segments with
        | none =>
            have different : segments ++ [last] ≠ ancestors ++ [name] := by
              intro equal
              rw [List.append_inj_left' equal rfl, ends] at middleEnds
              cases middleEnds
            rw [if_neg different]
            rfl
        | some middle =>
            rw [Option.bind_some, Option.bind_some, child?_attach linked node]
            simp only [linked.chain_eq_iff middleEnds ends]

theorem property?_attach_of_old (linked : tree.Linked) {handle : Handle} {property : Property}
    (found : tree.property? handle = some property) :
    ∃ after, (tree.attach parent name (.new kind payload owner) uuid pool).property? handle =
      some after ∧ after.SamePlace property := by
  rw [property?_attach, if_neg (linked.ne_nextHandle found)]
  split
  · exact ⟨_, by rw [found, Option.map_some], property.samePlace_mapChildren _⟩
  · exact ⟨property, found, .refl _⟩

theorem old_of_property?_attach {handle : Handle} {property : Property}
    (found : (tree.attach parent name (.new kind payload owner) uuid pool).property? handle =
      some property) (notNew : handle ≠ tree.nextHandle) :
    ∃ before, tree.property? handle = some before ∧ property.SamePlace before := by
  rw [property?_attach, if_neg notNew] at found
  split at found
  · rcases Option.map_eq_some_iff.mp found with ⟨before, beforeFound, rfl⟩
    exact ⟨before, beforeFound, before.samePlace_mapChildren _⟩
  · exact ⟨property, found, .refl _⟩

theorem find?_index_attach_of_old (fresh : tree.index.find? uuid = none) {other : Uuid}
    {handle : Handle} (inIndex : tree.index.find? other = some handle) :
    (tree.attach parent name (.new kind payload owner) uuid pool).index.find? other =
      some handle := by
  have different : other ≠ uuid := by
    rintro rfl
    rw [fresh] at inIndex
    cases inIndex
  simp [attach, different, inIndex]

theorem isLive_attach_of_old (linked : tree.Linked) (fresh : tree.index.find? uuid = none)
    {handle : Handle} (live : tree.isLive handle = true) :
    (tree.attach parent name (.new kind payload owner) uuid pool).isLive handle = true := by
  rw [isLive_iff] at live ⊢
  rcases live with isRoot | ⟨property, found, inIndex⟩
  · exact Or.inl isRoot
  · rcases property?_attach_of_old linked found with ⟨after, afterFound, same⟩
    refine Or.inr ⟨after, afterFound, ?_⟩
    rw [same.uuid]
    exact find?_index_attach_of_old fresh inIndex

theorem property?_attach_new :
    (tree.attach parent name (.new kind payload owner) uuid pool).property? tree.nextHandle =
      some (created uuid name parent kind payload owner) := by
  rw [property?_attach, if_pos rfl]

theorem isLive_attach_new :
    (tree.attach parent name (.new kind payload owner) uuid pool).isLive tree.nextHandle =
      true := by
  rw [isLive_iff]
  refine Or.inr ⟨_, property?_attach_new, ?_⟩
  simp [attach, created]

theorem isLive_of_isLive_attach {handle : Handle}
    (live : (tree.attach parent name (.new kind payload owner) uuid pool).isLive handle = true)
    (notNew : handle ≠ tree.nextHandle) : tree.isLive handle = true := by
  rw [isLive_iff] at live ⊢
  rcases live with isRoot | ⟨property, found, inIndex⟩
  · exact Or.inl isRoot
  · rcases old_of_property?_attach found notNew with ⟨before, beforeFound, same⟩
    simp only [attach, Table.find?_insert, same.uuid] at inIndex
    split at inIndex
    · exact absurd (Option.some.inj inIndex).symm notNew
    · exact Or.inr ⟨before, beforeFound, inIndex⟩

theorem linked_attach (linked : tree.Linked) (live : tree.isLive parent = true)
    (node : tree.children? parent = some children) (absent : tree.child? parent name = none)
    (segment : Path.IsSegment name) (fresh : tree.index.find? uuid = none) :
    (tree.attach parent name (.new kind payload owner) uuid pool).Linked where
  root := by
    rcases linked.root with ⟨root, found, uuidEq, nameEq, noParent, kindEq⟩
    rcases property?_attach_of_old linked found with ⟨after, afterFound, same⟩
    exact ⟨after, afterFound, same.uuid.trans uuidEq, same.name.trans nameEq,
      same.parent.trans noParent, same.kind.trans kindEq⟩
  bounded := by
    intro handle property found
    by_cases isNew : handle = tree.nextHandle
    · rw [isNew]
      exact Nat.lt_succ_self _
    · rcases old_of_property?_attach found isNew with ⟨before, beforeFound, _⟩
      exact Nat.lt_succ_of_lt (linked.bounded _ _ beforeFound)
  placed := by
    intro handle property found notRoot
    by_cases isNew : handle = tree.nextHandle
    · rw [isNew, property?_attach_new] at found
      cases found
      rcases Option.bind_eq_some_iff.mp node with ⟨parentProperty, parentFound, _⟩
      exact ⟨segment, parent, rfl, isNew ▸ linked.bounded _ _ parentFound⟩
    · rcases old_of_property?_attach found isNew with ⟨before, beforeFound, same⟩
      rw [same.name, same.parent]
      exact linked.placed _ _ beforeFound notRoot
  contained := by
    intro other otherName handle named
    rw [child?_attach linked node] at named
    split at named
    · next isNew =>
      cases named
      rcases isNew with ⟨rfl, rfl⟩
      refine ⟨isLive_attach_of_old linked fresh live, _, property?_attach_new, rfl, rfl, ?_⟩
      simp [attach, created]
    · rcases linked.contained _ _ _ named with
        ⟨otherLive, property, found, nameEq, parentEq, inIndex⟩
      rcases property?_attach_of_old linked found with ⟨after, afterFound, same⟩
      refine ⟨isLive_attach_of_old linked fresh otherLive, after, afterFound,
        same.name.trans nameEq, same.parent.trans parentEq, ?_⟩
      rw [same.uuid]
      exact find?_index_attach_of_old fresh inIndex
  indexed := by
    intro otherUuid handle inIndex
    simp only [attach, Table.find?_insert] at inIndex
    split at inIndex
    · next isNew =>
      cases inIndex
      refine ⟨_, parent, property?_attach_new, isNew.symm, rfl, ?_⟩
      rw [child?_attach linked node, if_pos ⟨rfl, rfl⟩]
    · rcases linked.indexed _ _ inIndex with ⟨property, other, found, uuidEq, parentEq, named⟩
      rcases property?_attach_of_old linked found with ⟨after, afterFound, same⟩
      refine ⟨after, other, afterFound, same.uuid.trans uuidEq, same.parent.trans parentEq, ?_⟩
      rw [child?_attach linked node, same.name, if_neg, named]
      rintro ⟨rfl, nameEq⟩
      rw [nameEq, absent] at named
      cases named
  attached := by
    intro handle property found live
    by_cases isNew : handle = tree.nextHandle
    · rw [isNew, property?_attach_new] at found
      cases found
      rfl
    · have wasLive := isLive_of_isLive_attach live isNew
      rw [property?_attach, if_neg isNew] at found
      split at found
      · rcases Option.map_eq_some_iff.mp found with ⟨before, beforeFound, rfl⟩
        rw [before.detached_mapChildren]
        exact linked.attached _ _ beforeFound wasLive
      · exact linked.attached _ _ found wasLive

end Attach

/-! ## Detaching -/

section Detach

variable {parent handle : Handle} {name : String} {property : Property}

theorem child?_of_empty (found : tree.property? handle = some property)
    (empty : property.children?.map (·.isEmpty) ≠ some false) (name : String) :
    tree.child? handle name = none := by
  simp only [child?, children?, found, Option.bind_some]
  cases isNode : property.children? with
  | none => rfl
  | some children =>
      have isEmpty : children.isEmpty = true := by simpa [isNode] using empty
      exact (Table.isEmpty_iff _).mp isEmpty name

/-- What detaching makes of a property that stays. -/
def remnant (parent : Handle) (name : String) (handle other : Handle) (property : Property) :
    Property :=
  if other = parent then
    if other = handle then (property.mapChildren (·.erase name)).detach
    else property.mapChildren (·.erase name)
  else if other = handle then property.detach
  else property

theorem samePlace_remnant (parent : Handle) (name : String) (handle other : Handle)
    (property : Property) : (remnant parent name handle other property).SamePlace property := by
  unfold remnant
  split <;> split
  · exact (Property.samePlace_detach _).trans (property.samePlace_mapChildren _)
  · exact property.samePlace_mapChildren _
  · exact property.samePlace_detach
  · exact .refl property

theorem children?_remnant (parent : Handle) (name : String) (handle other : Handle)
    (property : Property) :
    (remnant parent name handle other property).children? =
      if other = parent then property.children?.map (·.erase name) else property.children? := by
  unfold remnant
  split <;> split <;> simp [Property.children?_detach, Property.children?_mapChildren]

theorem property?_detach (tree : Tree) (parent : Handle) (name : String) (handle : Handle)
    (property : Property) (other : Handle) :
    (tree.detach parent name handle property).property? other =
      if other = handle ∧ property.holders = 0 then none
      else (tree.property? other).map (remnant parent name handle other) := by
  have unlinked : (tree.properties.modify parent (·.mapChildren (·.erase name))).find? other =
      (tree.properties.find? other).map fun property =>
        if other = parent then property.mapChildren (·.erase name) else property := by
    rw [Table.find?_modify]
    split <;> simp
  by_cases unheld : property.holders = 0
  · have gone : (other = handle ∧ property.holders = 0) ↔ other = handle := and_iff_left unheld
    simp only [detach, property?, if_pos unheld, Table.find?_erase, gone, unlinked]
    split
    · rfl
    · next stays => cases tree.properties.find? other <;> simp [remnant, stays]
  · have stays : ¬(other = handle ∧ property.holders = 0) := fun both => unheld both.2
    simp only [detach, property?, if_neg unheld, Table.find?_modify, if_neg stays, unlinked]
    cases tree.properties.find? other with
    | none => simp
    | some before =>
        simp only [Option.map_some, remnant]
        split <;> split <;> rfl

theorem property?_detach_of_other {other : Handle} {otherProperty : Property}
    (found : tree.property? other = some otherProperty) (different : other ≠ handle) :
    ∃ after, (tree.detach parent name handle property).property? other = some after ∧
      after.SamePlace otherProperty := by
  rw [property?_detach, if_neg (by simp [different]), found, Option.map_some]
  exact ⟨_, rfl, samePlace_remnant _ _ _ _ _⟩

theorem old_of_property?_detach {other : Handle} {otherProperty : Property}
    (found : (tree.detach parent name handle property).property? other = some otherProperty) :
    ∃ before, tree.property? other = some before ∧ otherProperty.SamePlace before := by
  rw [property?_detach] at found
  split at found
  · cases found
  · rcases Option.map_eq_some_iff.mp found with ⟨before, beforeFound, rfl⟩
    exact ⟨before, beforeFound, samePlace_remnant _ _ _ _ _⟩

/-- A property that can be detached: a node contains it under the name, and it contains nothing. -/
structure Detachable (tree : Tree) (parent : Handle) (name : String) (handle : Handle)
    (property : Property) : Prop where
  named : tree.child? parent name = some handle
  found : tree.property? handle = some property
  empty : property.children?.map (·.isEmpty) ≠ some false

theorem child?_detach (detachable : tree.Detachable parent name handle property)
    (other : Handle) (otherName : String) :
    (tree.detach parent name handle property).child? other otherName =
      if other = parent ∧ otherName = name then none else tree.child? other otherName := by
  have childless := child?_of_empty detachable.found detachable.empty
  have notParent : handle ≠ parent := by
    rintro rfl
    have named := detachable.named
    rw [childless] at named
    cases named
  simp only [child?, children?, property?_detach]
  by_cases isGone : other = handle ∧ property.holders = 0
  · have old := childless otherName
    simp only [child?, children?] at old
    rw [if_pos isGone, if_neg (by simp [isGone.1, notParent]), isGone.1, old]
    rfl
  · rw [if_neg isGone]
    by_cases isParent : other = parent
    · subst isParent
      rcases (child?_eq_some_iff _ _ _ _).mp detachable.named with
        ⟨node, children, nodeFound, isNode, _⟩
      simp only [nodeFound, Option.map_some, Option.bind_some, children?_remnant, if_true, isNode,
        Table.find?_erase, true_and]
    · simp only [Option.bind_map, Function.comp_def, children?_remnant, isParent, if_false, false_and]

theorem resolve_detach (linked : tree.Linked) {ancestors : List String}
    (ends : tree.resolve ancestors = some parent)
    (detachable : tree.Detachable parent name handle property) (segments : List String) :
    (tree.detach parent name handle property).resolve segments =
      if segments = ancestors ++ [name] then none else tree.resolve segments := by
  have whole : tree.resolve (ancestors ++ [name]) = some handle :=
    (resolve_concat_eq_some_iff _ _ _ _).mpr ⟨parent, ends, detachable.named⟩
  induction segments using List.reverseRecOn with
  | nil => simp
  | append_singleton segments last ih =>
      rw [resolve_concat, resolve_concat, ih]
      by_cases isGone : segments = ancestors ++ [name]
      · have below : segments ++ [last] ≠ ancestors ++ [name] := by
          intro equal
          rw [List.append_inj_left' equal rfl] at isGone
          simp at isGone
        rw [if_pos isGone, if_neg below, isGone, whole, Option.bind_some,
          child?_of_empty detachable.found detachable.empty]
        rfl
      · rw [if_neg isGone]
        cases middleEnds : tree.resolve segments with
        | none => simp
        | some middle =>
            rw [Option.bind_some, Option.bind_some, child?_detach detachable]
            simp only [linked.chain_eq_iff middleEnds ends]

theorem find?_index_detach_of_other (linked : tree.Linked)
    (detachable : tree.Detachable parent name handle property) {uuid : Uuid} {other : Handle}
    (inIndex : tree.index.find? uuid = some other) (different : other ≠ handle) :
    (tree.detach parent name handle property).index.find? uuid = some other := by
  have otherUuid : uuid ≠ property.uuid := by
    rintro rfl
    have sameIndex := (linked.of_named detachable.named detachable.found).2.2
    rw [inIndex] at sameIndex
    exact different (Option.some.inj sameIndex)
  simp [detach, otherUuid, inIndex]

theorem isLive_detach_of_other (linked : tree.Linked)
    (detachable : tree.Detachable parent name handle property) {other : Handle}
    (live : tree.isLive other = true) (different : other ≠ handle) :
    (tree.detach parent name handle property).isLive other = true := by
  rw [isLive_iff] at live ⊢
  rcases live with isRoot | ⟨otherProperty, found, inIndex⟩
  · exact Or.inl isRoot
  · rcases property?_detach_of_other found different with ⟨after, afterFound, same⟩
    refine Or.inr ⟨after, afterFound, ?_⟩
    rw [same.uuid]
    exact find?_index_detach_of_other linked detachable inIndex different

/-- Nothing is live after detaching that was not, and what has been detached is not. -/
theorem isLive_of_isLive_detach (linked : tree.Linked)
    (detachable : tree.Detachable parent name handle property) {other : Handle}
    (live : (tree.detach parent name handle property).isLive other = true) :
    tree.isLive other = true ∧ other ≠ handle := by
  rw [isLive_iff] at live ⊢
  rcases live with rfl | ⟨otherProperty, found, inIndex⟩
  · exact ⟨Or.inl rfl, (linked.child_ne_root detachable.named).symm⟩
  · rcases old_of_property?_detach found with ⟨before, beforeFound, same⟩
    simp only [detach, Table.find?_erase, same.uuid] at inIndex
    split at inIndex
    · cases inIndex
    · next different =>
      refine ⟨Or.inr ⟨before, beforeFound, inIndex⟩, ?_⟩
      rintro rfl
      rw [detachable.found] at beforeFound
      cases beforeFound
      exact different rfl

theorem linked_detach (linked : tree.Linked)
    (detachable : tree.Detachable parent name handle property) :
    (tree.detach parent name handle property).Linked where
  root := by
    rcases linked.root with ⟨root, found, uuidEq, nameEq, noParent, kindEq⟩
    rcases property?_detach_of_other found (linked.child_ne_root detachable.named).symm with
      ⟨after, afterFound, same⟩
    exact ⟨after, afterFound, same.uuid.trans uuidEq, same.name.trans nameEq,
      same.parent.trans noParent, same.kind.trans kindEq⟩
  bounded := by
    intro other otherProperty found
    rcases old_of_property?_detach found with ⟨before, beforeFound, _⟩
    exact linked.bounded _ _ beforeFound
  placed := by
    intro other otherProperty found notRoot
    rcases old_of_property?_detach found with ⟨before, beforeFound, same⟩
    rw [same.name, same.parent]
    exact linked.placed _ _ beforeFound notRoot
  contained := by
    intro other otherName child named
    rw [child?_detach detachable] at named
    split at named
    · cases named
    · next elsewhere =>
      rcases linked.contained _ _ _ named with
        ⟨live, childProperty, found, nameEq, parentEq, inIndex⟩
      have otherNe : other ≠ handle := by
        rintro rfl
        rw [child?_of_empty detachable.found detachable.empty] at named
        cases named
      have childNe : child ≠ handle := by
        rintro rfl
        rcases linked.of_named detachable.named found with ⟨sameName, sameParent, _⟩
        rw [parentEq] at sameParent
        exact elsewhere ⟨Option.some.inj sameParent, nameEq.symm.trans sameName⟩
      rcases property?_detach_of_other found childNe with ⟨after, afterFound, same⟩
      refine ⟨isLive_detach_of_other linked detachable live otherNe, after, afterFound,
        same.name.trans nameEq, same.parent.trans parentEq, ?_⟩
      rw [same.uuid]
      exact find?_index_detach_of_other linked detachable inIndex childNe
  indexed := by
    intro uuid child inIndex
    simp only [detach, Table.find?_erase] at inIndex
    split at inIndex
    · cases inIndex
    · next different =>
      rcases linked.indexed _ _ inIndex with ⟨childProperty, other, found, rfl, parentEq, named⟩
      have childNe : child ≠ handle := by
        rintro rfl
        rw [detachable.found] at found
        cases found
        exact different rfl
      rcases property?_detach_of_other found childNe with ⟨after, afterFound, same⟩
      refine ⟨after, other, afterFound, same.uuid, same.parent.trans parentEq, ?_⟩
      rw [child?_detach detachable, same.name, if_neg, named]
      rintro ⟨rfl, nameEq⟩
      rw [nameEq, detachable.named] at named
      exact childNe (Option.some.inj named).symm
  attached := by
    intro other otherProperty found live
    rcases isLive_of_isLive_detach linked detachable live with ⟨wasLive, different⟩
    rw [property?_detach, if_neg (by simp [different])] at found
    rcases Option.map_eq_some_iff.mp found with ⟨before, beforeFound, rfl⟩
    have stays := linked.attached _ _ beforeFound wasLive
    simp only [remnant, if_neg different]
    split
    · rw [before.detached_mapChildren]
      exact stays
    · exact stays

end Detach

/-! ## Letting go -/

theorem property?_release {handle : Handle} {property : Property}
    (found : tree.property? handle = some property) (other : Handle) :
    (tree.release handle).property? other =
      if other = handle then
        if property.holders ≤ 1 ∧ tree.isLive handle = false then none
        else some { property with holders := property.holders - 1 }
      else tree.property? other := by
  have inTable : tree.properties.find? handle = some property := found
  simp only [release, found]
  cases gone : decide (property.holders ≤ 1) && !tree.isLive handle with
  | true =>
      simp only [Bool.and_eq_true, decide_eq_true_eq, Bool.not_eq_true'] at gone
      simp [property?, gone]
  | false =>
      have kept : ¬(property.holders ≤ 1 ∧ tree.isLive handle = false) := by
        rintro ⟨unheld, dead⟩
        simp [unheld, dead] at gone
      simp only [if_neg kept, Bool.false_eq_true, if_false, property?, Table.find?_modify]
      by_cases same : other = handle
      · simp [same, inTable]
      · simp [same]

theorem release_cases (tree : Tree) (handle : Handle) :
    tree.Alike (tree.release handle) ∨
      ∃ property, tree.property? handle = some property ∧ tree.isLive handle = false ∧
        property.holders ≤ 1 ∧
        tree.release handle = { tree with properties := tree.properties.erase handle } := by
  simp only [release]
  cases found : tree.property? handle with
  | none => exact Or.inl (.refl tree)
  | some property =>
      cases gone : decide (property.holders ≤ 1) && !tree.isLive handle with
      | true =>
          simp only [Bool.and_eq_true, decide_eq_true_eq, Bool.not_eq_true'] at gone
          exact Or.inr ⟨property, rfl, gone.2, gone.1, by simp [gone]⟩
      | false =>
          left
          simp only [gone, Bool.false_eq_true, if_false]
          exact tree.alike_modify handle _ fun _ => rfl

section Erase

variable {handle : Handle}

theorem property?_eraseDead (tree : Tree) (handle other : Handle) :
    ({ tree with properties := tree.properties.erase handle } : Tree).property? other =
      if other = handle then none else tree.property? other :=
  Table.find?_erase _ _ _

theorem child?_eraseDead (linked : tree.Linked) (dead : tree.isLive handle = false) :
    ({ tree with properties := tree.properties.erase handle } : Tree).child? = tree.child? := by
  funext other name
  by_cases same : other = handle
  · subst same
    cases named : tree.child? other name with
    | none => simp [child?, children?, property?_eraseDead]
    | some child =>
        have live := (linked.contained _ _ _ named).1
        rw [dead] at live
        cases live
  · simp [child?, children?, property?_eraseDead, same]

theorem isLive_eraseDead (dead : tree.isLive handle = false) {other : Handle}
    (live : tree.isLive other = true) :
    ({ tree with properties := tree.properties.erase handle } : Tree).isLive other = true := by
  have different : other ≠ handle := by
    rintro rfl
    rw [dead] at live
    cases live
  rw [isLive_iff] at live ⊢
  simpa [property?_eraseDead, different] using live

theorem property?_eraseDead_of_live (dead : tree.isLive handle = false) {other : Handle}
    (live : tree.isLive other = true) :
    ({ tree with properties := tree.properties.erase handle } : Tree).property? other =
      tree.property? other := by
  rw [property?_eraseDead, if_neg]
  rintro rfl
  rw [dead] at live
  cases live

theorem old_of_property?_eraseDead {other : Handle} {property : Property}
    (found : ({ tree with properties := tree.properties.erase handle } : Tree).property? other =
      some property) : tree.property? other = some property := by
  rw [property?_eraseDead] at found
  split at found
  · cases found
  · exact found

theorem linked_eraseDead (linked : tree.Linked) (dead : tree.isLive handle = false) :
    ({ tree with properties := tree.properties.erase handle } : Tree).Linked where
  root := by
    rcases linked.root with ⟨root, found, rest⟩
    refine ⟨root, ?_, rest⟩
    rw [property?_eraseDead_of_live dead (by simp [isLive])]
    exact found
  bounded := by
    intro other property found
    exact linked.bounded _ _ (old_of_property?_eraseDead found)
  placed := by
    intro other property found notRoot
    exact linked.placed _ _ (old_of_property?_eraseDead found) notRoot
  contained := by
    intro parent name child named
    rw [child?_eraseDead linked dead] at named
    rcases linked.contained _ _ _ named with
      ⟨live, property, found, nameEq, parentEq, inIndex⟩
    have childLive : tree.isLive child = true :=
      (isLive_iff _ _).mpr (Or.inr ⟨property, found, inIndex⟩)
    exact ⟨isLive_eraseDead dead live, property,
      (property?_eraseDead_of_live dead childLive).trans found, nameEq, parentEq, inIndex⟩
  indexed := by
    intro uuid child inIndex
    rcases linked.indexed _ _ inIndex with ⟨property, parent, found, uuidEq, parentEq, named⟩
    subst uuidEq
    have childLive : tree.isLive child = true :=
      (isLive_iff _ _).mpr (Or.inr ⟨property, found, inIndex⟩)
    refine ⟨property, parent, (property?_eraseDead_of_live dead childLive).trans found, rfl,
      parentEq, ?_⟩
    rw [child?_eraseDead linked dead]
    exact named
  attached := by
    intro other property found live
    have earlier := old_of_property?_eraseDead found
    apply linked.attached _ _ earlier
    rw [isLive_iff] at live ⊢
    rcases live with isRoot | ⟨same, sameFound, inIndex⟩
    · exact Or.inl isRoot
    · exact Or.inr ⟨same, old_of_property?_eraseDead sameFound, inIndex⟩

end Erase

theorem isLive_release {handle other : Handle} (live : tree.isLive other = true) :
    (tree.release handle).isLive other = true := by
  rcases tree.release_cases handle with alike | ⟨_, _, dead, _, erased⟩
  · rw [← alike.isLive_eq]
    exact live
  · rw [erased]
    exact isLive_eraseDead dead live

theorem resolve_release (linked : tree.Linked) (handle : Handle) :
    (tree.release handle).resolve = tree.resolve := by
  rcases tree.release_cases handle with alike | ⟨_, _, dead, _, erased⟩
  · exact alike.resolve_eq.symm
  · rw [erased]
    funext segments
    simp only [resolve, child?_eraseDead linked dead]

theorem child?_new (parent : Handle) (name : String) : Tree.new.child? parent name = none := by
  simp only [child?, children?, property?_new]
  split <;> rfl

theorem linked_new : Tree.new.Linked where
  root := ⟨newRoot, by simp [property?_new], rfl, rfl, rfl, rfl⟩
  bounded := by
    intro handle property found
    rw [(eq_of_property?_new found).1]
    exact Nat.lt_succ_self _
  placed := by
    intro handle property found notRoot
    exact absurd (eq_of_property?_new found).1 notRoot
  contained := by
    intro parent name handle named
    rw [child?_new] at named
    cases named
  indexed := by
    intro uuid handle inIndex
    cases inIndex
  attached := by
    intro handle property found _
    rw [(eq_of_property?_new found).2]
    rfl

end Tree

end SharedTree
