import SharedTree.Proofs.Tree.Requests

/-!
# Steps that nobody is told of

Most of what happens to a tree creates and deletes nothing: values are written, observers
come and go, references are taken and dropped. `Tree.Quiet` gathers what all such steps
have in common. They leave the live properties as they are, and the only properties that
may disappear are deleted ones.

No step whatever, quiet or not, makes a property reappear or changes who answers its calls.
-/

namespace SharedTree

namespace Tree

/-- Nothing was created or deleted on the way from one tree to the other. -/
structure Quiet (before after : Tree) : Prop where
  sound : before.Sound → after.Sound
  index : after.index = before.index
  nextHandle : after.nextHandle = before.nextHandle
  old : ∀ handle property, after.property? handle = some property →
    ∃ earlier, before.property? handle = some earlier ∧ property.bare = earlier.bare
  info? : before.Sound → ∀ handle, before.isLive handle = true →
    after.info? handle = before.info? handle
  isLive : ∀ handle, before.isLive handle = true → after.isLive handle = true

variable {before middle after tree : Tree}

theorem Alike.quiet (alike : before.Alike after) : before.Quiet after where
  sound := alike.sound
  index := alike.index.symm
  nextHandle := alike.nextHandle.symm
  old _ _ found := by
    rcases alike.symm.exists_property found with ⟨earlier, earlierFound, same⟩
    exact ⟨earlier, earlierFound, same.symm⟩
  info? _ _ _ := by rw [alike.info?_eq]
  isLive _ live := by rwa [← alike.isLive_eq]

namespace Quiet

theorem refl (tree : Tree) : tree.Quiet tree := (Alike.refl tree).quiet

theorem trans (first : before.Quiet middle) (second : middle.Quiet after) :
    before.Quiet after where
  sound sound := second.sound (first.sound sound)
  index := second.index.trans first.index
  nextHandle := second.nextHandle.trans first.nextHandle
  old _ _ found := by
    rcases second.old _ _ found with ⟨earlier, earlierFound, same⟩
    rcases first.old _ _ earlierFound with ⟨earliest, earliestFound, alsoSame⟩
    exact ⟨earliest, earliestFound, same.trans alsoSame⟩
  info? sound handle live :=
    (second.info? (first.sound sound) handle (first.isLive handle live)).trans
      (first.info? sound handle live)
  isLive handle live := second.isLive handle (first.isLive handle live)

end Quiet

theorem info?_of_resolve (linked : tree.Linked) {segments : List String} {handle : Handle}
    (ends : tree.resolve segments = some handle) :
    tree.info? handle = (tree.property? handle).map fun property =>
      { uuid := property.uuid, kind := property.kind, path := Path.ofSegments segments } := by
  rw [info?, linked.pathOf_of_resolve ends]

theorem quiet_release (tree : Tree) (handle : Handle) : tree.Quiet (tree.release handle) := by
  rcases tree.release_cases handle with alike | ⟨property, _, dead, _, erased⟩
  · exact alike.quiet
  · rw [erased]
    refine ⟨fun sound => sound_eraseDead sound dead, rfl, rfl, ?_, ?_, ?_⟩
    · intro other otherProperty found
      exact ⟨otherProperty, old_of_property?_eraseDead found, rfl⟩
    · intro sound other live
      rcases sound.exists_resolve_of_isLive live with ⟨segments, ends⟩
      have endsAfter : ({ tree with properties := tree.properties.erase handle } : Tree).resolve
          segments = some other := by
        rw [← ends]
        simp only [resolve, child?_eraseDead sound.toLinked dead]
      rw [info?_of_resolve (linked_eraseDead sound.toLinked dead) endsAfter,
        info?_of_resolve sound.toLinked ends, property?_eraseDead_of_live dead live]
    · intro other live
      exact isLive_eraseDead dead live

theorem quiet_hold (tree : Tree) (handle : Handle) : tree.Quiet (tree.hold handle) :=
  (tree.alike_hold handle).quiet

/-- Properties were held and let go of on the way from one tree to the other, and nothing else
happened. -/
inductive Lent (before : Tree) : Tree → Prop where
  | refl : Lent before before
  | hold {after : Tree} (lent : Lent before after) (handle : Handle) :
      Lent before (after.hold handle)
  | release {after : Tree} (lent : Lent before after) (handle : Handle) :
      Lent before (after.release handle)

namespace Lent

theorem trans (first : before.Lent middle) (second : middle.Lent after) : before.Lent after := by
  induction second with
  | refl => exact first
  | hold _ handle ih => exact ih.hold handle
  | release _ handle ih => exact ih.release handle

theorem quiet (lent : before.Lent after) : before.Quiet after := by
  induction lent with
  | refl => exact .refl before
  | hold _ handle ih => exact ih.trans (Tree.quiet_hold _ handle)
  | release _ handle ih => exact ih.trans (Tree.quiet_release _ handle)

end Lent

theorem quiet_setValue {ω : Type} {react : Reaction ω} {order : VisitOrder} {uuid : Uuid}
    {data : Bytes} {outside last : ω}
    (passive : ∀ observer update world, (react observer update world).2.1 = world.1)
    (success : setValue react order uuid data (tree, outside) = (.ok (), after, last)) :
    tree.Quiet after := by
  rcases setValue_eq_ok success with
    ⟨handle, property, watchers, unserved, delivered, _, _, _, delivery, rfl⟩
  have unchanged := deliver_preserves { uuid := property.uuid, data }
    (fun world : Tree × ω => world.1 = (tree.hold handle).overwrite handle data)
    (fun observer world same => (passive observer _ world).trans same)
    (order.arrange watchers.entries) ((tree.hold handle).overwrite handle data, outside) rfl
  rw [delivery] at unchanged
  rw [show delivered = (tree.hold handle).overwrite handle data from unchanged]
  have alike := ((tree.alike_hold handle).trans (Tree.alike_overwrite _ handle data)).trans
    (Tree.alike_prune _ handle unserved)
  exact alike.quiet.trans (Tree.quiet_release _ handle)

/-! ## Where properties come from -/

/-- Properties that exist existed before, with the same handler, or the owner has just created
them. -/
structure Grown (before after : Tree) (owner? : Option SessionId) : Prop where
  nextHandle : before.nextHandle ≤ after.nextHandle
  origin : ∀ handle property, after.property? handle = some property →
    (∃ earlier, before.property? handle = some earlier ∧
      property.handler? = earlier.handler?) ∨
    (handle = before.nextHandle ∧
      ∀ handler, property.handler? = some handler → owner? = some handler)

theorem Quiet.grown (quiet : before.Quiet after) (owner? : Option SessionId) :
    before.Grown after owner? := by
  refine ⟨by rw [quiet.nextHandle], ?_⟩
  intro handle property found
  rcases quiet.old handle property found with ⟨earlier, earlierFound, same⟩
  exact Or.inl ⟨earlier, earlierFound, (Property.eq_of_bare_eq same).2.2.2.2⟩

theorem grown_create {path : String} {kind : PropertyKind} {payload : Bytes} {owner : SessionId}
    {info : PropertyInfo} (success : before.create path kind payload owner = (.ok info, after)) :
    before.Grown after (some owner) := by
  rcases create_eq_ok success with ⟨ancestors, name, parent, children, uuid, pool, _, _, _, rfl⟩
  refine ⟨Nat.le_succ _, ?_⟩
  intro handle property found
  by_cases isNew : handle = before.nextHandle
  · rw [property?_attach, if_pos isNew] at found
    cases found
    refine Or.inr ⟨isNew, ?_⟩
    intro handler answers
    cases kind <;> cases answers
    rfl
  · rcases old_of_property?_attach found isNew with ⟨earlier, earlierFound, same⟩
    exact Or.inl ⟨earlier, earlierFound, same.handler⟩

theorem grown_delete {path : String} {uuid : Uuid}
    (success : before.delete path = (.ok uuid, after)) (owner? : Option SessionId) :
    before.Grown after owner? := by
  rcases delete_eq_ok success with ⟨ancestors, name, parent, gone, property, _, _, rfl⟩
  refine ⟨Nat.le_refl _, ?_⟩
  intro handle otherProperty found
  rcases old_of_property?_detach found with ⟨earlier, earlierFound, same⟩
  exact Or.inl ⟨earlier, earlierFound, same.handler⟩

end Tree

end SharedTree
