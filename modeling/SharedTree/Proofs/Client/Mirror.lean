import SharedTree.Proofs.Client.Directory
import SharedTree.Proofs.Tree.Quiet

/-!
# Directories that mirror a tree

A directory mirrors some of the properties of a tree when it knows exactly the live ones
among them, each with its kind and its path, and finds exactly their paths. Learning of a
creation or a deletion when it happens keeps it a mirror, whatever uuids and paths are used
again.
-/

namespace SharedTree

namespace Tree

variable {tree next : Tree}

theorem info?_eq_some (linked : tree.Linked) {segments : List String} {handle : Handle}
    {property : Property} (ends : tree.resolve segments = some handle)
    (found : tree.property? handle = some property) :
    tree.info? handle = some
      { uuid := property.uuid, kind := property.kind, path := Path.ofSegments segments } := by
  rw [info?_of_resolve linked ends, found, Option.map_some]

theorem info?_eq_of_samePlace (linked : tree.Linked) (nextLinked : next.Linked)
    {segments : List String} {handle : Handle} {property after : Property}
    (ends : tree.resolve segments = some handle)
    (nextEnds : next.resolve segments = some handle)
    (found : tree.property? handle = some property)
    (afterFound : next.property? handle = some after) (same : after.SamePlace property) :
    next.info? handle = tree.info? handle := by
  rw [info?_eq_some nextLinked nextEnds afterFound, info?_eq_some linked ends found, same.uuid,
    same.kind]

/-- What a successful creation means for the live properties. -/
theorem create_announces (sound : tree.Sound) {path : String} {kind : PropertyKind}
    {payload : Bytes} {owner : SessionId} {info : PropertyInfo}
    (success : tree.create path kind payload owner = (.ok info, next)) :
    tree.index.find? info.uuid = none ∧
      (∀ uuid, next.index.find? uuid =
        if uuid = info.uuid then some tree.nextHandle else tree.index.find? uuid) ∧
      next.info? tree.nextHandle = some info ∧
      (∀ handle, tree.isLive handle = true → next.info? handle = tree.info? handle) ∧
      (∀ handle known, tree.isLive handle = true → tree.info? handle = some known →
        known.path ≠ info.path) := by
  have nextSound := sound.create success
  rcases create_eq_ok success with
    ⟨ancestors, name, parent, children, uuid, pool, found, _, rfl, rfl⟩
  have linked := sound.toLinked
  have nowhere : tree.resolve (ancestors ++ [name]) = none := by
    rw [resolve_concat, found.ends, Option.bind_some, found.absent]
  refine ⟨sound.find?_index_of_take found.taken, ?_, ?_, ?_, ?_⟩
  · intro other
    simp only [attach, Table.find?_insert]
  · have ends : (tree.attach parent name (.new kind payload owner) uuid pool).resolve
        (ancestors ++ [name]) = some tree.nextHandle := by
      rw [resolve_attach linked found.ends found.node found.absent, if_pos rfl]
    rw [info?_eq_some nextSound.toLinked ends (by rw [property?_attach, if_pos rfl]),
      (Path.eq_ofSegments_of_segments? found.accepted).1]
    cases kind <;> rfl
  · intro handle live
    rcases linked.exists_resolve_of_isLive live with ⟨segments, ends⟩
    rcases linked.exists_property_of_resolve ends with ⟨property, isThere⟩
    rcases property?_attach_of_old linked isThere with ⟨after, afterFound, same⟩
    apply info?_eq_of_samePlace linked nextSound.toLinked ends ?_ isThere afterFound same
    rw [resolve_attach linked found.ends found.node found.absent, if_neg, ends]
    rintro rfl
    rw [nowhere] at ends
    cases ends
  · intro handle known live isKnown samePath
    rcases linked.exists_resolve_of_isLive live with ⟨segments, ends⟩
    rcases linked.exists_property_of_resolve ends with ⟨property, isThere⟩
    rw [info?_eq_some linked ends isThere] at isKnown
    cases isKnown
    have spelled := Path.segments?_ofSegments (linked.isSegment_of_resolve ends)
    rw [show Path.ofSegments segments = path from samePath, found.accepted] at spelled
    cases spelled
    rw [nowhere] at ends
    cases ends

/-- What a successful deletion means for the live properties. -/
theorem delete_announces (sound : tree.Sound) {path : String} {uuid : Uuid}
    (success : tree.delete path = (.ok uuid, next)) :
    ∃ gone, tree.index.find? uuid = some gone ∧ next.nextHandle = tree.nextHandle ∧
      (∀ other, next.index.find? other = if other = uuid then none else tree.index.find? other) ∧
      (∀ handle, tree.isLive handle = true → handle ≠ gone →
        next.info? handle = tree.info? handle) := by
  have nextSound := sound.delete success
  rcases delete_eq_ok success with ⟨ancestors, name, parent, gone, property, found, rfl, rfl⟩
  have linked := sound.toLinked
  have whole : tree.resolve (ancestors ++ [name]) = some gone :=
    (resolve_concat_eq_some_iff _ _ _ _).mpr ⟨parent, found.ends, found.detachable.named⟩
  refine ⟨gone, linked.indexed_of_resolve whole (by simp) found.detachable.found, rfl, ?_, ?_⟩
  · intro other
    simp only [detach, Table.find?_erase]
  · intro handle live different
    rcases linked.exists_resolve_of_isLive live with ⟨segments, ends⟩
    rcases linked.exists_property_of_resolve ends with ⟨otherProperty, isThere⟩
    rcases property?_detach_of_other isThere different with ⟨after, afterFound, same⟩
    apply info?_eq_of_samePlace linked nextSound.toLinked ends ?_ isThere afterFound same
    rw [resolve_detach linked found.ends found.detachable, if_neg, ends]
    rintro rfl
    rw [whole] at ends
    cases ends
    exact different rfl

end Tree

namespace Directory

variable {tree next : Tree} {directory : Directory} {chosen other : Handle → Prop}

theorem find?_insert (directory : Directory) (info : PropertyInfo) (uuid : Uuid) :
    (directory.insert info).find? uuid =
      if uuid = info.uuid then some info else directory.find? uuid :=
  Table.find?_insert _ _ _ _

theorem find?_erase (directory : Directory) (erased uuid : Uuid) :
    (directory.erase erased).find? uuid = if uuid = erased then none else directory.find? uuid :=
  Table.find?_erase _ _ _

/-- Every path leads to the property that is known to be there, and every known property is found
at its path. -/
def Paired (directory : Directory) : Prop :=
  ∀ path uuid, directory.uuidOf? path = some uuid ↔
    ∃ info, directory.find? uuid = some info ∧ info.path = path

theorem uuidOf?_insert {info : PropertyInfo} (unknown : directory.find? info.uuid = none)
    (path : String) : (directory.insert info).uuidOf? path =
      if path = info.path then some info.uuid else directory.uuidOf? path := by
  have forgotten : directory.forgetPath info.uuid = directory.byPath := by
    rw [forgetPath, show directory.byUuid.find? info.uuid = none from unknown]
  simp only [Directory.uuidOf?, Directory.insert, forgotten, Table.find?_insert]

theorem uuidOf?_erase_of_unknown {uuid : Uuid} (unknown : directory.find? uuid = none)
    (path : String) : (directory.erase uuid).uuidOf? path = directory.uuidOf? path := by
  simp only [Directory.uuidOf?, Directory.erase, forgetPath,
    show directory.byUuid.find? uuid = none from unknown]

theorem uuidOf?_erase {uuid : Uuid} {info : PropertyInfo} (known : directory.find? uuid = some info)
    (path : String) : (directory.erase uuid).uuidOf? path =
      if path = info.path then none else directory.uuidOf? path := by
  simp only [Directory.uuidOf?, Directory.erase, forgetPath,
    show directory.byUuid.find? uuid = some info from known, Table.find?_erase]

namespace Paired

/-- A property that nothing was known of is learned of at a path where nothing was known. -/
theorem insert (paired : directory.Paired) {info : PropertyInfo}
    (unknown : directory.find? info.uuid = none)
    (pathFree : ∀ uuid known, directory.find? uuid = some known → known.path ≠ info.path) :
    (directory.insert info).Paired := by
  intro path uuid
  rw [uuidOf?_insert unknown, find?_insert]
  by_cases samePath : path = info.path
  · rw [if_pos samePath]
    constructor
    · rintro ⟨rfl⟩
      exact ⟨info, if_pos rfl, samePath.symm⟩
    · rintro ⟨known, isKnown, knownPath⟩
      split at isKnown
      · next sameUuid => rw [sameUuid]
      · exact absurd (knownPath.trans samePath) (pathFree uuid known isKnown)
  · rw [if_neg samePath, paired]
    constructor
    · rintro ⟨known, isKnown, knownPath⟩
      refine ⟨known, ?_, knownPath⟩
      rw [if_neg, isKnown]
      rintro rfl
      rw [unknown] at isKnown
      cases isKnown
    · rintro ⟨known, isKnown, knownPath⟩
      split at isKnown
      · cases isKnown
        exact absurd knownPath.symm samePath
      · exact ⟨known, isKnown, knownPath⟩

theorem erase (paired : directory.Paired) (uuid : Uuid) : (directory.erase uuid).Paired := by
  intro path other
  rw [find?_erase]
  cases known : directory.find? uuid with
  | none =>
      rw [uuidOf?_erase_of_unknown known, paired]
      split
      · next same => simp [same, known]
      · rfl
  | some info =>
      rw [uuidOf?_erase known]
      by_cases samePath : path = info.path
      · have here := (paired path uuid).mpr ⟨info, known, samePath.symm⟩
        rw [if_pos samePath]
        constructor
        · intro impossible
          cases impossible
        · rintro ⟨otherInfo, isKnown, knownPath⟩
          split at isKnown
          · cases isKnown
          · next different =>
            have there := (paired path other).mpr ⟨otherInfo, isKnown, knownPath⟩
            rw [here] at there
            exact absurd (Option.some.inj there).symm different
      · rw [if_neg samePath, paired]
        split
        · next same =>
          constructor
          · rintro ⟨otherInfo, isKnown, knownPath⟩
            rw [same, known] at isKnown
            cases isKnown
            exact absurd knownPath.symm samePath
          · rintro ⟨otherInfo, impossible, _⟩
            cases impossible
        · rfl

end Paired

/-! ## Mirroring -/

/-- The directory knows exactly the live properties of the tree that are chosen, and finds exactly
their paths. -/
structure Mirrors (directory : Directory) (tree : Tree) (chosen : Handle → Prop) : Prop where
  find? : ∀ uuid info, directory.find? uuid = some info ↔
    ∃ handle, tree.index.find? uuid = some handle ∧ chosen handle ∧ tree.info? handle = some info
  uuidOf? : ∀ path uuid, directory.uuidOf? path = some uuid ↔
    ∃ info, directory.find? uuid = some info ∧ info.path = path

namespace Mirrors

theorem empty (none : ∀ uuid handle, tree.index.find? uuid = some handle → ¬chosen handle) :
    Directory.empty.Mirrors tree chosen := by
  refine ⟨?_, ?_⟩
  · intro uuid info
    constructor
    · intro impossible
      cases impossible
    · rintro ⟨handle, inIndex, isChosen, _⟩
      exact absurd isChosen (none uuid handle inIndex)
  · intro path uuid
    constructor
    · intro impossible
      cases impossible
    · rintro ⟨info, impossible, _⟩
      cases impossible

theorem congr (mirrors : directory.Mirrors tree chosen)
    (same : ∀ uuid handle, tree.index.find? uuid = some handle → (chosen handle ↔ other handle)) :
    directory.Mirrors tree other := by
  refine ⟨?_, mirrors.uuidOf?⟩
  intro uuid info
  rw [mirrors.find?]
  constructor
  · rintro ⟨handle, inIndex, isChosen, known⟩
    exact ⟨handle, inIndex, (same uuid handle inIndex).mp isChosen, known⟩
  · rintro ⟨handle, inIndex, isChosen, known⟩
    exact ⟨handle, inIndex, (same uuid handle inIndex).mpr isChosen, known⟩

/-- What is known of a uuid stays so while the property with it is announced in the same way. -/
theorem known_iff {uuid : Uuid} {info : PropertyInfo}
    (same : ∀ handle, tree.index.find? uuid = some handle → next.info? handle = tree.info? handle) :
    (∃ handle, tree.index.find? uuid = some handle ∧ chosen handle ∧
        tree.info? handle = some info) ↔
      ∃ handle, tree.index.find? uuid = some handle ∧ chosen handle ∧
        next.info? handle = some info := by
  constructor
  · rintro ⟨handle, inIndex, isChosen, known⟩
    exact ⟨handle, inIndex, isChosen, (same handle inIndex).trans known⟩
  · rintro ⟨handle, inIndex, isChosen, known⟩
    exact ⟨handle, inIndex, isChosen, (same handle inIndex).symm.trans known⟩

theorem quiet (mirrors : directory.Mirrors tree chosen) (sound : tree.Sound)
    (quiet : tree.Quiet next) : directory.Mirrors next chosen := by
  refine ⟨?_, mirrors.uuidOf?⟩
  intro uuid info
  rw [mirrors.find?, quiet.index]
  apply known_iff
  intro handle inIndex
  exact quiet.info? sound handle (sound.isLive_of_index inIndex)

theorem create (mirrors : directory.Mirrors tree chosen) (sound : tree.Sound)
    (started : chosen tree.nextHandle) {path : String} {kind : PropertyKind} {payload : Bytes}
    {owner : SessionId} {info : PropertyInfo}
    (success : tree.create path kind payload owner = (.ok info, next)) :
    (directory.insert info).Mirrors next chosen := by
  rcases Tree.create_announces sound success with ⟨fresh, index, newInfo, oldInfo, pathFree⟩
  refine ⟨?_, ?_⟩
  · intro uuid known
    rw [find?_insert, index]
    split
    · constructor
      · rintro ⟨rfl⟩
        exact ⟨tree.nextHandle, rfl, started, newInfo⟩
      · rintro ⟨handle, same, _, isKnown⟩
        cases same
        rw [← isKnown, newInfo]
    · rw [mirrors.find?]
      apply known_iff
      intro handle inIndex
      exact oldInfo handle (sound.isLive_of_index inIndex)
  · apply Paired.insert mirrors.uuidOf?
    · rw [Option.eq_none_iff_forall_ne_some]
      intro known isKnown
      rcases (mirrors.find? _ _).mp isKnown with ⟨handle, inIndex, _⟩
      rw [fresh] at inIndex
      cases inIndex
    · intro uuid known isKnown
      rcases (mirrors.find? _ _).mp isKnown with ⟨handle, inIndex, _, isInfo⟩
      exact pathFree handle known (sound.isLive_of_index inIndex) isInfo

theorem delete (mirrors : directory.Mirrors tree chosen) (sound : tree.Sound) {path : String}
    {uuid : Uuid} (success : tree.delete path = (.ok uuid, next)) :
    (directory.erase uuid).Mirrors next chosen := by
  rcases Tree.delete_announces sound success with ⟨gone, goneIndex, _, index, oldInfo⟩
  refine ⟨?_, Paired.erase mirrors.uuidOf? uuid⟩
  intro other known
  rw [find?_erase, index]
  split
  · simp
  · next different =>
    rw [mirrors.find?]
    apply known_iff
    intro handle inIndex
    apply oldInfo handle (sound.isLive_of_index inIndex)
    rintro rfl
    exact different (sound.toLinked.eq_of_indexed inIndex goneIndex)

end Mirrors

end Directory

end SharedTree
