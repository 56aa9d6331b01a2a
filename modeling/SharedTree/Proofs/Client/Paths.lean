import SharedTree.Proofs.Client.Mirror
import SharedTree.Proofs.Places

/-!
# Where a directory finds a property

What a directory is told may contradict what it knows: a uuid may be announced again at another
path, and a path may be announced again under another uuid. Learning of a property forgets the
path that was known for its uuid. It does not forget the uuid that was known at its path; that
uuid still counts as being there, and the path is forgotten when it is deleted or announced
elsewhere, although the path leads to the newer property by then.

`Directory.finds_of` says exactly where every path leads after any use of a directory, and that
every known property is found at its path as long as no path is announced that another property
is known to have.

However contradictory the announcements are, a path never leads astray: `Directory.leads_home`
says that the property it leads to is known, and known to be there.
-/

namespace SharedTree

namespace TreeChange

/-- The uuid that a change is about. -/
def uuid : TreeChange → Uuid
  | .created info => info.uuid
  | .deleted uuid => uuid

/-- What a change leaves to be known of its uuid. -/
def info? : TreeChange → Option PropertyInfo
  | .created info => some info
  | .deleted _ => none

/-- The path at which a change announces a property. -/
def path? (change : TreeChange) : Option String := change.info?.map (·.path)

theorem eq_created_of_info? {change : TreeChange} {info : PropertyInfo}
    (same : change.info? = some info) : change = .created info := by
  cases change with
  | created other =>
      cases same
      rfl
  | deleted uuid => cases same

end TreeChange

/-- What is done to a directory. -/
inductive DirectoryUse where
  | insert (info : PropertyInfo)
  | apply (creations : List PropertyInfo) (deletions : List Uuid)
  deriving DecidableEq, Repr

/-- The changes that a use tells of, in the order in which they are taken. -/
def DirectoryUse.changes : DirectoryUse → List TreeChange
  | .insert info => [.created info]
  | .apply creations deletions => creations.map .created ++ deletions.map .deleted

namespace Directory

def use (directory : Directory) : DirectoryUse → Directory
  | .insert info => directory.insert info
  | .apply creations deletions => directory.apply creations deletions

/-- A directory that knew nothing and has been used. -/
def of (uses : List DirectoryUse) : Directory := uses.foldl use .empty

/-- What directories have been told of, oldest first. -/
def told (uses : List DirectoryUse) : List TreeChange := uses.flatMap DirectoryUse.changes

variable {changes earlier later : List TreeChange} {change : TreeChange} {info : PropertyInfo}
  {uuid : Uuid}

theorem replay_concat (directory : Directory) (changes : List TreeChange) (change : TreeChange) :
    directory.replay (changes ++ [change]) = (directory.replay changes).take change :=
  replay_append directory changes [change]

theorem use_eq_replay (directory : Directory) (one : DirectoryUse) :
    directory.use one = directory.replay one.changes := by
  cases one with
  | insert info => rfl
  | apply creations deletions => exact apply_eq_replay directory creations deletions

theorem of_eq_replay (uses : List DirectoryUse) : of uses = empty.replay (told uses) := by
  rw [of, told, replay, List.foldl_flatMap]
  congr 1
  funext directory one
  exact use_eq_replay directory one

/-! ## One change -/

theorem find?_take (directory : Directory) (change : TreeChange) (uuid : Uuid) :
    (directory.take change).find? uuid =
      if change.uuid = uuid then change.info? else directory.find? uuid := by
  cases change with
  | created info => simp only [take, find?_insert, TreeChange.uuid, TreeChange.info?, eq_comm]
  | deleted gone => simp only [take, find?_erase, TreeChange.uuid, TreeChange.info?, eq_comm]

theorem find?_forgetPath (directory : Directory) (uuid : Uuid) (path : String) :
    (directory.forgetPath uuid).find? path =
      if (directory.find? uuid).map (·.path) = some path then none
      else directory.uuidOf? path := by
  unfold forgetPath find? uuidOf?
  split
  · next known isKnown =>
    simp only [isKnown, Table.find?_erase, Option.map_some, Option.some.injEq, eq_comm]
  · next unknown => simp [unknown]

/-- A path that is announced leads to the uuid that it is announced for. Another path is forgotten
if it is the one that was known for that uuid. -/
theorem uuidOf?_take (directory : Directory) (change : TreeChange) (path : String) :
    (directory.take change).uuidOf? path =
      if change.path? = some path then some change.uuid
      else if (directory.find? change.uuid).map (·.path) = some path then none
      else directory.uuidOf? path := by
  cases change with
  | created info =>
      rw [← find?_forgetPath]
      simp only [take, insert, uuidOf?, Table.find?_insert, TreeChange.path?, TreeChange.info?,
        TreeChange.uuid, Option.map_some, Option.some.injEq, eq_comm]
  | deleted gone =>
      have unannounced : (TreeChange.deleted gone).path? ≠ some path := by
        simp [TreeChange.path?, TreeChange.info?]
      rw [if_neg unannounced]
      exact find?_forgetPath directory gone path

/-! ## What is known -/

/-- What the last change about a uuid leaves to be known of it. -/
def known? (uuid : Uuid) (changes : List TreeChange) : Option PropertyInfo :=
  (changes.filter (·.uuid = uuid)).getLast?.bind TreeChange.info?

theorem known?_concat (uuid : Uuid) (changes : List TreeChange) (change : TreeChange) :
    known? uuid (changes ++ [change]) =
      if change.uuid = uuid then change.info? else known? uuid changes := by
  by_cases about : change.uuid = uuid <;> simp [known?, about]

theorem find?_replay (changes : List TreeChange) (uuid : Uuid) :
    (empty.replay changes).find? uuid = known? uuid changes := by
  induction changes using List.reverseRecOn with
  | nil => rfl
  | append_singleton changes change ih =>
      rw [replay_concat, find?_take, known?_concat, ih]

theorem known?_eq_some_iff : known? uuid changes = some info ↔
    info.uuid = uuid ∧ ∃ earlier later, changes = earlier ++ .created info :: later ∧
      ∀ change ∈ later, change.uuid ≠ uuid := by
  induction changes using List.reverseRecOn with
  | nil => simp [known?]
  | append_singleton changes change ih =>
      rw [known?_concat]
      split
      · next about =>
        constructor
        · intro isInfo
          cases TreeChange.eq_created_of_info? isInfo
          exact ⟨about, changes, [], rfl, nofun⟩
        · rintro ⟨_, earlier, later, split, untouched⟩
          rcases concat_eq_split split with ⟨_, _, rfl⟩ | ⟨before, rfl, _⟩
          · rfl
          · exact absurd about (untouched change (by simp))
      · next other =>
        rw [ih]
        constructor
        · rintro ⟨same, earlier, later, rfl, untouched⟩
          refine ⟨same, earlier, later ++ [change], by simp, ?_⟩
          simpa [or_imp, forall_and, other] using untouched
        · rintro ⟨same, earlier, later, split, untouched⟩
          rcases concat_eq_split split with ⟨_, _, rfl⟩ | ⟨before, rfl, rfl⟩
          · exact absurd same other
          · exact ⟨same, earlier, before, rfl,
              fun change mem => untouched change (by simp [mem])⟩

/-! ## Where a path leads -/

/-- A property was announced, no change since was about it, and nothing was announced at its path
since. -/
def Stands (changes : List TreeChange) (info : PropertyInfo) : Prop :=
  ∃ earlier later, changes = earlier ++ .created info :: later ∧
    ∀ change ∈ later, change.uuid ≠ info.uuid ∧ change.path? ≠ some info.path

/-- A property stands as announced, and no change since was about a property that had been known
at its path. -/
def Leads (changes : List TreeChange) (info : PropertyInfo) : Prop :=
  ∃ earlier later, changes = earlier ++ .created info :: later ∧
    ∀ change ∈ later, change.uuid ≠ info.uuid ∧ change.path? ≠ some info.path ∧
      (known? change.uuid earlier).map (·.path) ≠ some info.path

/-- No path was announced while another property was known to have it. -/
def Apart (changes : List TreeChange) : Prop :=
  ∀ earlier info later, changes = earlier ++ .created info :: later →
    ∀ uuid ≠ info.uuid, (known? uuid earlier).map (·.path) ≠ some info.path

theorem Stands.known (stands : Stands changes info) : known? info.uuid changes = some info := by
  rcases stands with ⟨earlier, later, split, since⟩
  exact known?_eq_some_iff.mpr ⟨rfl, earlier, later, split, fun change mem => (since change mem).1⟩

theorem Leads.stands (leads : Leads changes info) : Stands changes info := by
  rcases leads with ⟨earlier, later, split, since⟩
  exact ⟨earlier, later, split, fun change mem => ⟨(since change mem).1, (since change mem).2.1⟩⟩

/-- Who else is known at a path does not change while nothing is announced there and nothing
happens to them. -/
theorem known_at_iff (other : uuid ≠ info.uuid)
    (since : ∀ change ∈ later, change.path? ≠ some info.path ∧
      (known? change.uuid earlier).map (·.path) ≠ some info.path) :
    (known? uuid (earlier ++ .created info :: later)).map (·.path) = some info.path ↔
      (known? uuid earlier).map (·.path) = some info.path := by
  induction later using List.reverseRecOn with
  | nil => rw [known?_concat, if_neg (show (TreeChange.created info).uuid ≠ uuid from other.symm)]
  | append_singleton later change ih =>
      rw [← List.cons_append, ← List.append_assoc, known?_concat]
      rcases since change (by simp) with ⟨elsewhere, wasElsewhere⟩
      split
      · next about =>
        rw [about] at wasElsewhere
        exact iff_of_false elsewhere wasElsewhere
      · exact ih fun change mem => since change (by simp [mem])

theorem leads_concat : Leads (changes ++ [change]) info ↔
    change = .created info ∨ Leads changes info ∧ change.uuid ≠ info.uuid ∧
      change.path? ≠ some info.path ∧
      (known? change.uuid changes).map (·.path) ≠ some info.path := by
  constructor
  · rintro ⟨earlier, later, split, since⟩
    rcases concat_eq_split split with ⟨_, _, announced⟩ | ⟨before, rfl, rfl⟩
    · exact .inl announced
    · rcases since change (by simp) with ⟨other, elsewhere, wasElsewhere⟩
      have sooner : ∀ change ∈ before, _ := fun change mem => since change (by simp [mem])
      refine .inr ⟨⟨earlier, before, rfl, sooner⟩, other, elsewhere, ?_⟩
      rwa [Ne, known_at_iff other fun change mem => (sooner change mem).2]
  · rintro (rfl | ⟨⟨earlier, later, rfl, since⟩, other, elsewhere, isElsewhere⟩)
    · exact ⟨changes, [], rfl, nofun⟩
    · refine ⟨earlier, later ++ [change], by simp, ?_⟩
      intro one mem
      rcases List.mem_append.mp mem with inLater | isLast
      · exact since one inLater
      · rw [Ne, known_at_iff other fun change mem => (since change mem).2] at isElsewhere
        cases List.mem_singleton.mp isLast
        exact ⟨other, elsewhere, isElsewhere⟩

theorem uuidOf?_replay (changes : List TreeChange) (path : String) (uuid : Uuid) :
    (empty.replay changes).uuidOf? path = some uuid ↔
      ∃ info, Leads changes info ∧ info.path = path ∧ info.uuid = uuid := by
  induction changes using List.reverseRecOn with
  | nil => simp [Leads, replay, uuidOf?, empty]
  | append_singleton changes change ih =>
      rw [replay_concat, uuidOf?_take, find?_replay]
      simp only [leads_concat]
      split
      · next here =>
        -- a path that is announced leads to its uuid, and nowhere else
        rcases Option.map_eq_some_iff.mp here with ⟨info, isInfo, rfl⟩
        cases TreeChange.eq_created_of_info? isInfo
        constructor
        · rintro ⟨rfl⟩
          exact ⟨info, .inl rfl, rfl, rfl⟩
        · rintro ⟨other, announced | ⟨_, _, elsewhere, _⟩, samePath, rfl⟩
          · cases announced
            rfl
          · rw [samePath] at elsewhere
            exact absurd here elsewhere
      · next elsewhere =>
        split
        · next wasHere =>
          -- the path was known for the uuid, so it is forgotten
          constructor
          · intro found
            cases found
          · rintro ⟨info, rfl | ⟨_, _, _, isElsewhere⟩, rfl, _⟩
            · exact absurd rfl elsewhere
            · exact absurd wasHere isElsewhere
        · next wasElsewhere =>
          rw [ih]
          constructor
          · rintro ⟨info, leads, rfl, same⟩
            refine ⟨info, .inr ⟨leads, ?_, elsewhere, wasElsewhere⟩, rfl, same⟩
            intro about
            rw [about, leads.stands.known] at wasElsewhere
            exact wasElsewhere rfl
          · rintro ⟨info, rfl | ⟨leads, _⟩, rfl, same⟩
            · exact absurd rfl elsewhere
            · exact ⟨info, leads, rfl, same⟩

theorem Apart.leads (apart : Apart changes) (known : known? uuid changes = some info) :
    Leads changes info := by
  rcases known?_eq_some_iff.mp known with ⟨rfl, earlier, later, rfl, untouched⟩
  refine ⟨earlier, later, rfl, ?_⟩
  intro change mem
  have other := untouched change mem
  refine ⟨other, ?_, apart earlier info later rfl change.uuid other⟩
  intro here
  rcases Option.map_eq_some_iff.mp here with ⟨newer, isInfo, samePath⟩
  cases TreeChange.eq_created_of_info? isInfo
  rcases List.append_of_mem mem with ⟨before, after, rfl⟩
  -- by then the older property was still known at the path
  apply apart (earlier ++ .created info :: before) newer after (by simp) info.uuid (Ne.symm other)
  rw [known?_eq_some_iff.mpr ⟨rfl, earlier, before, rfl,
    fun change inBefore => untouched change (by simp [inBefore])⟩]
  exact congrArg some samePath.symm

/-- A property that stands as announced is known as announced. A path leads to the property that
stands there, unless another property that was known at the path has been deleted or announced
since. If no path is announced while another property is known to have it, every known property
is found at its path. -/
theorem finds_of (uses : List DirectoryUse) :
    (∀ info, Stands (told uses) info → (of uses).find? info.uuid = some info) ∧
    (∀ path uuid, (of uses).uuidOf? path = some uuid ↔
      ∃ info, Leads (told uses) info ∧ info.path = path ∧ info.uuid = uuid) ∧
    (Apart (told uses) → ∀ uuid info, (of uses).find? uuid = some info →
      (of uses).uuidOf? info.path = some uuid) := by
  rw [of_eq_replay]
  refine ⟨?_, uuidOf?_replay (told uses), ?_⟩
  · intro info stands
    rw [find?_replay, stands.known]
  · intro apart uuid info isKnown
    rw [find?_replay] at isKnown
    exact (uuidOf?_replay _ _ _).mpr
      ⟨info, apart.leads isKnown, rfl, (known?_eq_some_iff.mp isKnown).1⟩

/-- A path is announced under a new uuid, then the property that had been known there is deleted:
the path of the newer property is lost. -/
theorem lost_path :
    let newer : PropertyInfo := { uuid := 101, kind := .value, path := "/a" }
    let uses : List DirectoryUse :=
      [.insert { uuid := 100, kind := .value, path := "/a" }, .insert newer, .apply [] [100]]
    Stands (told uses) newer ∧ (of uses).find? 101 = some newer ∧
      (of uses).uuidOf? "/a" = none := by
  refine ⟨⟨[.created { uuid := 100, kind := .value, path := "/a" }], [.deleted 100], ?_⟩, ?_⟩
  · decide
  · decide

theorem known_of_uuidOf?_replay {path : String}
    (found : (empty.replay changes).uuidOf? path = some uuid) :
    ∃ info, (empty.replay changes).find? uuid = some info ∧ info.uuid = uuid ∧
      info.path = path := by
  rcases (uuidOf?_replay changes path uuid).mp found with ⟨info, leads, samePath, rfl⟩
  refine ⟨info, ?_, rfl, samePath⟩
  rw [find?_replay, leads.stands.known]

/-- A path that leads to a uuid is the path that is known of the uuid, so no two paths lead to the
same one. What is known of a uuid is what was announced of it last, unless it has been deleted
since. -/
theorem leads_home (uses : List DirectoryUse) :
    (∀ path uuid, (of uses).uuidOf? path = some uuid →
      ∃ info, (of uses).find? uuid = some info ∧ info.uuid = uuid ∧ info.path = path) ∧
    (∀ path other uuid, (of uses).uuidOf? path = some uuid →
      (of uses).uuidOf? other = some uuid → path = other) ∧
    ∀ uuid info, (of uses).find? uuid = some info ↔
      info.uuid = uuid ∧ ∃ earlier later, told uses = earlier ++ .created info :: later ∧
        ∀ change ∈ later, change.uuid ≠ uuid := by
  rw [of_eq_replay]
  refine ⟨fun path uuid found => known_of_uuidOf?_replay found, ?_, ?_⟩
  · intro path other uuid found otherFound
    rcases known_of_uuidOf?_replay found with ⟨info, known, _, rfl⟩
    rcases known_of_uuidOf?_replay otherFound with ⟨same, sameKnown, _, rfl⟩
    rw [known] at sameKnown
    cases sameKnown
    rfl
  · intro uuid info
    rw [find?_replay]
    exact known?_eq_some_iff

end Directory

end SharedTree
