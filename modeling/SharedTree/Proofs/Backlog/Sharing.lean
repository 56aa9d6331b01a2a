import SharedTree.Proofs.Backlog
import Mathlib.Order.Bounds.Basic

/-!
# The fewest frames for a backlog

Entries may share a frame if all of them are updates, or if all of them are announcements and no
creation stands behind a deletion, and the frame is within the limit. A backlog can be cut into
such groups in many ways. The batches that are gathered from it are one of them, and no other has
fewer groups.

What is left of a group when its first entry is taken away may still share a frame. Ending a group
sooner than it has to end therefore gains nothing for the groups behind it.
-/

namespace SharedTree

/-- Entries that may be sent in one frame. -/
inductive Shareable (maxBody : Nat) : List BacklogEntry → Prop
  | alone (entry : BacklogEntry) : Shareable maxBody [entry]
  | updates (sent : List ValueUpdate)
      (within : (Message.propertyUpdateNotification sent).size ≤ maxBody) :
      Shareable maxBody (sent.map .update)
  | changes (creations : List PropertyInfo) (deletions : List Uuid)
      (within : (Message.metaUpdateNotification creations deletions).size ≤ maxBody) :
      Shareable maxBody
        (creations.map (.change ∘ .created) ++ deletions.map (.change ∘ .deleted))

/-- Entries cut into groups, each of which may be sent in one frame. -/
structure Cut (maxBody : Nat) (entries : List BacklogEntry) (groups : List (List BacklogEntry)) :
    Prop where
  flatten : groups.flatten = entries
  shareable : ∀ group ∈ groups, Shareable maxBody group

namespace Message

theorem size_updates_le_append (sent others : List ValueUpdate) :
    (propertyUpdateNotification sent).size ≤ (propertyUpdateNotification (sent ++ others)).size ∧
      (propertyUpdateNotification others).size ≤
        (propertyUpdateNotification (sent ++ others)).size := by
  simp only [size, kind, fields, MessageKind.layout, Codec.array, Codec.sizeAll_append]
  omega

theorem size_changes_le_append (creations others : List PropertyInfo)
    (deletions otherDeletions : List Uuid) :
    (metaUpdateNotification creations deletions).size ≤
        (metaUpdateNotification (creations ++ others) (deletions ++ otherDeletions)).size ∧
      (metaUpdateNotification others otherDeletions).size ≤
        (metaUpdateNotification (creations ++ others) (deletions ++ otherDeletions)).size := by
  simp only [size, kind, fields, MessageKind.layout, Codec.pair, Codec.array,
    Codec.sizeAll_append]
  omega

end Message

/-- What is left of a group behind its first entry may share a frame again. -/
theorem Shareable.tail {maxBody : Nat} {entry : BacklogEntry} {rest : List BacklogEntry}
    (shareable : Shareable maxBody (entry :: rest)) : rest = [] ∨ Shareable maxBody rest := by
  generalize whole : entry :: rest = group at shareable
  cases shareable with
  | alone single => exact .inl (List.cons.inj whole).2
  | updates sent within =>
      rcases List.map_eq_cons_iff.mp whole.symm with ⟨update, others, rfl, _, rfl⟩
      exact .inr (.updates others ((Message.size_updates_le_append [update] others).2.trans within))
  | changes creations deletions within =>
      right
      rcases creations with _ | ⟨info, creations⟩
      · rcases List.map_eq_cons_iff.mp whole.symm with ⟨uuid, others, rfl, _, rfl⟩
        have smaller := (Message.size_changes_le_append [] [] [uuid] others).2
        exact .changes [] others (smaller.trans within)
      · rw [(List.cons.inj whole).2]
        have smaller := (Message.size_changes_le_append [info] creations [] deletions).2
        exact .changes creations deletions (smaller.trans within)

namespace Batch

variable {maxBody : Nat} {batch longer : Batch} {entry : BacklogEntry}
  {more rest entries : List BacklogEntry} {groups : List (List BacklogEntry)}

theorem shareable_of_fits (fits : batch.Fits maxBody) : Shareable maxBody batch.entries := by
  cases batch with
  | changes creations deletions => exact .changes creations deletions (fits _ rfl)
  | updates sent => exact .updates sent (fits _ rfl)
  | whole frame => exact .alone (.frame frame)

/-! ## Which batch has the given entries -/

theorem eq_updates_of_entries {sent : List ValueUpdate} (proper : batch.entries ≠ [])
    (same : batch.entries = sent.map .update) : batch = .updates sent := by
  cases batch with
  | changes creations deletions =>
      rcases sent with _ | ⟨first, others⟩
      · exact absurd same proper
      · rcases creations with _ | ⟨creation, creations⟩ <;>
          rcases deletions with _ | ⟨deletion, deletions⟩ <;> simp [Batch.entries] at same
  | updates others =>
      rw [Batch.entries, List.map_inj_right fun _ _ => BacklogEntry.update.inj] at same
      rw [same]
  | whole frame =>
      rcases sent with _ | ⟨first, others⟩ <;> simp [Batch.entries] at same

theorem changes_inj {creations otherCreations : List PropertyInfo}
    {deletions otherDeletions : List Uuid}
    (same : (Batch.changes creations deletions).entries =
      (Batch.changes otherCreations otherDeletions).entries) :
    creations = otherCreations ∧ deletions = otherDeletions := by
  induction creations generalizing otherCreations with
  | nil =>
      rcases otherCreations with _ | ⟨creation, otherCreations⟩
      · refine ⟨rfl, (List.map_inj_right ?_).mp same⟩
        intro one other equal
        cases equal
        rfl
      · rcases deletions with _ | ⟨deletion, deletions⟩ <;> simp [Batch.entries] at same
  | cons creation creations ih =>
      rcases otherCreations with _ | ⟨otherCreation, otherCreations⟩
      · rcases otherDeletions with _ | ⟨deletion, otherDeletions⟩ <;> simp [Batch.entries] at same
      · have heads : creation = otherCreation := by
          simpa [Batch.entries] using (List.cons.inj same).1
        rcases ih (List.cons.inj same).2 with ⟨rfl, rfl⟩
        exact ⟨by rw [heads], rfl⟩

theorem eq_changes_of_entries {creations : List PropertyInfo} {deletions : List Uuid}
    (proper : batch.entries ≠ [])
    (same : batch.entries = (Batch.changes creations deletions).entries) :
    batch = .changes creations deletions := by
  cases batch with
  | changes others otherDeletions =>
      rcases changes_inj same with ⟨rfl, rfl⟩
      rfl
  | updates sent =>
      rcases sent with _ | ⟨first, sent⟩
      · exact absurd rfl proper
      · rcases creations with _ | ⟨creation, creations⟩ <;>
          rcases deletions with _ | ⟨deletion, deletions⟩ <;> simp [Batch.entries] at same
  | whole frame =>
      rcases creations with _ | ⟨creation, creations⟩ <;>
        rcases deletions with _ | ⟨deletion, deletions⟩ <;> simp [Batch.entries] at same

/-! ## Extending a batch -/

theorem extend?_of_append? (joined : batch.append? entry = some longer)
    (within : longer.size ≤ maxBody) : batch.extend? maxBody entry = some longer := by
  rw [extend?, joined, Option.filter_some, if_pos (decide_eq_true within)]

/-- An entry among announcements is a creation before all deletions, or a deletion behind all
creations. -/
theorem exists_split_changes {earlier : List BacklogEntry} {creations : List PropertyInfo}
    {deletions : List Uuid}
    (split : earlier ++ entry :: more = (Batch.changes creations deletions).entries) :
    (∃ begun info others, creations = begun ++ info :: others ∧
        earlier = begun.map (.change ∘ .created) ∧ entry = .change (.created info)) ∨
      ∃ gone uuid others, deletions = gone ++ uuid :: others ∧
        earlier = (Batch.changes creations gone).entries ∧ entry = .change (.deleted uuid) := by
  rcases List.append_eq_append_iff.mp split with ⟨rest, isCreated, isLeft⟩ | ⟨rest, rfl, isDeleted⟩
  · rcases rest with _ | ⟨first, rest⟩
    · right
      rcases List.map_eq_cons_iff.mp isLeft.symm with ⟨uuid, others, rfl, rfl, _⟩
      refine ⟨[], uuid, others, rfl, ?_, rfl⟩
      simpa [Batch.entries] using isCreated.symm
    · left
      cases (List.cons.inj isLeft).1
      rcases List.map_eq_append_iff.mp isCreated with ⟨begun, left, rfl, rfl, isRest⟩
      rcases List.map_eq_cons_iff.mp isRest with ⟨info, others, rfl, rfl, _⟩
      exact ⟨begun, info, others, rfl, rfl, rfl⟩
  · right
    rcases List.map_eq_append_iff.mp isDeleted with ⟨gone, left, rfl, rfl, isRest⟩
    rcases List.map_eq_cons_iff.mp isRest with ⟨uuid, others, rfl, rfl, _⟩
    exact ⟨gone, uuid, others, rfl, rfl, rfl⟩

/-- A batch takes the next entry if a group that may share a frame goes on with it. -/
theorem exists_extend? (proper : batch.entries ≠ [])
    (shareable : Shareable maxBody (batch.entries ++ entry :: more)) :
    ∃ longer, batch.extend? maxBody entry = some longer := by
  generalize whole : batch.entries ++ entry :: more = group at shareable
  cases shareable with
  | alone single =>
      rcases List.append_eq_singleton_iff.mp whole with ⟨isEmpty, _⟩ | ⟨_, impossible⟩
      · exact absurd isEmpty proper
      · cases impossible
  | updates sent within =>
      rcases List.append_eq_map_iff.mp whole with ⟨begun, left, rfl, isBegun, isLeft⟩
      rcases List.map_eq_cons_iff.mp isLeft with ⟨update, others, rfl, rfl, rfl⟩
      cases eq_updates_of_entries proper isBegun.symm
      refine ⟨.updates (begun ++ [update]), extend?_of_append? rfl ?_⟩
      have smaller := Message.size_updates_le_append (begun ++ [update]) others
      rw [List.append_assoc, List.singleton_append] at smaller
      exact smaller.1.trans within
  | changes creations deletions within =>
      rcases exists_split_changes whole with
        ⟨begun, info, others, rfl, isBegun, rfl⟩ | ⟨gone, uuid, others, rfl, isBegun, rfl⟩
      · have isBatch : batch.entries = (Batch.changes begun []).entries := by
          simpa [Batch.entries] using isBegun
        cases eq_changes_of_entries proper isBatch
        refine ⟨.changes (begun ++ [info]) [], extend?_of_append? rfl ?_⟩
        have smaller := Message.size_changes_le_append (begun ++ [info]) others [] deletions
        rw [List.append_assoc, List.singleton_append, List.nil_append] at smaller
        exact smaller.1.trans within
      · cases eq_changes_of_entries proper isBegun
        refine ⟨.changes creations (gone ++ [uuid]), extend?_of_append? ?_ ?_⟩
        · cases gone <;> rfl
        · have smaller := Message.size_changes_le_append creations [] (gone ++ [uuid]) others
          rw [List.append_assoc, List.singleton_append, List.append_nil] at smaller
          exact smaller.1.trans within

/-! ## Counting groups -/

/-- Other cuts do not get ahead: a batch that begins with what a group begins with ends no sooner
than the group does, and the groups behind it have no more entries to take. -/
theorem length_gatherFrom_le {batch : Batch} {more : List BacklogEntry}
    (proper : batch.entries ≠ []) (shareable : Shareable maxBody (batch.entries ++ more))
    (others : ∀ group ∈ groups, group = [] ∨ Shareable maxBody group) :
    (gatherFrom maxBody batch (more ++ groups.flatten)).length ≤ groups.length + 1 := by
  generalize isRest : more ++ groups.flatten = rest
  induction rest generalizing batch more groups with
  | nil => simp [gatherFrom]
  | cons entry rest ih =>
      rw [gatherFrom]
      rcases List.append_eq_cons_iff.mp isRest with ⟨rfl, isNext⟩ | ⟨left, rfl, rfl⟩
      · rcases List.flatten_eq_cons_iff.mp isNext with ⟨empty, left, later, rfl, _, rfl⟩
        rw [List.forall_mem_append, List.forall_mem_cons] at others
        have tail : left = [] ∨ Shareable maxBody left := by
          rcases others.2.1 with impossible | shared
          · cases impossible
          · exact shared.tail
        simp only [List.length_append, List.length_cons]
        split
        · next longer extended =>
          -- the batch goes on into the group, of which only the rest is left to count
          have joined := entries_append? (Option.filter_eq_some_iff.mp extended).1
          have shared : Shareable maxBody (longer.entries ++ []) := by
            rw [List.append_nil]
            exact shareable_of_fits (fits_extend? extended)
          have bound := ih (by simp [joined]) shared
            (List.forall_mem_cons.mpr ⟨tail, others.2.2⟩) rfl
          rw [List.length_cons] at bound
          omega
        · have shared : Shareable maxBody ((single entry).entries ++ left) := by
            rw [entries_single]
            exact others.2.1.resolve_left (List.cons_ne_nil _ _)
          have bound := ih (by simp) shared others.2.2 rfl
          rw [List.length_cons]
          omega
      · rcases exists_extend? proper shareable with ⟨longer, extended⟩
        have joined := entries_append? (Option.filter_eq_some_iff.mp extended).1
        rw [extended]
        apply ih (by simp [joined]) _ others rfl
        simpa [joined] using shareable

/-- No cut has fewer groups than there are batches. -/
theorem length_gather_le (cut : Cut maxBody entries groups) :
    (gather maxBody entries).length ≤ groups.length := by
  cases entries with
  | nil => simp [gather]
  | cons entry rest =>
      rcases List.flatten_eq_cons_iff.mp cut.flatten with ⟨empty, left, later, rfl, _, rfl⟩
      have shareable := cut.shareable
      rw [List.forall_mem_append, List.forall_mem_cons] at shareable
      have shared : Shareable maxBody ((single entry).entries ++ left) := by
        rw [entries_single]
        exact shareable.2.1
      have bound := length_gatherFrom_le (by simp) shared
        fun group mem => Or.inr (shareable.2.2 group mem)
      rw [gather, List.length_append, List.length_cons]
      omega

/-- The batches are a cut. -/
theorem cut_gather (maxBody : Nat) (entries : List BacklogEntry) :
    Cut maxBody entries ((gather maxBody entries).map Batch.entries) := by
  refine ⟨?_, ?_⟩
  · rw [← List.flatMap_def, flatMap_entries_gather]
  · intro group mem
    rcases List.mem_map.mp mem with ⟨batch, gathered, rfl⟩
    rcases fits_or_single_gather batch gathered with fits | ⟨entry, _, rfl⟩
    · exact shareable_of_fits fits
    · rw [entries_single]
      exact .alone entry

theorem length_filterMap_toFrame? {batches : List Batch}
    (fits : ∀ batch ∈ batches, batch.toFrame? ≠ none) :
    (batches.filterMap toFrame?).length = batches.length := by
  induction batches with
  | nil => rfl
  | cons batch batches ih =>
      rw [List.forall_mem_cons] at fits
      rcases Option.ne_none_iff_exists'.mp fits.1 with ⟨frame, made⟩
      rw [List.filterMap_cons_some made, List.length_cons, List.length_cons, ih fits.2]

/-- If every entry can be sent alone, then every batch can be sent. -/
theorem toFrame?_ne_none_of_gather (limit : maxBody + Header.length < UInt32.size)
    (singles : ∀ entry ∈ entries, ∀ message, (single entry).message? = some message →
      message.size + Header.length < UInt32.size) :
    ∀ batch ∈ gather maxBody entries, batch.toFrame? ≠ none := by
  intro batch mem
  apply toFrame?_ne_none
  intro message sent
  rcases fits_or_single_gather batch mem with within | ⟨entry, waits, rfl⟩
  · have := within message sent
    omega
  · exact singles entry waits message sent

end Batch

namespace Backlog

variable {backlog : Backlog}

/-- Draining sends as few frames as any way of cutting the entries into groups that may share a
frame has groups. -/
theorem isLeast_length_drain (limit : backlog.maxBody + Header.length < UInt32.size)
    (singles : ∀ entry ∈ backlog.entries, ∀ message, (Batch.single entry).message? = some message →
      message.size + Header.length < UInt32.size) :
    IsLeast {count | ∃ groups, Cut backlog.maxBody backlog.entries groups ∧ groups.length = count}
      backlog.drain.1.length := by
  have sent : backlog.drain.1.length = (Batch.gather backlog.maxBody backlog.entries).length :=
    Batch.length_filterMap_toFrame? (Batch.toFrame?_ne_none_of_gather limit singles)
  rw [sent]
  constructor
  · exact ⟨_, Batch.cut_gather _ _, List.length_map _⟩
  · rintro count ⟨groups, cut, rfl⟩
    exact Batch.length_gather_le cut

/-- A creation behind a deletion and a body over the limit make four frames necessary. -/
theorem isLeast_length_drain_mixed :
    ∃ backlog : Backlog, backlog.maxBody = 24 ∧ backlog.size = 6 ∧
      IsLeast {count | ∃ groups, Cut backlog.maxBody backlog.entries groups ∧
        groups.length = count} 4 := by
  let backlog : Backlog :=
    { maxBody := 24, maxEntries := 8,
      entries := [.change (.created ⟨100, .value, "/a"⟩), .change (.deleted 101),
        .change (.created ⟨102, .rpc, "/b"⟩), .update ⟨100, [1]⟩, .update ⟨100, [2]⟩,
        .update ⟨103, [3]⟩] }
  have sent : backlog.drain.1.length = 4 := by decide
  refine ⟨backlog, rfl, rfl, ?_⟩
  rw [← sent]
  apply isLeast_length_drain
  · decide
  · intro entry waits message carried
    simp only [backlog, List.mem_cons, List.not_mem_nil, or_false] at waits
    rcases waits with rfl | rfl | rfl | rfl | rfl | rfl
    all_goals cases carried
    all_goals decide

end Backlog

end SharedTree
