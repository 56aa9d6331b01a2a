import SharedTree.Client.Directory
import SharedTree.Proofs.Backlog

/-!
# Directories fed from a backlog

A directory that takes the announcements of all frames for a backlog ends where it would
have ended had it taken the changes in the backlog one by one, in the order in which they
were put there.
-/

namespace SharedTree

namespace Directory

/-- Learns of one change. -/
def take (directory : Directory) : TreeChange → Directory
  | .created info => directory.insert info
  | .deleted uuid => directory.erase uuid

/-- Learns of changes one by one. -/
def replay (directory : Directory) (changes : List TreeChange) : Directory :=
  changes.foldl take directory

/-- Takes what a frame announces, if it announces anything. -/
def takeFrame (directory : Directory) (frame : Frame) : Directory :=
  match frame.message with
  | .ok (.metaUpdateNotification creations deletions) => directory.apply creations deletions
  | _ => directory

/-- Takes what frames announce. -/
def takeFrames (directory : Directory) (frames : List Frame) : Directory :=
  frames.foldl takeFrame directory

theorem replay_append (directory : Directory) (earlier later : List TreeChange) :
    directory.replay (earlier ++ later) = (directory.replay earlier).replay later :=
  List.foldl_append

theorem takeFrames_append (directory : Directory) (earlier later : List Frame) :
    directory.takeFrames (earlier ++ later) = (directory.takeFrames earlier).takeFrames later :=
  List.foldl_append

theorem apply_eq_replay (directory : Directory) (creations : List PropertyInfo)
    (deletions : List Uuid) :
    directory.apply creations deletions =
      directory.replay (creations.map .created ++ deletions.map .deleted) := by
  rw [replay, List.foldl_append, List.foldl_map, List.foldl_map]
  rfl

theorem filterMap_change?_changes (creations : List PropertyInfo) (deletions : List Uuid) :
    (Batch.changes creations deletions).entries.filterMap BacklogEntry.change? =
      creations.map .created ++ deletions.map .deleted := by
  simp only [Batch.entries, List.filterMap_append, List.filterMap_map]
  congr 1
  · exact congrFun (List.filterMap_eq_map (f := TreeChange.created)) creations
  · exact congrFun (List.filterMap_eq_map (f := TreeChange.deleted)) deletions

theorem filterMap_change?_updates (sent : List ValueUpdate) :
    (Batch.updates sent).entries.filterMap BacklogEntry.change? = [] := by
  rw [List.filterMap_eq_nil_iff]
  intro entry isEntry
  rcases List.mem_map.mp isEntry with ⟨update, _, rfl⟩
  rfl

theorem takeFrame_of_kind_ne {directory : Directory} {frame : Frame}
    (other : frame.header.kind ≠ .ok .metaUpdateNotification) :
    directory.takeFrame frame = directory := by
  unfold takeFrame
  split
  · next creations deletions carried => exact absurd (Frame.kind_of_message carried) other
  · rfl

theorem takeFrame_batch {directory : Directory} {batch : Batch} {frame : Frame}
    (made : batch.toFrame? = some frame)
    (other : ∀ whole, batch = .whole whole → whole.header.kind ≠ .ok .metaUpdateNotification) :
    directory.takeFrame frame =
      directory.replay (batch.entries.filterMap BacklogEntry.change?) := by
  cases batch with
  | changes creations deletions =>
      have carried := Frame.message_ofMessage (Frame.ofMessage_of_toOption made)
      rw [filterMap_change?_changes, ← apply_eq_replay, takeFrame, carried]
  | updates sent =>
      have kindEq := Frame.kind_ofMessage (Frame.ofMessage_of_toOption made)
      rw [filterMap_change?_updates, takeFrame_of_kind_ne (by simp [kindEq, Message.kind])]
      rfl
  | whole whole =>
      cases made
      rw [takeFrame_of_kind_ne (other _ rfl)]
      rfl

theorem takeFrames_batches {batches : List Batch} {directory : Directory}
    (fits : ∀ batch ∈ batches, batch.toFrame? ≠ none)
    (other : ∀ whole, Batch.whole whole ∈ batches →
      whole.header.kind ≠ .ok .metaUpdateNotification) :
    directory.takeFrames (batches.filterMap Batch.toFrame?) =
      directory.replay ((batches.flatMap Batch.entries).filterMap BacklogEntry.change?) := by
  induction batches generalizing directory with
  | nil => rfl
  | cons batch batches ih =>
      rcases Option.ne_none_iff_exists'.mp (fits batch (by simp)) with ⟨frame, made⟩
      have first : directory.takeFrame frame = _ := takeFrame_batch made
        (fun whole isWhole => other whole (by simp [isWhole]))
      rw [List.filterMap_cons_some made, List.flatMap_cons, List.filterMap_append, replay_append,
        ← first]
      exact ih (fun batch mem => fits batch (List.mem_cons_of_mem _ mem))
        (fun whole mem => other whole (List.mem_cons_of_mem _ mem))

/-- The frames for a backlog teach a directory what the changes in the backlog do one by one. -/
theorem takeFrames_backlog {backlog : Backlog} {directory : Directory}
    (fits : ∀ batch ∈ Batch.gather backlog.maxBody backlog.entries, batch.toFrame? ≠ none)
    (other : ∀ frame, .frame frame ∈ backlog.entries →
      frame.header.kind ≠ .ok .metaUpdateNotification) :
    directory.takeFrames backlog.frames =
      directory.replay (backlog.entries.filterMap BacklogEntry.change?) := by
  rw [Backlog.frames, takeFrames_batches fits, Batch.flatMap_entries_gather]
  intro whole isBatch
  exact other whole (Batch.mem_of_whole isBatch)

end Directory

end SharedTree
