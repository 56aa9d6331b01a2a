import SharedTree.Wire.Frame

/-!
# The backlog of a session

What is to be sent to a client without its asking waits in a backlog. Draining the backlog turns the
waiting entries, in order, into frames. Neighbouring entries share a frame where that cannot be told from
sending them one by one:

* updates of values that follow each other;
* announcements that follow each other, except that a creation behind a deletion begins a new frame,
  because receivers take the creations of a frame before its deletions.

A shared frame never has a body above the limit. An entry alone is sent whatever its size. Frames that
were put into the backlog complete leave it unchanged and share nothing.
-/

namespace SharedTree

/-- A change of the tree to be announced. -/
inductive TreeChange where
  | created (info : PropertyInfo)
  | deleted (uuid : Uuid)
  deriving DecidableEq, Repr

/-- Something waiting to be sent. -/
inductive BacklogEntry where
  | change (change : TreeChange)
  | update (update : ValueUpdate)
  | frame (frame : Frame)
  deriving DecidableEq, Repr

/-- Entries that share a frame. -/
inductive Batch where
  /-- Announcements; the creations come before the deletions. -/
  | changes (creations : List PropertyInfo) (deletions : List Uuid)
  | updates (sent : List ValueUpdate)
  /-- A frame that shares nothing. -/
  | whole (frame : Frame)
  deriving DecidableEq, Repr

namespace Batch

/-- A batch of one entry. -/
def single : BacklogEntry → Batch
  | .change (.created info) => .changes [info] []
  | .change (.deleted uuid) => .changes [] [uuid]
  | .update update => .updates [update]
  | .frame frame => .whole frame

/-- The batch with one more entry at its end, if such entries can share a message at all. -/
def append? : Batch → BacklogEntry → Option Batch
  | .changes creations [], .change (.created info) => some (.changes (creations ++ [info]) [])
  | .changes creations deletions, .change (.deleted uuid) =>
    some (.changes creations (deletions ++ [uuid]))
  | .updates sent, .update update => some (.updates (sent ++ [update]))
  | _, _ => none

/-- The message of a batch, unless it is a complete frame already. -/
def message? : Batch → Option Message
  | .changes creations deletions => some (.metaUpdateNotification creations deletions)
  | .updates sent => some (.propertyUpdateNotification sent)
  | .whole _ => none

/-- Number of bytes of the body that a batch is sent with. -/
def size (batch : Batch) : Nat :=
  match batch, batch.message? with
  | _, some message => message.size
  | .whole frame, none => frame.body.length
  | _, none => 0

/-- The batch with one more entry at its end, if the two may share a frame. -/
def extend? (maxBody : Nat) (batch : Batch) (entry : BacklogEntry) : Option Batch :=
  (batch.append? entry).filter fun longer => longer.size ≤ maxBody

/-- The frame of a batch. There is none for a message that no frame can hold. -/
def toFrame? : Batch → Option Frame
  | .whole frame => some frame
  | .changes creations deletions =>
    (Frame.ofMessage (.metaUpdateNotification creations deletions) unsolicited).toOption
  | .updates sent => (Frame.ofMessage (.propertyUpdateNotification sent) unsolicited).toOption

/-- The entries of a batch, in order. -/
def entries : Batch → List BacklogEntry
  | .changes creations deletions =>
    creations.map (.change ∘ .created) ++ deletions.map (.change ∘ .deleted)
  | .updates sent => sent.map .update
  | .whole frame => [.frame frame]

/-- The batches of a batch followed by entries, each batch as long as it can be. -/
def gatherFrom (maxBody : Nat) : Batch → List BacklogEntry → List Batch
  | batch, [] => [batch]
  | batch, entry :: rest =>
    match batch.extend? maxBody entry with
    | some longer => gatherFrom maxBody longer rest
    | none => batch :: gatherFrom maxBody (single entry) rest

/-- Entries cut into batches, each as long as it can be. -/
def gather (maxBody : Nat) : List BacklogEntry → List Batch
  | [] => []
  | entry :: rest => gatherFrom maxBody (single entry) rest

end Batch

/-- A bounded queue of things to be sent. -/
structure Backlog where
  /-- The longest body of a shared frame. -/
  maxBody : Nat
  /-- How many entries may wait. -/
  maxEntries : Nat
  /-- What waits, oldest first. -/
  entries : List BacklogEntry := []
  deriving DecidableEq, Repr

namespace Backlog

/-- Number of waiting entries. -/
def size (backlog : Backlog) : Nat := backlog.entries.length

/-- Whether nothing waits. -/
def isEmpty (backlog : Backlog) : Bool := backlog.entries.isEmpty

/-- The backlog with one more entry, unless it is full. -/
def push? (backlog : Backlog) (entry : BacklogEntry) : Option Backlog :=
  if backlog.maxEntries ≤ backlog.size then none
  else some { backlog with entries := backlog.entries ++ [entry] }

/-- The frames to send for everything that waits. -/
def frames (backlog : Backlog) : List Frame :=
  (Batch.gather backlog.maxBody backlog.entries).filterMap Batch.toFrame?

/-- The backlog with nothing waiting. -/
def clear (backlog : Backlog) : Backlog := { backlog with entries := [] }

/-- Takes everything that waits, as frames. -/
def drain (backlog : Backlog) : List Frame × Backlog := (backlog.frames, backlog.clear)

end Backlog

end SharedTree
