import Mathlib.Data.List.Forall2
import SharedTree.Client.Basic
import SharedTree.Proofs.Client.Directory
import SharedTree.Proofs.Wire.Assembler
import SharedTree.Proofs.Wire.Frame

/-!
# What is queued is what is heard

Notices wait in a backlog, leave it as frames, cross a connection as bytes and reach a client
as events. Neighbouring notices share frames, and the reads of the client cut the bytes
anywhere, yet the events of the client, taken apart, are the notices in the order in which
they were queued.

Each stage has its own lemma: the frames of a backlog tell a client of the entries of the
backlog (`Tells.frames`), a stream of frames is parsed into those frames
(`Stream.parse_flatMap_encode`), and reads of a stream come to dispatching what is parsed
from it (`Client.hear_eq_dispatchAll`). The main result, `Client.hear_history`, puts them
together for every way of filling and draining a backlog.
-/

namespace SharedTree

/-- What a client is told without having asked, piece by piece. -/
inductive Notice where
  | created (info : PropertyInfo)
  | deleted (uuid : Uuid)
  | updated (update : ValueUpdate)
  | called (caller : SessionId) (callerTransaction : TransactionId) (uuid : Uuid)
      (parameter : Bytes)
  deriving DecidableEq, Repr

namespace Notice

/-- The message that tells of nothing else. -/
def message : Notice → Message
  | .created info => .metaUpdateNotification [info] []
  | .deleted uuid => .metaUpdateNotification [] [uuid]
  | .updated update => .propertyUpdateNotification [update]
  | .called caller callerTransaction uuid parameter =>
    .handleRpcRequest caller callerTransaction uuid parameter

/-- How a notice waits in a backlog. Only calls wait as complete frames. -/
inductive QueuedAs : Notice → BacklogEntry → Prop
  | created (info : PropertyInfo) : QueuedAs (.created info) (.change (.created info))
  | deleted (uuid : Uuid) : QueuedAs (.deleted uuid) (.change (.deleted uuid))
  | updated (update : ValueUpdate) : QueuedAs (.updated update) (.update update)
  | called {caller : SessionId} {callerTransaction : TransactionId} {uuid : Uuid}
      {parameter : Bytes} {frame : Frame}
      (made : Frame.ofMessage (.handleRpcRequest caller callerTransaction uuid parameter)
        unsolicited = .ok frame) :
      QueuedAs (.called caller callerTransaction uuid parameter) (.frame frame)

theorem queuedAs_map {α : Type} {notice : α → Notice} {entry : α → BacklogEntry}
    (each : ∀ item, (notice item).QueuedAs (entry item)) (items : List α) :
    List.Forall₂ QueuedAs (items.map notice) (items.map entry) := by
  rw [List.forall₂_map_left_iff, List.forall₂_map_right_iff, List.forall₂_same]
  exact fun item _ => each item

end Notice

/-- The notices in an event, in order. -/
def ClientEvent.notices : ClientEvent → List Notice
  | .changes creations deletions => creations.map .created ++ deletions.map .deleted
  | .update sent => [.updated sent]
  | .call caller callerTransaction uuid parameter =>
    [.called caller callerTransaction uuid parameter]
  | .disconnected => []

/-! ## The backlog -/

/-- What is done to a backlog. -/
inductive BacklogUse where
  | push (entry : BacklogEntry)
  | drain
  deriving DecidableEq, Repr

/-- A backlog with what has gone in and come out. -/
structure BacklogHistory where
  backlog : Backlog
  /-- The entries that found room, oldest first. -/
  accepted : List BacklogEntry := []
  /-- The frames that left, oldest first. -/
  frames : List Frame := []
  deriving DecidableEq, Repr

namespace BacklogHistory

def next (history : BacklogHistory) : BacklogUse → BacklogHistory
  | .push entry =>
    match history.backlog.push? entry with
    | some backlog => { history with backlog, accepted := history.accepted ++ [entry] }
    | none => history
  | .drain =>
    let (frames, backlog) := history.backlog.drain
    { history with backlog, frames := history.frames ++ frames }

/-- The history of a backlog that was empty and has been used. -/
def of (maxBody maxEntries : Nat) (uses : List BacklogUse) : BacklogHistory :=
  uses.foldl next { backlog := { maxBody, maxEntries } }

end BacklogHistory

/-! ## The stream -/

/-- A frame that an assembler with a limit lets through. -/
structure Frame.Passes (maxBody : Nat) (frame : Frame) : Prop where
  bodySize : frame.header.bodySize = .ok frame.body.length
  allowed : frame.body.length ≤ maxBody

theorem Frame.Passes.mono {maxBody higher : Nat} {frame : Frame} (passes : frame.Passes maxBody)
    (within : maxBody ≤ higher) : frame.Passes higher :=
  ⟨passes.bodySize, Nat.le_trans passes.allowed within⟩

namespace Stream

variable {maxBody : Nat} {frames : List Frame}

theorem next?_encode {frame : Frame} (passes : frame.Passes maxBody) (rest : Bytes) :
    next? maxBody (frame.encode ++ rest) = some (.completed frame, rest) := by
  have found := next?_of_header maxBody frame.header.length_encode (frame.body ++ rest)
  simp only [Header.ofBytes_encode_self, passes.bodySize, if_neg (Nat.not_lt.mpr passes.allowed),
    Bytes.split?_append_self, Option.map_some] at found
  simpa [Frame.encode] using found

/-- A stream of frames is read as those frames, and nothing is left. -/
theorem parse_flatMap_encode (passes : ∀ frame ∈ frames, frame.Passes maxBody) :
    parse maxBody (frames.flatMap Frame.encode) = (frames.map .completed, []) := by
  induction frames with
  | nil => exact parse_of_next?_none next?_nil
  | cons frame frames ih =>
      rw [List.forall_mem_cons] at passes
      have found := next?_encode passes.1 (frames.flatMap Frame.encode)
      rw [List.flatMap_cons, parse_of_next?_some found, ih passes.2]
      rfl

end Stream

/-! ## The client -/

namespace Client

variable {client : Client}

/-- One read of the connection reaches a client. -/
def hearRead (client : Client) (read : Read) : Client :=
  let (assembler, events) := client.assembler.read read
  { client with assembler }.dispatchAll events

/-- The reads of a connection reach a client. -/
def hear (client : Client) (reads : List Read) : Client :=
  reads.foldl hearRead client

theorem dispatch_congr_assembler (client : Client) (assembler : Assembler) (frame : Frame) :
    ({ client with assembler } : Client).dispatch frame =
      { client.dispatch frame with assembler } := by
  unfold dispatch
  split
  · rfl
  · next message carried =>
    split
    · cases message <;> rfl
    · dsimp only
      split <;> rfl

theorem dispatchAll_congr_assembler (client : Client) (assembler : Assembler)
    (events : List AssemblerEvent) :
    ({ client with assembler } : Client).dispatchAll events =
      { client.dispatchAll events with assembler } := by
  induction events generalizing client with
  | nil => rfl
  | cons event events ih =>
      cases event with
      | completed frame =>
          have first := dispatch_congr_assembler client assembler frame
          simp only [dispatchAll, List.foldl_cons, first]
          exact ih (client.dispatch frame)
      | gaveUp error => exact ih client

theorem dispatchAll_append (client : Client) (earlier later : List AssemblerEvent) :
    client.dispatchAll (earlier ++ later) = (client.dispatchAll earlier).dispatchAll later :=
  List.foldl_append

/-- What a client makes of its reads is what it makes of all that its assembler reports. -/
theorem hear_eq_dispatchAll (client : Client) (reads : List Read) :
    client.hear reads =
      { client.dispatchAll (client.assembler.readAll reads).2 with
        assembler := (client.assembler.readAll reads).1 } := by
  induction reads generalizing client with
  | nil => rfl
  | cons read reads ih =>
      have first : client.hearRead read =
          { client.dispatchAll (client.assembler.read read).2 with
            assembler := (client.assembler.read read).1 } :=
        dispatchAll_congr_assembler client _ _
      have whole : client.hear (read :: reads) = (client.hearRead read).hear reads := rfl
      rw [whole, ih, first, dispatchAll_congr_assembler, ← dispatchAll_append]
      rfl

/-- Receiving bytes is hearing them, at the time, and letting the requests take up answers. -/
theorem receive_eq_hear (isRead : client.reading = true) {bytes : Bytes} (some : bytes ≠ []) :
    client.receive bytes =
      (({ client with readSince := client.now } : Client).hear [.delivered bytes]).settle := by
  simp [receive, isRead, some, hear, hearRead, Assembler.read]

theorem hear_idleReads (client : Client) (count : Nat) :
    client.hear (List.replicate count .nothing) =
      { client with assembler := idleReads count client.assembler } := by
  induction count generalizing client with
  | zero => rfl
  | succ count ih =>
      have first : client.hearRead .nothing =
          { client with assembler := client.assembler.idle.1 } := by
        simp only [hearRead, Assembler.read]
        cases client.assembler.idle.2 <;> rfl
      have whole : client.hear (List.replicate (count + 1) .nothing) =
          (client.hearRead .nothing).hear (List.replicate count .nothing) := rfl
      rw [whole, first, ih]
      rfl

/-- Letting time pass is hearing as many reads without bytes as end in it. -/
theorem pass_eq_hear (isRead : client.reading = true) (milliseconds : Nat) :
    ∃ count, client.pass milliseconds =
      (({ client with
          now := client.now + milliseconds
          readSince := client.readSince + count * client.config.readTimeout } : Client).hear
        (List.replicate count .nothing)).settle := by
  refine ⟨(client.now + milliseconds - client.readSince) / client.config.readTimeout, ?_⟩
  rw [hear_idleReads]
  simp [pass, isRead]

end Client

/-! ## From end to end -/

/-- An entry of which a message within the limit can tell. -/
def BacklogEntry.Sendable (maxBody : Nat) (entry : BacklogEntry) : Prop :=
  ∃ notice : Notice, notice.QueuedAs entry ∧ notice.message.size ≤ maxBody

variable {maxBody : Nat}

theorem Batch.fits_single {entry : BacklogEntry} (sendable : entry.Sendable maxBody) :
    (single entry).Fits maxBody := by
  rcases sendable with ⟨notice, queued, small⟩
  intro message sent
  cases queued with
  | created info => cases sent; exact small
  | deleted uuid => cases sent; exact small
  | updated update => cases sent; exact small
  | called made => cases sent

/-- Frames of bodies within a limit tell a client of entries, as the events that it hears. -/
structure Tells (maxBody : Nat) (frames : List Frame) (heard : List ClientEvent)
    (entries : List BacklogEntry) : Prop where
  passes : ∀ frame ∈ frames, frame.Passes maxBody
  dispatched : ∀ client : Client, client.dispatchAll (frames.map .completed) =
    { client with
      directory := client.directory.replay (entries.filterMap BacklogEntry.change?)
      events := client.events ++ heard }
  notices : List.Forall₂ Notice.QueuedAs (heard.flatMap ClientEvent.notices) entries

namespace Tells

variable {frames later : List Frame} {frame : Frame} {heard heardLater : List ClientEvent}
  {entries laterEntries : List BacklogEntry}

theorem nothing (maxBody : Nat) : Tells maxBody [] [] [] where
  passes := by simp
  dispatched client := by simp [Client.dispatchAll, Directory.replay]
  notices := .nil

theorem append (tells : Tells maxBody frames heard entries)
    (goesOn : Tells maxBody later heardLater laterEntries) :
    Tells maxBody (frames ++ later) (heard ++ heardLater) (entries ++ laterEntries) where
  passes := List.forall_mem_append.mpr ⟨tells.passes, goesOn.passes⟩
  dispatched client := by
    rw [List.map_append, Client.dispatchAll_append, tells.dispatched, goesOn.dispatched,
      List.filterMap_append, Directory.replay_append, List.append_assoc]
  notices := by
    rw [List.flatMap_append]
    exact List.rel_append tells.notices goesOn.notices

/-- An unsolicited message that is noted as the entries and the events say. -/
theorem ofMessage {message : Message} (made : Frame.ofMessage message unsolicited = .ok frame)
    (small : message.size ≤ maxBody)
    (noted : ∀ client : Client, client.noteUnsolicited message =
      { client with
        directory := client.directory.replay (entries.filterMap BacklogEntry.change?)
        events := client.events ++ heard })
    (notices : List.Forall₂ Notice.QueuedAs (heard.flatMap ClientEvent.notices) entries) :
    Tells maxBody [frame] heard entries where
  passes := by
    intro one mem
    obtain rfl := List.mem_singleton.mp mem
    refine ⟨Frame.bodySize_ofMessage made, ?_⟩
    rwa [Frame.length_body_ofMessage made]
  dispatched client := by
    have carried := Frame.message_ofMessage made
    have transaction := Frame.transaction_ofMessage made
    rw [← noted client]
    simp [Client.dispatchAll, Client.dispatch, carried, transaction]
  notices := notices

theorem batch {batch : Batch} (bounded : maxBody + Header.length < UInt32.size)
    (fits : batch.Fits maxBody) (sendable : ∀ entry ∈ batch.entries, entry.Sendable maxBody) :
    ∃ frame heard, batch.toFrame? = some frame ∧ Tells maxBody [frame] heard batch.entries := by
  have framed {message : Message} (sent : batch.message? = some message) :
      ∃ frame, Frame.ofMessage message unsolicited = .ok frame := by
    have small := fits message sent
    apply Frame.exists_ofMessage
    omega
  cases batch with
  | changes creations deletions =>
      rcases framed rfl with ⟨frame, made⟩
      have sent : (Batch.changes creations deletions).toFrame? = some frame := by
        simp [Batch.toFrame?, made, Except.toOption]
      refine ⟨frame, [.changes creations deletions], sent, ofMessage made (fits _ rfl) ?_ ?_⟩
      · intro client
        rw [Directory.filterMap_change?_changes, ← Directory.apply_eq_replay]
        rfl
      · rw [List.flatMap_singleton]
        exact List.rel_append (Notice.queuedAs_map .created creations)
          (Notice.queuedAs_map .deleted deletions)
  | updates sent =>
      rcases framed rfl with ⟨frame, made⟩
      have whole : (Batch.updates sent).toFrame? = some frame := by
        simp [Batch.toFrame?, made, Except.toOption]
      have apart : (sent.map ClientEvent.update).flatMap ClientEvent.notices =
          sent.map .updated := by
        rw [List.flatMap_map, List.map_eq_flatMap]
        rfl
      refine ⟨frame, sent.map .update, whole, ofMessage made (fits _ rfl) ?_ ?_⟩
      · intro client
        rw [Directory.filterMap_change?_updates]
        rfl
      · rw [apart]
        exact Notice.queuedAs_map .updated sent
  | whole frame =>
      rcases sendable (.frame frame) (by simp [Batch.entries]) with ⟨notice, queued, small⟩
      cases queued with
      | @called caller callerTransaction uuid parameter frame made =>
          refine ⟨frame, [.call caller callerTransaction uuid parameter], rfl,
            ofMessage made small (fun client => rfl) ?_⟩
          exact .cons (.called made) .nil

theorem batches {batches : List Batch} (bounded : maxBody + Header.length < UInt32.size)
    (fits : ∀ batch ∈ batches, batch.Fits maxBody)
    (sendable : ∀ entry ∈ batches.flatMap Batch.entries, entry.Sendable maxBody) :
    ∃ heard, Tells maxBody (batches.filterMap Batch.toFrame?) heard
      (batches.flatMap Batch.entries) := by
  induction batches with
  | nil => exact ⟨[], nothing maxBody⟩
  | cons first others ih =>
      rw [List.forall_mem_cons] at fits
      rw [List.flatMap_cons, List.forall_mem_append] at sendable
      rcases batch bounded fits.1 sendable.1 with ⟨frame, heard, made, tells⟩
      rcases ih fits.2 sendable.2 with ⟨heardLater, goesOn⟩
      refine ⟨heard ++ heardLater, ?_⟩
      rw [List.filterMap_cons_some made, List.flatMap_cons]
      exact tells.append goesOn

/-- The frames for a backlog tell a client of the entries in the backlog. -/
theorem backlog {backlog : Backlog} (bounded : backlog.maxBody + Header.length < UInt32.size)
    (sendable : ∀ entry ∈ backlog.entries, entry.Sendable backlog.maxBody) :
    ∃ heard, Tells backlog.maxBody backlog.frames heard backlog.entries := by
  have entries := Batch.flatMap_entries_gather backlog.maxBody backlog.entries
  have fits := Batch.fits_gather fun entry mem => Batch.fits_single (sendable entry mem)
  rw [← entries] at sendable
  have told := batches bounded fits sendable
  rwa [entries] at told

end Tells

namespace BacklogHistory

/-- All that has come out tells a client of all that has gone in and does not wait. -/
structure Told (maxBody : Nat) (history : BacklogHistory) : Prop where
  limit : history.backlog.maxBody = maxBody
  sendable : ∀ entry ∈ history.backlog.entries, entry.Sendable maxBody
  told : ∃ sent heard, history.accepted = sent ++ history.backlog.entries ∧
    Tells maxBody history.frames heard sent

theorem Told.next {history : BacklogHistory} (told : history.Told maxBody)
    (bounded : maxBody + Header.length < UInt32.size) {use : BacklogUse}
    (sendable : ∀ entry, use = .push entry → entry.Sendable maxBody) :
    (history.next use).Told maxBody := by
  rcases told with ⟨rfl, waiting, sent, heard, accepted, tells⟩
  cases use with
  | push entry =>
      rw [BacklogHistory.next]
      cases pushed : history.backlog.push? entry with
      | none => exact ⟨rfl, waiting, sent, heard, accepted, tells⟩
      | some longer =>
          unfold Backlog.push? at pushed
          split at pushed
          · cases pushed
          · cases pushed
            refine ⟨rfl, ?_, sent, heard, ?_, tells⟩
            · exact List.forall_mem_append.mpr
                ⟨waiting, by simpa using sendable entry rfl⟩
            · rw [accepted, List.append_assoc]
  | drain =>
      rcases Tells.backlog bounded waiting with ⟨heardLater, goesOn⟩
      refine ⟨rfl, by simp [BacklogHistory.next, Backlog.drain, Backlog.clear],
        sent ++ history.backlog.entries, heard ++ heardLater, ?_, tells.append goesOn⟩
      rw [← accepted]
      exact (List.append_nil _).symm

theorem told_of {maxEntries : Nat} {uses : List BacklogUse}
    (bounded : maxBody + Header.length < UInt32.size)
    (sendable : ∀ entry, .push entry ∈ uses → entry.Sendable maxBody) :
    (of maxBody maxEntries uses).Told maxBody := by
  have go {history : BacklogHistory} (told : history.Told maxBody) :
      (uses.foldl next history).Told maxBody := by
    induction uses generalizing history with
    | nil => exact told
    | cons use uses ih =>
        refine ih (fun entry mem => sendable entry (List.mem_cons_of_mem _ mem))
          (told.next bounded ?_)
        rintro entry rfl
        exact sendable entry List.mem_cons_self
  exact go ⟨rfl, by simp, [], [], rfl, Tells.nothing maxBody⟩

end BacklogHistory

namespace Client

/-- A backlog is filled with notices and drained at any times, and what comes out is read by a
client, cut in any way: the client hears exactly the notices that found room and do not wait, in the
order in which they were put in, and its directory is what they make of it one by one. -/
theorem hear_history {maxBody maxEntries : Nat} {uses : List BacklogUse}
    {limits : AssemblerLimits} {client : Client} {reads : List Read}
    (bounded : maxBody + Header.length < UInt32.size) (within : maxBody ≤ limits.maxBody)
    (sendable : ∀ entry, .push entry ∈ uses → entry.Sendable maxBody)
    (fresh : client.assembler = .new limits)
    (written : Read.stream reads =
      (BacklogHistory.of maxBody maxEntries uses).frames.flatMap Frame.encode)
    (tolerated : Read.Tolerated limits reads) :
    ∃ sent heard,
      (BacklogHistory.of maxBody maxEntries uses).accepted =
        sent ++ (BacklogHistory.of maxBody maxEntries uses).backlog.entries ∧
      List.Forall₂ Notice.QueuedAs (heard.flatMap ClientEvent.notices) sent ∧
      client.hear reads =
        { client with
          assembler := (client.assembler.readAll reads).1
          directory := client.directory.replay (sent.filterMap BacklogEntry.change?)
          events := client.events ++ heard } := by
  rcases (BacklogHistory.told_of bounded sendable).told with ⟨sent, heard, accepted, tells⟩
  refine ⟨sent, heard, accepted, tells.notices, ?_⟩
  have start : Stream.parse limits.maxBody (Read.stream []) = ([], []) :=
    Stream.parse_of_next?_none Stream.next?_nil
  have passes := fun frame mem => (tells.passes frame mem).mono within
  have reported := ((Assembler.Follows.new limits).readAll reads tolerated).2
  rw [start, List.nil_append, List.nil_append, written, Stream.parse_flatMap_encode passes]
    at reported
  rw [hear_eq_dispatchAll, fresh, ← reported, tells.dispatched]

theorem hear_history_refused :
    ∃ uses reads sent heard,
      (BacklogHistory.of 30 3 uses).accepted = sent ++ [.change (.deleted 100)] ∧
      .push (.change (.deleted 7)) ∈ uses ∧ .change (.deleted 7) ∉ sent ∧ sent.length = 5 ∧
      List.Forall₂ Notice.QueuedAs (heard.flatMap ClientEvent.notices) sent ∧
      ((new { limits := ⟨30, 1⟩ }).hear reads).events = heard := by
  let call : Frame := ⟨⟨59, 30, unsolicited⟩,
    [3, 0, 0, 0, 0, 0, 0, 0, 7, 0, 0, 0, 100, 0, 0, 0, 1, 0, 0, 0, 5]⟩
  let uses : List BacklogUse :=
    [.push (.change (.created ⟨100, .rpc, "/r"⟩)), .push (.change (.deleted 101)), .drain,
      .push (.update ⟨102, [1]⟩), .push (.update ⟨102, []⟩), .push (.frame call),
      .push (.change (.deleted 7)), .drain, .push (.change (.deleted 100))]
  have sendable : ∀ entry, .push entry ∈ uses → entry.Sendable 30 := by
    intro entry mem
    simp only [uses, List.mem_cons, BacklogUse.push.injEq, List.not_mem_nil, reduceCtorEq,
      false_or, or_false] at mem
    rcases mem with rfl | rfl | rfl | rfl | rfl | rfl | rfl
    · exact ⟨_, .created _, by decide⟩
    · exact ⟨_, .deleted _, by decide⟩
    · exact ⟨_, .updated _, by decide⟩
    · exact ⟨_, .updated _, by decide⟩
    · exact ⟨.called 3 7 100 [5], .called rfl, by decide⟩
    · exact ⟨_, .deleted _, by decide⟩
    · exact ⟨_, .deleted _, by decide⟩
  let reads : List Read :=
    [.nothing, .delivered [46, 32, 0, 0], .nothing,
      .delivered [0, 255, 255, 255, 255, 1, 0, 0, 0, 100, 0, 0, 0, 2, 2, 0, 0, 0, 47, 114, 1, 0, 0,
        0, 101, 0, 0, 0, 52, 30, 0, 0, 0, 255, 255, 255, 255, 2, 0, 0, 0, 102, 0, 0, 0, 1, 0, 0, 0,
        1, 102, 0, 0, 0, 0, 0], .delivered [], .delivered [0, 0, 59, 30, 0, 0, 0, 255, 255, 255],
      .delivered [255, 3, 0, 0, 0, 0, 0, 0, 0, 7, 0, 0, 0, 100, 0, 0, 0, 1, 0, 0, 0, 5]]
  have waiting : (BacklogHistory.of 30 3 uses).backlog.entries = [.change (.deleted 100)] := by
    decide
  rcases @hear_history 30 3 uses ⟨30, 1⟩ (new { limits := ⟨30, 1⟩ }) reads (by decide) (by decide)
    sendable rfl (by decide +kernel) (by decide +kernel) with
    ⟨sent, heard, accepted, notices, heardAll⟩
  have all : (BacklogHistory.of 30 3 uses).accepted =
      [.change (.created ⟨100, .rpc, "/r"⟩), .change (.deleted 101), .update ⟨102, [1]⟩,
        .update ⟨102, []⟩, .frame call] ++ [.change (.deleted 100)] := by
    decide
  rw [waiting] at accepted
  obtain rfl := List.append_cancel_right (all.symm.trans accepted)
  refine ⟨uses, reads, _, heard, accepted, by decide, by decide, rfl, notices, ?_⟩
  rw [heardAll]
  rfl

end Client

end SharedTree
