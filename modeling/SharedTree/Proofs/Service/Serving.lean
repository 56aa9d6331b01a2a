import SharedTree.Proofs.Places
import SharedTree.Proofs.Service.Echoes
import SharedTree.Proofs.Service.Hosting
import SharedTree.Wire.Assembler

/-!
# Serving one session

`Service.serveAll` says what a session is sent for the messages of its client while nobody else does
anything: for each message the notices that the message itself sets off, and then the answer to it.
A message that was given up is sent nothing for.
-/

namespace SharedTree

namespace Service

/-- Handles a frame of a session and takes out what the session is sent for it. -/
def serve (service : Service) (id : SessionId) (frame : Frame) : List Frame × Service :=
  let (handled, answer) := service.handle .stored id frame
  let (notices, drained) := handled.drain id
  (notices ++ answer.toList, drained)

/-- What a session is sent for a list of messages, and what the service becomes. -/
def serveAll (service : Service) (id : SessionId) : List AssemblerEvent → List Frame × Service
  | [] => ([], service)
  | .gaveUp _ :: rest => service.serveAll id rest
  | .completed frame :: rest =>
    let (sent, served) := service.serve id frame
    let (more, last) := served.serveAll id rest
    (sent ++ more, last)

variable {service : Service} {id : SessionId} {session : Session} {order : VisitOrder}
  {sender : SessionId} {frame : Frame}

theorem serveAll_append (service : Service) (id : SessionId) (earlier later : List AssemblerEvent) :
    service.serveAll id (earlier ++ later) =
      ((service.serveAll id earlier).1 ++ ((service.serveAll id earlier).2.serveAll id later).1,
        ((service.serveAll id earlier).2.serveAll id later).2) := by
  induction earlier generalizing service with
  | nil => rfl
  | cons event rest ih =>
      cases event with
      | gaveUp error => exact ih service
      | completed frame =>
          simp only [List.cons_append, serveAll, ih (service.serve id frame).2, List.append_assoc]

theorem serveAll_gaveUp (service : Service) (id : SessionId) (earlier : List AssemblerEvent)
    (error : FramingError) :
    service.serveAll id (earlier ++ [.gaveUp error]) = service.serveAll id earlier := by
  rw [serveAll_append]
  simp [serveAll]

theorem serveAll_completed (service : Service) (id : SessionId) (earlier : List AssemblerEvent)
    (frame : Frame) :
    service.serveAll id (earlier ++ [.completed frame]) =
      ((service.serveAll id earlier).1 ++ ((service.serveAll id earlier).2.serve id frame).1,
        ((service.serveAll id earlier).2.serve id frame).2) := by
  rw [serveAll_append]
  simp [serveAll]

/-! ## One frame -/

open Occurrence (addressed)

/-- A frame addresses at most one entry to a session. -/
theorem length_addressed_le (service : Service) (order : VisitOrder) (id sender : SessionId)
    (frame : Frame) : (addressed id ⟨service, .frame order sender frame⟩).length ≤ 1 := by
  have short {α : Type} (found : Option α) : found.toList.length ≤ 1 := by cases found <;> simp
  have announced : (Occurrence.announced id ⟨service, .frame order sender frame⟩).length ≤ 1 := by
    unfold Occurrence.announced
    split
    · exact short _
    · exact Nat.zero_le 1
  have updated : (Occurrence.updated id ⟨service, .frame order sender frame⟩).length ≤ 1 := by
    unfold Occurrence.updated
    split
    · split <;> simp
    · exact Nat.zero_le 1
  have called : (Occurrence.called id ⟨service, .frame order sender frame⟩).length ≤ 1 := by
    unfold Occurrence.called
    split
    · split <;> simp
    · exact Nat.zero_le 1
  have returned : (Occurrence.returned id ⟨service, .frame order sender frame⟩).length ≤ 1 := by
    unfold Occurrence.returned
    split
    · exact Nat.zero_le 1
    · dsimp only
      split
      · split
        · exact short _
        · exact Nat.zero_le 1
      · exact Nat.zero_le 1
  cases asked : frame.message with
  | error error =>
      rw [addressed_of_unheard fun _ _ _ isMessage => by rw [asked] at isMessage; cases isMessage]
      exact Nat.zero_le 1
  | ok message =>
      cases message with
      | createRequest kind data path =>
          simpa [addressed, updated_eq_nil asked, called_eq_nil asked, returned_eq_nil asked]
            using announced
      | deleteRequest path =>
          simpa [addressed, updated_eq_nil asked, called_eq_nil asked, returned_eq_nil asked]
            using announced
      | setValueIndication update =>
          simpa [addressed, announced_eq_nil asked, called_eq_nil asked, returned_eq_nil asked]
            using updated
      | rpcRequest uuid parameter =>
          simpa [addressed, announced_eq_nil asked, updated_eq_nil asked, returned_eq_nil asked]
            using called
      | handleRpcResponse caller transaction returnValue =>
          simpa [addressed, announced_eq_nil asked, updated_eq_nil asked, called_eq_nil asked]
            using returned
      | _ =>
          simp [addressed, announced_eq_nil asked, updated_eq_nil asked, called_eq_nil asked,
            returned_eq_nil asked]

theorem serve_offline (service : Service) (id : SessionId) (frame : Frame) :
    service.offline.serve id frame =
      (((service.handle .stored id frame).1.drain id).1 ++
          (service.handle .stored id frame).2.toList,
        ((service.handle .stored id frame).1.drain id).2.offline) := by
  simp only [serve, offline_handle, offline_drain]

/-- An idle session with room for an entry goes on when it handles a frame. -/
theorem Coherent.heard_handle (coherent : service.Coherent) {bound : Nat}
    (attended : Attended bound service.tree) (found : service.session? id = some session)
    (going : session.stopped = false) (idle : session.backlog.entries = [])
    (room : 1 ≤ session.backlog.maxEntries) (order : VisitOrder) (frame : Frame) :
    ∃ heard, (service.handle order id frame).1.session? id = some heard ∧
      heard.stopped = false ∧
      session.Fed (addressed id ⟨service, .frame order id frame⟩) heard ∧
      heard.backlog.maxEntries = session.backlog.maxEntries := by
  rcases (coherent.fed_next found nofun nofun nofun :
    ∃ heard, (service.next (.frame order id frame)).session? id = some heard ∧
      session.Fed _ heard) with ⟨heard, heardFound, fed⟩
  rcases coherent.receives_frame attended found with ⟨same, sameFound, received⟩
  rw [heardFound] at sameFound
  cases sameFound
  have pushed := Session.pushAll_of_going (addressed id ⟨service, .frame order id frame⟩) going
  have free : session.room = session.backlog.maxEntries := by
    rw [Session.room, Backlog.size, idle]
    rfl
  have stays : heard.stopped = false := by
    rw [received.stopped, ← Bool.not_eq_true, pushed.2, free]
    exact Nat.not_lt.mpr ((length_addressed_le service order id id frame).trans room)
  rw [coherent.queued_of_going attended found going heardFound stays] at fed
  exact ⟨heard, heardFound, stays, fed, by rw [received.backlog, pushed.1]⟩

/-! ## Announcements -/

/-- What the request of a session does to the tree is announced to it right before the answer. Of a
creation a frame must be able to hold the announcement. -/
structure Announces (service : Service) (id : SessionId) (frame : Frame) : Prop where
  created : ∀ kind data path reply uuid, frame.message = .ok (.createRequest kind data path) →
    (service.handle .stored id frame).2 = some reply →
      reply.message = .ok (.createResponse .ok uuid) →
        (Message.metaUpdateNotification [⟨uuid, kind, path⟩] []).size + Header.length <
          UInt32.size →
          ∃ notice, notice.message = .ok (.metaUpdateNotification [⟨uuid, kind, path⟩] []) ∧
            (service.serve id frame).1 = [notice, reply]
  deleted : ∀ path reply, frame.message = .ok (.deleteRequest path) →
    (service.handle .stored id frame).2 = some reply → reply.message = .ok (.deleteResponse .ok) →
      ∃ uuid notice, service.deletion? path = some uuid ∧
        notice.message = .ok (.metaUpdateNotification [] [uuid]) ∧
        (service.serve id frame).1 = [notice, reply]

/-- So it is for every frame among messages that are served one after the other. -/
def AnnouncesAll (service : Service) (id : SessionId) (handled : List AssemblerEvent) : Prop :=
  ∀ earlier frame later, handled = earlier ++ .completed frame :: later →
    (service.serveAll id earlier).2.Announces id frame

theorem AnnouncesAll.concat {handled : List AssemblerEvent} {event : AssemblerEvent}
    (all : service.AnnouncesAll id handled)
    (last : ∀ frame, event = .completed frame →
      (service.serveAll id handled).2.Announces id frame) :
    service.AnnouncesAll id (handled ++ [event]) := by
  intro earlier frame later split
  rcases concat_eq_split split with ⟨_, rfl, isFrame⟩ | ⟨rest, _, split⟩
  · exact last frame isFrame
  · exact all earlier frame rest split

theorem Coherent.announces (coherent : service.Coherent) {bound : Nat}
    (attended : Attended bound service.tree) (found : service.session? id = some session)
    (listed : session.listed = true) (going : session.stopped = false)
    (idle : session.backlog.entries = []) (room : 1 ≤ session.backlog.maxEntries)
    (frame : Frame) : service.Announces id frame := by
  rcases coherent.heard_handle attended found going idle room .stored frame with
    ⟨heard, heardFound, heardGoing, fed, _⟩
  have queued : Occurrence.queued id ⟨service, .frame .stored id frame⟩ =
      addressed id ⟨service, .frame .stored id frame⟩ :=
    coherent.queued_of_going attended found going heardFound heardGoing
  have echoes : service.Echoes .stored id frame
      (addressed id ⟨service, .frame .stored id frame⟩) :=
    queued ▸ coherent.echoes attended found listed going heardFound heardGoing
  -- The entry of a change is all that waits for the session then.
  have sent {change : TreeChange} (message : Message) {reply : Frame}
      (mem : .change change ∈ addressed id ⟨service, .frame .stored id frame⟩)
      (answered : (service.handle .stored id frame).2 = some reply)
      (made : (Batch.single (.change change)).toFrame? =
        (Frame.ofMessage message unsolicited).toOption)
      (fits : message.size + Header.length < UInt32.size) :
      ∃ notice, notice.message = .ok message ∧ (service.serve id frame).1 = [notice, reply] := by
    have only : heard.backlog.entries = [.change change] := by
      rw [fed.appended, idle, List.nil_append]
      have short := length_addressed_le service .stored id id frame
      generalize addressed id ⟨service, .frame .stored id frame⟩ = entries at mem short
      rcases entries with _ | ⟨first, _ | ⟨second, others⟩⟩
      · cases mem
      · rw [List.mem_singleton.mp mem]
      · simp at short
    rcases Frame.exists_ofMessage fits unsolicited with ⟨notice, isFrame⟩
    refine ⟨notice, Frame.message_ofMessage isFrame, ?_⟩
    simp [serve, drain, heardFound, answered, Session.drain, Backlog.frames, only, Batch.gather,
      Batch.gatherFrom, made, isFrame, Except.toOption]
  refine ⟨?_, ?_⟩
  · intro kind data path reply uuid asked answered succeeded fits
    exact sent _ (echoes.created kind data path reply uuid asked answered succeeded) answered rfl
      fits
  · intro path reply asked answered succeeded
    rcases echoes.deleted path reply asked answered succeeded with ⟨uuid, deleted, mem⟩
    have small : (Message.metaUpdateNotification [] [uuid]).size + Header.length < UInt32.size :=
      (by decide : 21 < UInt32.size)
    rcases sent _ mem answered rfl small with ⟨notice, announces, served⟩
    exact ⟨uuid, notice, deleted, announces, served⟩

end Service

end SharedTree
