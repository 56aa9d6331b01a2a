import SharedTree.Proofs.Service.Engaged
import SharedTree.Proofs.Wire.Assembler
import SharedTree.Server.Basic

/-!
# Attending to one connection

A server that attends to one connection reads what has come, handles what it has read and answers,
until an answer is blocked. `Server.Attends` says how far it has come with the stream of the
connection. It loses nothing and handles nothing twice, wherever it was blocked.
-/

namespace SharedTree

namespace Server

theorem send_eq (server : Server) (id : SessionId) (sender : Sender) (answer : Option Frame) :
    server.send id sender answer = server.modifySession id
      (·.step (.called .giveUp ⟨sender, answer, server.now + server.config.writeTimeout⟩)) := by
  refine congrArg (server.modifySession id) (funext fun session => ?_)
  dsimp only [Session.step]
  rcases session.beginSend .giveUp ⟨sender, answer, server.now + server.config.writeTimeout⟩ with
    ⟨_ | _ | _, next⟩ <;> rfl

open Service (Engaged)

section Handling

variable {server : Server} {index : Nat} {id : SessionId} {opened : Service}
  {handled : List AssemblerEvent} {received : Bytes} {session : Session} {connection : Connection}

/-- Messages are handled until an answer is blocked; the rest is kept. -/
theorem handleEvents_engaged (events : List AssemblerEvent)
    (engaged : Engaged opened id handled received server.service session)
    (smooth : session.Smooth) (isThere : server.connections[index]? = some connection)
    (idle : connection.unhandled = []) :
    ∃ done left later, events = done ++ left ∧
      Engaged opened id (handled ++ done) received
        (server.handleEvents index id events).service later ∧
      (server.handleEvents index id events).connections[index]? =
        some { connection with unhandled := left } ∧
      later.Smooth ∧ (later.channel.current = none → left = []) := by
  induction events generalizing server handled session with
  | nil =>
      have same : { connection with unhandled := [] } = connection := by rw [← idle]
      refine ⟨[], [], session, rfl, ?_, ?_, smooth, fun _ => rfl⟩
      · rw [List.append_nil]
        exact engaged
      · rw [same]
        exact isThere
  | cons event rest ih =>
      simp only [handleEvents, engaged.found, engaged.flows.going,
        engaged.flows.isSending_answering, Bool.false_eq_true, if_false]
      cases current : session.channel.current with
      | some holder =>
          -- An answer is blocked, and nothing is handled before it is out.
          refine ⟨[], event :: rest, session, rfl, ?_, ?_, smooth, ?_⟩
          · rw [List.append_nil]
            exact engaged
          · simp [modifyConnection, isThere]
          · rw [current]
            nofun
      | none =>
          simp only [Option.isSome_none, Bool.false_eq_true, if_false]
          cases event with
          | gaveUp error =>
              have noted : Engaged opened id (handled ++ [.gaveUp error]) received
                  (server.modifySession id fun session =>
                    { session with framingErrors := session.framingErrors + 1 }).service _ :=
                engaged.gaveUp error
              rcases ih noted smooth isThere with
                ⟨done, left, later, rfl, laterEngaged, laterThere, rests⟩
              refine ⟨.gaveUp error :: done, left, later, rfl, ?_, laterThere, rests⟩
              rw [List.append_cons]
              exact laterEngaged
          | completed frame =>
              have answers : ∃ answered, Engaged opened id
                  (handled ++ [.completed frame]) received
                  (({ server with service := (server.service.handle .stored id frame).1 } :
                    Server).send id .answering (server.service.handle .stored id frame).2).service
                  answered ∧ answered.Smooth := by
                rw [send_eq]
                exact engaged.completed current frame rfl rfl
              rcases answers with ⟨answered, answers, answeredSmooth⟩
              rcases ih answers answeredSmooth isThere with
                ⟨done, left, later, rfl, laterEngaged, laterThere, rests⟩
              refine ⟨.completed frame :: done, left, later, rfl, ?_, laterThere, rests⟩
              rw [List.append_cons]
              exact laterEngaged

end Handling

/-- The number of the next connection. -/
def nextIndex (server : Server) : Nat := server.connections.length

/-- The service when a peer connects, without channels. -/
def opened (server : Server) : Service :=
  (server.service.offline.openSession server.config.maxBacklog .sink).2

/-- The read, if any, that leaves nothing of what has come. -/
def reading (unread left : Bytes) : List Read :=
  if unread ≠ [] ∧ left = [] then [.delivered unread] else []

theorem reading_self (unread : Bytes) : reading unread unread = [] :=
  if_neg fun both => both.1 both.2

/-- The peer that connected last to a server has sent some bytes and received others, and what the
server has handled is what its reads are worth, up to some messages that wait. -/
structure Attends (start : Server) (reads : List Read) (sent received : Bytes)
    (handled : List AssemblerEvent) (server : Server) (connection : Connection)
    (session : Session) : Prop where
  isThere : server.connections[start.nextIndex]? = some connection
  owns : connection.session = start.service.nextSession
  lives : connection.remains = none
  follows : Assembler.Follows start.config.limits reads connection.assembler
  arrived : Read.stream reads ++ connection.inbound = sent
  engaged : Engaged start.opened start.service.nextSession handled received
    server.service session
  parsed : (Stream.parse start.config.limits.maxBody (Read.stream reads)).1 =
    handled ++ connection.unhandled

/-- The server has done what it can for a connection: an answer is blocked because the peer does not
read, or nothing waits to be read or handled. -/
structure Rests (connection : Connection) (session : Session) : Prop where
  smooth : session.Smooth
  finished : session.channel.current = none →
    connection.unhandled = [] ∧ connection.inbound = []

namespace Attends

variable {start server : Server} {reads : List Read} {sent received : Bytes}
  {handled : List AssemblerEvent} {connection : Connection} {session : Session}
  (attends : Attends start reads sent received handled server connection session)

include attends

theorem sessionAt? : server.sessionAt? start.nextIndex = some session := by
  rw [Server.sessionAt?, attends.isThere, Option.bind_some, session?, attends.lives, attends.owns]
  exact attends.engaged.found

/-- The messages that wait are handled until an answer is blocked. -/
theorem handle {before : Server} (smooth : session.Smooth)
    (cleared : before.connections[start.nextIndex]? = some { connection with unhandled := [] })
    (same : before.service = server.service) :
    ∃ handled left later,
      Attends start reads sent received handled
        (before.handleEvents start.nextIndex start.service.nextSession connection.unhandled)
        { connection with unhandled := left } later ∧
      later.Smooth ∧ (later.channel.current = none → left = []) := by
  rcases attends with ⟨_, owns, lives, follows, arrived, engaged, parsed⟩
  rw [← same] at engaged
  rcases handleEvents_engaged connection.unhandled engaged smooth cleared (by rfl) with
    ⟨done, left, later, split, laterEngaged, isThere, rests⟩
  rw [split, ← List.append_assoc] at parsed
  exact ⟨handled ++ done, left, later,
    ⟨isThere, owns, lives, follows, arrived, laterEngaged, parsed⟩, rests⟩

/-- What has come is read at once, and waits to be handled. -/
theorem read (idle : connection.unhandled = []) (delivers : connection.inbound ≠ []) :
    Attends start (reads ++ [.delivered connection.inbound]) sent received handled
      (server.modifyConnection start.nextIndex fun connection =>
        { connection with
          assembler := (connection.assembler.accept connection.inbound).1
          inbound := []
          unhandled := (connection.assembler.accept connection.inbound).2 })
      { connection with
        assembler := (connection.assembler.accept connection.inbound).1
        inbound := []
        unhandled := (connection.assembler.accept connection.inbound).2 } session := by
  rcases attends with ⟨isThere, owns, lives, follows, arrived, engaged, parsed⟩
  have isSome : ¬(Read.delivered connection.inbound).Idle := delivers
  rcases follows.read_some isSome with ⟨nextFollows, found⟩
  refine ⟨?_, owns, lives, nextFollows, ?_, engaged, ?_⟩
  · simp [modifyConnection, isThere]
  · rw [List.append_nil, ← arrived]
    simp [Read.stream, Read.content]
  · rw [found, parsed, idle, List.append_nil]
    rfl

theorem receive (smooth : session.Smooth) :
    ∃ handled later laterSession,
      Attends start (reads ++ reading connection.inbound later.inbound) sent received
        handled (server.receive start.nextIndex) later laterSession ∧ Rests later laterSession := by
  have cleared : (server.modifyConnection start.nextIndex fun connection =>
      { connection with unhandled := [] }).connections[start.nextIndex]? =
        some { connection with unhandled := [] } := by
    simp [modifyConnection, attends.isThere]
  -- What was read before is handled first, and only if that is done is more read.
  rcases attends.handle smooth cleared rfl with ⟨handledNow, left, next, waits, nextSmooth, free⟩
  unfold Server.receive
  rw [attends.isThere]
  dsimp only
  rw [attends.owns, waits.isThere, waits.sessionAt?]
  dsimp only
  rw [waits.engaged.flows.isSending_answering]
  cases current : next.channel.current with
  | some holder =>
      refine ⟨handledNow, { connection with unhandled := left }, next, ?_, nextSmooth, ?_⟩
      · rw [reading_self, List.append_nil]
        exact waits
      · rw [current]
        nofun
  | none =>
      cases free current
      cases unread : connection.inbound.isEmpty with
      | true =>
          refine ⟨handledNow, { connection with unhandled := [] }, next, ?_, nextSmooth, ?_⟩
          · rw [reading_self, List.append_nil]
            exact waits
          · exact fun _ => ⟨rfl, List.isEmpty_iff.mp unread⟩
      | false =>
          have delivers : connection.inbound ≠ [] := List.isEmpty_eq_false_iff.mp unread
          have taken := waits.read rfl delivers
          simp only [Option.isSome_none, Bool.false_or, Bool.false_eq_true, if_false]
          rw [attends.owns]
          generalize Server.handleEvents _ _ _ _ = rested at taken waits ⊢
          have emptied : (rested.modifyConnection start.nextIndex fun other =>
              { other with
                assembler := (connection.assembler.accept connection.inbound).1
                inbound := [] }).connections[start.nextIndex]? =
              some { connection with
                assembler := (connection.assembler.accept connection.inbound).1
                inbound := []
                unhandled := [] } := by
            simp [modifyConnection, waits.isThere]
          rcases taken.handle nextSmooth emptied rfl with
            ⟨handledLast, leftLast, last, lastWaits, lastSmooth, lastFree⟩
          have isRead : reading connection.inbound [] = [.delivered connection.inbound] :=
            if_pos ⟨delivers, rfl⟩
          rw [← isRead] at lastWaits
          exact ⟨handledLast,
            { connection with
              assembler := (connection.assembler.accept connection.inbound).1
              inbound := []
              unhandled := leftLast },
            last, lastWaits, lastSmooth, fun idle => ⟨lastFree idle, rfl⟩⟩

end Attends

end Server

end SharedTree
