import SharedTree.Proofs.Server.Attending

/-!
# The stream of one connection

While nobody else does anything, the peer of one connection sends its stream in whatever pieces it
likes and reads the answers at its own pace, so fast that nothing misses its deadline.
`StreamRuns.output_determined` says what it receives: what `Service.serveAll` makes of the stream,
however the stream was cut.
-/

namespace SharedTree

/-- Something that happens to a server and one of its connections. -/
inductive StreamStep where
  /-- The peer sends bytes. -/
  | sent (bytes : Bytes)
  /-- A read ends without bytes. -/
  | idled
  /-- The peer reads. -/
  | took (count : Nat)
  | flushed
  | waited (time : Nat)

namespace Server

/-- A server after a step of one of its connections, of which nothing reaches the others yet. What
the peer sends is what `deliver` takes before it settles (`deliver_eq_attend`), and a read without
bytes is what each connection has in a `tick` (`tick_eq_attend`). A peer that takes some bytes lets
what was blocked go on as `unstall` does, where it takes all of them and whatever follows. -/
def attend (server : Server) (index : Nat) : StreamStep → Server
  | .sent bytes =>
    (server.modifyConnection index fun connection =>
      { connection with inbound := connection.inbound ++ bytes }).receive index
  | .idled => server.idleRead index
  | .took count =>
    let server := server.mapPipe index (·.release count)
    match server.sessionAt? index with
    | none => server
    | some session => (server.modifySession session.id Session.resume).receive index
  | .flushed => server.flush index
  | .waited time => ({ server with now := server.now + time } : Server).expire

/-- Whether a step can happen while no send misses its deadline. -/
def Allows (server : Server) : StreamStep → Prop
  | .waited time => server.nextDeadline?.all fun deadline => server.now + time < deadline
  | _ => True

instance (server : Server) (step : StreamStep) : Decidable (server.Allows step) := by
  cases step <;> unfold Allows <;> infer_instance

/-- Time that passes before the next deadline stops nobody. -/
theorem attend_waited {server : Server} {time : Nat} (allowed : server.Allows (.waited time))
    (index : Nat) :
    server.attend index (.waited time) = { server with now := server.now + time } := by
  have early (id : SessionId) (session : Session)
      (found : server.service.sessions.find? id = some session) :
      (session.unfinished.any fun send => send.deadline ≤ server.now + time) = false := by
    rw [List.any_eq_false]
    intro send unfinished
    have mem : send.deadline ∈ server.service.sessions.values.flatMap fun session =>
        session.unfinished.map (·.deadline) :=
      List.mem_flatMap.mpr ⟨session, (Table.mem_values_iff _ _).mpr ⟨id, found⟩,
        List.mem_map_of_mem unfinished⟩
    cases first : server.nextDeadline? with
    | none => simp [List.min?_eq_none_iff.mp first] at mem
    | some deadline =>
        have least := (List.min?_eq_some_iff.mp first).2 _ mem
        have isEarlier : server.now + time < deadline := by simpa [Allows, first] using allowed
        simpa using isEarlier.trans_le least
  have same : (server.service.sessions.map fun _ session =>
      if session.unfinished.any fun send => send.deadline ≤ server.now + time then session.stop
      else session) = server.service.sessions :=
    Table.map_of_same fun id session found => by rw [early id session found]; rfl
  rw [attend, expire, same]

/-- To deliver bytes to a live connection is to let its peer send them and to settle. -/
theorem deliver_eq_attend {server : Server} {index : Nat} {connection : Connection}
    (isThere : server.connections[index]? = some connection) (isOpen : connection.peerOpen = true)
    (lives : (server.sessionAt? index).isSome = true) {bytes : Bytes} (sends : bytes ≠ []) :
    server.deliver index bytes = (some true, (server.attend index (.sent bytes)).settle) := by
  have some : bytes.isEmpty = false := by simpa using sends
  have alive : (server.sessionAt? index).isNone = false := by simpa using lives
  simp [deliver, attend, isThere, isOpen, some, alive]

/-- A tick in which no send misses its deadline lets the time of one read pass, ends a read of every
connection without bytes and settles. -/
theorem tick_eq_attend {server : Server}
    (allowed : server.Allows (.waited server.config.readTimeout)) (index : Nat) :
    server.tick =
      (server.indices.foldl (fun server index => server.attend index .idled)
        (server.attend index (.waited server.config.readTimeout))).settle := by
  have met : meetDeadlines (server.connections.length + 1)
      (server.now + server.config.readTimeout) server = server := by
    rw [meetDeadlines]
    cases first : server.nextDeadline? with
    | none => rfl
    | some deadline => exact if_pos (by simpa [Allows, first] using allowed)
  rw [attend_waited allowed, tick, met]
  rfl

/-- What the peer of a connection has sent and nobody has read. -/
def inbound (server : Server) (index : Nat) : Bytes :=
  (server.connections[index]?.map (·.inbound)).getD []

end Server

/-- A step of a connection, with the server before it. -/
structure StreamOccurrence where
  before : Server
  step : StreamStep

namespace StreamOccurrence

def sent (occurrence : StreamOccurrence) : Bytes :=
  match occurrence.step with
  | .sent bytes => bytes
  | _ => []

/-- What is read from the connection in a step. -/
def reads (index : Nat) (occurrence : StreamOccurrence) : List Read :=
  match occurrence.step with
  | .idled =>
    if (occurrence.before.sessionAt? index).any (·.isSending .answering) then [] else [.nothing]
  | _ =>
    Server.reading (occurrence.before.inbound index ++ occurrence.sent)
      ((occurrence.before.attend index occurrence.step).inbound index)

/-- What the peer receives in a step. -/
def received (index : Nat) (occurrence : StreamOccurrence) : Bytes :=
  match occurrence.step, occurrence.before.sessionAt? index with
  | .took count, some session => session.reads (.read count)
  | _, _ => []

end StreamOccurrence

open Service (Engaged)

/-- The server gives a peer that connects a session. -/
structure Server.Accepts (server : Server) : Prop where
  run : ∃ maxBody past, Runs maxBody past server.service.offline
  running : server.running = true
  room : 1 ≤ server.config.maxBacklog
  unspent : server.service.nextSession.toNat + 1 < UInt64.size

namespace Server.Attends

variable {start server : Server} {reads : List Read} {sent received : Bytes}
  {handled : List AssemblerEvent} {connection : Connection} {session : Session}

theorem connected (accepts : start.Accepts) (capacity : Nat) (attended : Bool) :
    ∃ connection session,
      Attends start [] [] [] [] (start.connect capacity attended).2 connection session ∧
        Rests connection session := by
  have connects : (start.connect capacity attended).2 =
      { start with
        service := (start.service.openSession start.config.maxBacklog
          (.pipe { capacity, attended })).2
        connections := start.connections ++
          [{ session := start.service.nextSession, assembler := .new start.config.limits }] } := by
    rw [connect, if_pos accepts.running]
    rfl
  have nothing : Stream.parse start.config.limits.maxBody [] = ([], []) :=
    Stream.parse_of_next?_none Stream.next?_nil
  rcases accepts.run with ⟨maxBody, past, run⟩
  rw [connects]
  refine ⟨{ session := start.service.nextSession, assembler := .new start.config.limits }, _,
    ⟨?_, rfl, rfl, .new _, rfl,
      Engaged.start capacity attended run accepts.room accepts.unspent, ?_⟩,
    fun blocked => absurd rfl blocked, fun _ => ⟨rfl, rfl⟩⟩
  · simp [nextIndex]
  · rw [Read.stream, List.flatMap_nil, nothing]
    rfl

variable (attends : Attends start reads sent received handled server connection session)

include attends

theorem inbound : server.inbound start.nextIndex = connection.inbound := by
  rw [Server.inbound, attends.isThere]
  rfl

/-- Only the service and the connection count. -/
theorem of_same {other : Server} (service : other.service = server.service)
    (connections : other.connections = server.connections) :
    Attends start reads sent received handled other connection session := by
  refine ⟨?_, attends.owns, attends.lives, attends.follows, attends.arrived, ?_, attends.parsed⟩
  · rw [connections]
    exact attends.isThere
  · rw [service]
    exact attends.engaged

theorem sent_more (rests : Rests connection session) (bytes : Bytes) :
    ∃ handled later laterSession,
      Attends start (reads ++ reading (connection.inbound ++ bytes) later.inbound)
        (sent ++ bytes) received handled (server.attend start.nextIndex (.sent bytes)) later
        laterSession ∧ Rests later laterSession := by
  rcases attends with ⟨isThere, owns, lives, follows, arrived, engaged, parsed⟩
  have came : Attends start reads (sent ++ bytes) received handled
      (server.modifyConnection start.nextIndex fun connection =>
        { connection with inbound := connection.inbound ++ bytes })
      { connection with inbound := connection.inbound ++ bytes } session := by
    refine ⟨?_, owns, lives, follows, ?_, engaged, parsed⟩
    · simp [modifyConnection, isThere]
    · rw [← arrived, List.append_assoc]
  exact came.receive rests.smooth

theorem idled (rests : Rests connection session)
    (tolerated : Read.Tolerated start.config.limits
      (reads ++ if session.isSending .answering then [] else [.nothing])) :
    ∃ later, Attends start
      (reads ++ if session.isSending .answering then [] else [.nothing]) sent received handled
      (server.attend start.nextIndex .idled) later session ∧ Rests later session := by
  rw [attend, idleRead, attends.isThere, attends.sessionAt?]
  dsimp only
  cases sending : session.isSending .answering with
  | true => exact ⟨connection, by simpa using attends, rests⟩
  | false =>
      simp only [sending, Bool.false_eq_true, if_false] at tolerated ⊢
      rcases attends with ⟨isThere, owns, lives, follows, arrived, engaged, parsed⟩
      have same : Read.stream (reads ++ [.nothing]) = Read.stream reads :=
        Read.stream_append_idle reads (by simp [Read.Idle, Read.content])
      have idle : Read.nothing.Idle := rfl
      have read : connection.assembler.read .nothing =
          (connection.assembler.idle.1, (connection.assembler.idle.2.map .gaveUp).toList) := rfl
      rcases follows.read_idle idle tolerated with ⟨nextFollows, quiet⟩
      rw [read] at nextFollows quiet
      generalize connection.assembler.idle = outcome at nextFollows quiet ⊢
      rcases outcome with ⟨assembler, _ | error⟩
      · refine ⟨{ connection with assembler },
          ⟨?_, owns, lives, nextFollows, ?_, engaged, ?_⟩, rests.smooth, rests.finished⟩
        · simp [modifyConnection, isThere]
        · rw [same]
          exact arrived
        · rw [same]
          exact parsed
      · cases quiet

theorem released (count : Nat) :
    Attends start reads sent (received ++ session.reads (.read count)) handled
      (server.mapPipe start.nextIndex (·.release count)) connection
      (session.step (.read count)) := by
  have mapped : server.mapPipe start.nextIndex (·.release count) =
      server.modifySession start.service.nextSession (·.step (.read count)) := by
    rw [mapPipe, attends.isThere]
    dsimp only
    rw [attends.lives, attends.owns]
    rfl
  have flows := attends.engaged.flows.read count
  rw [mapped]
  exact ⟨attends.isThere, attends.owns, attends.lives, attends.follows, attends.arrived,
    attends.engaged.step flows rfl (Session.proceeds_read flows.going), attends.parsed⟩

theorem resumed :
    Attends start reads sent received handled
      (server.modifySession session.id Session.resume) connection
      (session.step (.turned .giveUp)) ∧ (session.step (.turned .giveUp)).Smooth := by
  -- There is one send at most, so that going on with all of them is one turn.
  have engaged := attends.engaged
  have turned := engaged.flows.turned .giveUp
  have silent := engaged.flows.takesUp?_turned .giveUp
  have proceeds := Session.proceeds_turned turned.1.going
  rw [silent] at proceeds
  have goesOn := engaged.step turned.1 silent proceeds
  have unread : session.reads (.turned .giveUp) = [] := rfl
  rw [unread, List.append_nil] at goesOn
  have same : server.service.modifySession start.service.nextSession Session.resume =
      server.service.modifySession start.service.nextSession (·.step (.turned .giveUp)) :=
    Service.modifySession_congr engaged.found engaged.flows.resume_eq
  rcases engaged.run with ⟨_, _, run⟩
  rw [(run.coherent.of_offline.numbered _ _ engaged.found).1, modifySession, same]
  exact ⟨⟨attends.isThere, attends.owns, attends.lives, attends.follows, attends.arrived, goesOn,
    attends.parsed⟩, turned.2⟩

theorem took (count : Nat) :
    ∃ handled later laterSession,
      Attends start (reads ++ reading connection.inbound later.inbound) sent
        (received ++ session.reads (.read count)) handled
        (server.attend start.nextIndex (.took count)) later laterSession ∧
      Rests later laterSession := by
  have released := attends.released count
  rw [attend, released.sessionAt?]
  exact released.resumed.1.receive released.resumed.2

/-- Nothing waits to be flushed. -/
theorem flushed : server.attend start.nextIndex .flushed = server := by
  rw [attend, flush, attends.sessionAt?]
  simp [Backlog.isEmpty, attends.engaged.drained]

/-- Whatever happens, the server goes on with the stream. -/
theorem next (rests : Rests connection session) {step : StreamStep} (allowed : server.Allows step)
    (tolerated : Read.Tolerated start.config.limits
      (reads ++ StreamOccurrence.reads start.nextIndex ⟨server, step⟩)) :
    ∃ handled later laterSession,
      Attends start (reads ++ StreamOccurrence.reads start.nextIndex ⟨server, step⟩)
        (sent ++ StreamOccurrence.sent ⟨server, step⟩)
        (received ++ StreamOccurrence.received start.nextIndex ⟨server, step⟩) handled
        (server.attend start.nextIndex step) later laterSession ∧
      Rests later laterSession := by
  have found := attends.sessionAt?
  cases step with
  | sent bytes =>
      rcases attends.sent_more rests bytes with ⟨handled, later, laterSession, went, rests⟩
      refine ⟨handled, later, laterSession, ?_, rests⟩
      simpa [StreamOccurrence.reads, StreamOccurrence.sent, StreamOccurrence.received,
        attends.inbound, went.inbound] using went
  | idled =>
      have read : StreamOccurrence.reads start.nextIndex ⟨server, .idled⟩ =
          if session.isSending .answering then [] else [.nothing] := by
        simp [StreamOccurrence.reads, found]
      rw [read] at tolerated ⊢
      rcases attends.idled rests tolerated with ⟨later, went, rests⟩
      refine ⟨handled, later, session, ?_, rests⟩
      simpa [StreamOccurrence.sent, StreamOccurrence.received] using went
  | took count =>
      rcases attends.took count with ⟨handled, later, laterSession, went, rests⟩
      refine ⟨handled, later, laterSession, ?_, rests⟩
      simpa [StreamOccurrence.reads, StreamOccurrence.sent, StreamOccurrence.received, found,
        attends.inbound, went.inbound] using went
  | flushed =>
      refine ⟨handled, connection, session, ?_, rests⟩
      simpa [StreamOccurrence.reads, StreamOccurrence.sent, StreamOccurrence.received,
        attends.flushed, reading_self] using attends
  | waited time =>
      have went := attends.of_same (rfl : ({ server with now := server.now + time } :
        Server).service = server.service) rfl
      refine ⟨handled, connection, session, ?_, rests⟩
      simpa [StreamOccurrence.reads, StreamOccurrence.sent, StreamOccurrence.received,
        attend_waited allowed, attends.inbound, went.inbound, reading_self] using went

end Server.Attends

/-! ## Whole streams -/

/-- What happens after a peer has connected, as long as nothing misses its deadline. -/
inductive StreamRuns (start : Server) (capacity : Nat) (attended : Bool) :
    List StreamOccurrence → Server → Prop where
  | connected : StreamRuns start capacity attended [] (start.connect capacity attended).2
  | next {log : List StreamOccurrence} {server : Server}
      (before : StreamRuns start capacity attended log server) (step : StreamStep)
      (allowed : server.Allows step) :
      StreamRuns start capacity attended (log ++ [⟨server, step⟩])
        (server.attend start.nextIndex step)

/-- What a server does with the stream of the peer that connected last. -/
structure Output (start : Server) (log : List StreamOccurrence) (server : Server)
    (session : Session) (handled waiting : List AssemblerEvent) : Prop where
  going : session.stopped = false
  parsed : (Stream.parse start.config.limits.maxBody
    (Read.stream (log.flatMap (·.reads start.nextIndex)))).1 = handled ++ waiting
  /-- What the peer has received, what is on its way and what is still to be written. -/
  written : log.flatMap (·.received start.nextIndex) ++ session.channel.transport.held ++
    session.unwritten =
      (start.opened.serveAll start.service.nextSession handled).1.flatMap Frame.encode
  announced : start.opened.AnnouncesAll start.service.nextSession handled
  store : server.service.offline = (start.opened.serveAll start.service.nextSession handled).2
  errors : session.framingErrors = handled.countP AssemblerEvent.isGivenUp
  smooth : session.Smooth
  finished : session.channel.current = none → waiting = [] ∧
    Read.stream (log.flatMap (·.reads start.nextIndex)) = log.flatMap (·.sent)

/-- When nothing is left to be sent, the whole stream has been handled. -/
theorem Output.handled_eq {start server : Server} {log : List StreamOccurrence} {session : Session}
    {handled waiting : List AssemblerEvent}
    (output : Output start log server session handled waiting)
    (free : session.channel.current = none) :
    handled = (Stream.parse start.config.limits.maxBody (log.flatMap (·.sent))).1 := by
  rcases output.finished free with ⟨rfl, read⟩
  rw [← read, output.parsed, List.append_nil]

namespace StreamRuns

variable {start server : Server} {capacity : Nat} {attended : Bool} {log : List StreamOccurrence}

theorem attends (accepts : start.Accepts) (streams : StreamRuns start capacity attended log server)
    (tolerated : Read.Tolerated start.config.limits (log.flatMap (·.reads start.nextIndex))) :
    ∃ handled connection session,
      start.Attends (log.flatMap (·.reads start.nextIndex)) (log.flatMap (·.sent))
        (log.flatMap (·.received start.nextIndex)) handled server connection session ∧
      Server.Rests connection session := by
  induction streams with
  | connected =>
      exact ⟨[], Server.Attends.connected accepts capacity attended⟩
  | next before step allowed ih =>
      simp only [List.flatMap_append, List.flatMap_singleton] at tolerated ⊢
      rcases ih tolerated.earlier with ⟨handled, connection, session, attends, rests⟩
      exact attends.next rests allowed tolerated

theorem output_of_attends {handled : List AssemblerEvent} {connection : Connection}
    {session : Session}
    (attends : start.Attends (log.flatMap (·.reads start.nextIndex))
      (log.flatMap (·.sent)) (log.flatMap (·.received start.nextIndex)) handled server
      connection session)
    (rests : Server.Rests connection session) :
    Output start log server session handled connection.unhandled where
  going := attends.engaged.flows.going
  parsed := attends.parsed
  written := attends.engaged.bytes
  announced := attends.engaged.announced
  store := attends.engaged.store
  errors := attends.engaged.errors
  smooth := rests.smooth
  finished free := by
    rcases rests.finished free with ⟨handledAll, readAll⟩
    have arrived := attends.arrived
    rw [readAll, List.append_nil] at arrived
    exact ⟨handledAll, arrived⟩

/-- What is sent to a peer depends on its stream only, and not on how that is cut, on how fast the
peer reads or on what else happens. -/
theorem output_determined (accepts : start.Accepts)
    (streams : StreamRuns start capacity attended log server)
    (tolerated : Read.Tolerated start.config.limits (log.flatMap (·.reads start.nextIndex))) :
    ∃ session, server.sessionAt? start.nextIndex = some session ∧
      (∃ handled waiting, Output start log server session handled waiting) ∧
      ∀ otherCapacity otherAttended otherLog other otherSession,
        StreamRuns start otherCapacity otherAttended otherLog other →
        Read.Tolerated start.config.limits (otherLog.flatMap (·.reads start.nextIndex)) →
        otherLog.flatMap (·.sent) = log.flatMap (·.sent) →
        other.sessionAt? start.nextIndex = some otherSession →
        session.channel.current = none → otherSession.channel.current = none →
          otherLog.flatMap (·.received start.nextIndex) ++
              otherSession.channel.transport.held =
            log.flatMap (·.received start.nextIndex) ++ session.channel.transport.held ∧
          other.service.offline = server.service.offline := by
  rcases streams.attends accepts tolerated with
    ⟨handled, connection, session, attends, rests⟩
  have output := output_of_attends attends rests
  refine ⟨session, attends.sessionAt?, ⟨handled, _, output⟩, ?_⟩
  intro otherCapacity otherAttended otherLog other otherSession otherStreams otherTolerated same
    found free otherFree
  rcases otherStreams.attends accepts otherTolerated with
    ⟨otherHandled, otherConnection, _, otherAttends, otherRests⟩
  cases otherAttends.sessionAt?.symm.trans found
  have otherOutput := output_of_attends otherAttends otherRests
  -- Both have handled all that the stream is worth.
  have handledAll := output.handled_eq free
  have otherHandledAll := otherOutput.handled_eq otherFree
  rw [same, ← handledAll] at otherHandledAll
  subst otherHandledAll
  refine ⟨?_, otherOutput.store.trans output.store.symm⟩
  have written := otherOutput.written.trans output.written.symm
  simpa [Session.unwritten, free, otherFree] using written

theorem output_determined_cut : ∃ start log server session otherLog other,
    StreamRuns start 20 false log server ∧ StreamRuns start 0 true otherLog other ∧
    server.sessionAt? 0 = some session ∧ session.framingErrors = 1 ∧
    (log.flatMap (·.reads 0)).length = 4 ∧ (otherLog.flatMap (·.reads 0)).length = 1 ∧
    (log.flatMap (·.received 0)).length = 40 ∧ (otherLog.flatMap (·.received 0)).length = 55 ∧
    log.flatMap (·.received 0) ++ session.channel.transport.held =
      otherLog.flatMap (·.received 0) ∧
    other.service.offline = server.service.offline := by
  -- A sign-in, a header that declares too little, a message of no kind and a creation.
  have first : StreamRuns (.new { limits := ⟨64, 1⟩, maxBacklog := 4 }) 20 false [] _ := .connected
  have run := first.next (.sent [42, 25, 0, 0, 0, 1, 0, 0, 0, 1, 0, 0]) trivial
  have run := run.next .idled trivial
  have run := run.next (.sent [0, 0, 0, 0, 0, 0, 0, 0, 0, 0, 0, 0, 0, 49, 8, 0, 0, 0, 9, 0, 0, 0, 0,
    9]) trivial
  have run := run.next (.sent [0, 0, 0, 5, 0, 0, 0, 44, 21, 0, 0, 0, 2, 0, 0, 0, 0, 1, 0, 0, 0, 7,
    2, 0, 0, 0, 47, 97]) trivial
  have run := run.next (.took 20) trivial
  have run := run.next (.waited 5) (by decide +kernel)
  have run := run.next (.took 20) trivial
  have whole : StreamRuns (.new { limits := ⟨64, 1⟩, maxBacklog := 4 }) 0 true [] _ := .connected
  have whole := whole.next (.sent [42, 25, 0, 0, 0, 1, 0, 0, 0, 1, 0, 0, 0, 0, 0, 0, 0, 0, 0, 0, 0,
    0, 0, 0, 0, 49, 8, 0, 0, 0, 9, 0, 0, 0, 0, 9, 0, 0, 0, 5, 0, 0, 0, 44, 21, 0, 0, 0, 2, 0, 0, 0, 0,
    1, 0, 0, 0, 7, 2, 0, 0, 0, 47, 97]) trivial
  have whole := whole.next (.took 60) trivial
  have accepts : (Server.new { limits := ⟨64, 1⟩, maxBacklog := 4 }).Accepts :=
    ⟨⟨64, [], .new⟩, rfl, by decide, by decide⟩
  rcases output_determined accepts run (by decide +kernel) with
    ⟨session, found, _, agree⟩
  rcases output_determined accepts whole (by decide +kernel) with ⟨otherSession, otherFound, _⟩
  have free : some true = some session.channel.current.isNone :=
    Eq.trans (by decide +kernel) (congrArg (Option.map (·.channel.current.isNone)) found)
  have otherFree : some true = some otherSession.channel.current.isNone :=
    Eq.trans (by decide +kernel) (congrArg (Option.map (·.channel.current.isNone)) otherFound)
  have errors : some 1 = some session.framingErrors :=
    Eq.trans (by decide +kernel) (congrArg (Option.map (·.framingErrors)) found)
  have nothing : some [] = some otherSession.channel.transport.held :=
    Eq.trans (by decide +kernel) (congrArg (Option.map (·.channel.transport.held)) otherFound)
  rcases agree _ _ _ _ otherSession whole (by decide +kernel) (by decide +kernel) otherFound
    (by simpa using (Option.some.inj free).symm) (by simpa using (Option.some.inj otherFree).symm)
    with ⟨written, store⟩
  rw [← Option.some.inj nothing, List.append_nil] at written
  exact ⟨_, _, _, session, _, _, run, whole, found, (Option.some.inj errors).symm,
    by decide +kernel, by decide +kernel, by decide +kernel, by decide +kernel, written.symm, store⟩

end StreamRuns

end SharedTree
