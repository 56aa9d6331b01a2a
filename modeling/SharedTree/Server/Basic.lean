import SharedTree.Service.Request
import SharedTree.Session.Sending
import SharedTree.Wire.Assembler

/-!
# Serving connections

A server accepts connections until it is shut down and gives each one a session. What a peer sends is cut
into frames; the frames are handled in order, and the answer to each is sent before the next is handled,
behind everything that waits in the session's own backlog. What waits in the backlogs of other sessions is
sent once the whole of what was received has been handled.

Nothing takes time except writing to a peer that does not read, and waiting for a peer that sends nothing.
Time is a number of milliseconds; it passes only in `Server.pass`. A send that is not done by its deadline
ends its session, and so does a peer that hangs up, a full backlog and shutting down. A session that ends
is closed, which may set off answers to the calls it leaves behind.
-/

namespace SharedTree

/-- How a server treats its connections. Times are in milliseconds. -/
structure ServerConfig where
  limits : AssemblerLimits := {}
  /-- How long a read waits before it counts as idle. -/
  readTimeout : Nat := 500
  /-- How long a send may take. -/
  writeTimeout : Nat := 10000
  /-- How many entries a backlog holds. -/
  maxBacklog : Nat := 64 * 1024
  deriving Inhabited

/-- One connection of a server. -/
structure Connection where
  /-- Its session, which exists until it has ended. -/
  session : SessionId
  assembler : Assembler
  /-- What the peer has sent and nobody has read. -/
  inbound : Bytes := []
  /-- What has been read and not been handled. -/
  unhandled : List AssemblerEvent := []
  /-- Whether the peer keeps its end open. -/
  peerOpen : Bool := true
  /-- What the peer may still read of a session that has ended. -/
  remains : Option Pipe := none

/-- A server with its connections. -/
structure Server where
  config : ServerConfig
  service : Service
  /-- In the order in which they were made. -/
  connections : List Connection := []
  now : Nat := 0
  /-- Whether it accepts connections. -/
  running : Bool := true

namespace Server

/-- A server without connections. -/
def new (config : ServerConfig) : Server :=
  { config, service := .new config.limits.maxBody }

/-- Changes a connection. -/
def modifyConnection (server : Server) (index : Nat) (change : Connection → Connection) : Server :=
  { server with connections := server.connections.modify index change }

/-- Changes a session. -/
def modifySession (server : Server) (id : SessionId) (change : Session → Session) : Server :=
  { server with service := server.service.modifySession id change }

/-- The session of a connection, until it has ended. -/
def session? (server : Server) (connection : Connection) : Option Session :=
  if connection.remains.isSome then none else server.service.session? connection.session

/-- The session of the connection with a number, until it has ended. -/
def sessionAt? (server : Server) (index : Nat) : Option Session :=
  server.connections[index]?.bind server.session?

/-- Begins a send of a session. The session stops if the send fails. -/
def send (server : Server) (id : SessionId) (sender : Sender) (answer : Option Frame) : Server :=
  server.modifySession id fun session =>
    let deadline := server.now + server.config.writeTimeout
    match session.beginSend .giveUp { sender, answer, deadline } with
    | (.failed _, next) => next.stop
    | (_, next) => next

/-! ## Receiving -/

/-- Handles what was cut out of a connection's stream, until an answer is blocked or the session
stops. -/
def handleEvents (server : Server) (index : Nat) (id : SessionId) :
    List AssemblerEvent → Server
  | [] => server
  | event :: rest =>
    match server.service.session? id with
    | none => server
    | some session =>
      if session.stopped then server
      else if session.isSending .answering then
        server.modifyConnection index fun connection =>
          { connection with unhandled := event :: rest }
      else
        match event with
        | .gaveUp _ =>
          (server.modifySession id fun session =>
            { session with framingErrors := session.framingErrors + 1 }).handleEvents index id rest
        | .completed frame =>
          let (service, answer) := server.service.handle .stored id frame
          (({ server with service } : Server).send id .answering answer).handleEvents index id rest

/-- Goes on with what was read from a connection, and then reads what is there. -/
def receive (server : Server) (index : Nat) : Server :=
  match server.connections[index]? with
  | none => server
  | some connection =>
    let server := server.modifyConnection index fun connection =>
      { connection with unhandled := [] }
    let server := server.handleEvents index connection.session connection.unhandled
    match server.connections[index]?, server.sessionAt? index with
    | some connection, some session =>
      if session.isSending .answering || connection.inbound.isEmpty then server
      else
        let (assembler, events) := connection.assembler.accept connection.inbound
        (server.modifyConnection index fun connection =>
          { connection with assembler, inbound := [] }).handleEvents index connection.session events
    | _, _ => server

/-! ## Settling -/

/-- Stops every session that has a send whose deadline has come. -/
def expire (server : Server) : Server :=
  { server with
    service :=
      { server.service with
        sessions := server.service.sessions.map fun _ session =>
          if session.unfinished.any fun send => send.deadline ≤ server.now then session.stop
          else session } }

/-- Ends the session of a connection if it has been stopped. -/
def reap (server : Server) (index : Nat) : Server :=
  match server.connections[index]?, server.sessionAt? index with
  | some connection, some session =>
    if session.stopped then
      let remains := session.line?.getD { capacity := 0 }
      ({ server with service := (server.service.close .stored connection.session).2 } : Server)
        |>.modifyConnection index fun connection => { connection with remains := some remains }
    else server
  | _, _ => server

/-- Sends what waits in the backlog of a connection's session. -/
def flush (server : Server) (index : Nat) : Server :=
  match server.sessionAt? index with
  | none => server
  | some session =>
    if session.stopped || session.backlog.isEmpty || session.isSending .flushing then server
    else server.send session.id .flushing none

/-- The numbers of all connections. -/
def indices (server : Server) : List Nat := List.range server.connections.length

/-- Whether a session of a connection has been stopped and not ended. -/
def hasStopped (server : Server) : Bool :=
  server.connections.any fun connection =>
    match server.session? connection with
    | some session => session.stopped
    | none => false

/-- Ends stopped sessions and sends what waits, until neither is left to do. Every round but the last
ends a session, which the count bounds. -/
def settleFor : Nat → Server → Server
  | 0, server => server
  | rounds + 1, server =>
    let server := server.indices.foldl reap server.expire
    let server := (server.indices.foldl flush server).expire
    if server.hasStopped then settleFor rounds server else server

/-- Lets everything happen that takes no time. -/
def settle (server : Server) : Server := settleFor (server.connections.length + 1) server

/-! ## What happens to a server -/

/-- A peer connects. Its pipe holds the given number of unread bytes; it may begin by not reading. Once
the server is shut down, connecting is in vain. Returns the number of the connection. -/
def connect (server : Server) (capacity : Nat) (attended : Bool) : Nat × Server :=
  let index := server.connections.length
  let pipe : Pipe := { capacity, attended }
  let assembler := Assembler.new server.config.limits
  if server.running then
    let (session, service) := server.service.openSession server.config.maxBacklog (.pipe pipe)
    (index,
      { server with
        service
        connections := server.connections ++ [{ session, assembler }] })
  else
    (index,
      { server with
        connections :=
          server.connections ++ [{ session := 0, assembler, remains := some pipe }] })

/-- A peer sends bytes. Says whether they could be written; there is no answer if there was nothing to
write or the peer has hung up. -/
def deliver (server : Server) (index : Nat) (bytes : Bytes) : Option Bool × Server :=
  match server.connections[index]? with
  | none => (none, server)
  | some connection =>
    if bytes.isEmpty || !connection.peerOpen then (none, server)
    else if (server.sessionAt? index).isNone then (some false, server)
    else
      let server := server.modifyConnection index fun connection =>
        { connection with inbound := connection.inbound ++ bytes }
      (some true, (server.receive index).settle)

/-- Changes what a connection's peer reads from. -/
def mapPipe (server : Server) (index : Nat) (change : Pipe → Pipe) : Server :=
  match server.connections[index]? with
  | none => server
  | some connection =>
    match connection.remains with
    | some _ =>
      server.modifyConnection index fun connection =>
        { connection with remains := connection.remains.map change }
    | none => server.modifySession connection.session (·.mapLine change)

/-- A peer hangs up, which ends its session. -/
def hangUp (server : Server) (index : Nat) : Server :=
  match server.connections[index]? with
  | none => server
  | some connection =>
    let server := server.mapPipe index Pipe.hangUp
    let server := server.modifyConnection index fun connection =>
      { connection with peerOpen := false }
    if connection.remains.isSome then server
    else (server.modifySession connection.session Session.stop).settle

/-- A peer stops reading, unless it has read to the end already. -/
def stall (server : Server) (index : Nat) : Server :=
  if (server.sessionAt? index).isSome then server.mapPipe index Pipe.neglect else server

/-- A peer reads again, so that whatever was blocked goes on. -/
def unstall (server : Server) (index : Nat) : Server :=
  let server := server.mapPipe index Pipe.attend
  match server.sessionAt? index with
  | none => server
  | some session =>
    ((server.modifySession session.id Session.resume).receive index).settle

/-- The server stops accepting, and every session ends. -/
def shutDown (server : Server) : Server :=
  ({ server with running := false, service := server.service.stopAll } : Server).settle

/-! ## Time -/

/-- The first deadline of a send that is not done. -/
def nextDeadline? (server : Server) : Option Nat :=
  (server.service.sessions.values.flatMap fun session =>
    session.unfinished.map (·.deadline)).min?

/-- Lets the deadlines up to a time come, one after the other. Each ends a session, which the count
bounds. -/
def meetDeadlines : Nat → Nat → Server → Server
  | 0, _, server => server
  | rounds + 1, time, server =>
    match server.nextDeadline? with
    | none => server
    | some deadline =>
      if time < deadline then server
      else meetDeadlines rounds time ({ server with now := max server.now deadline } : Server).settle

/-- A connection's read ends without bytes, unless an answer is still being sent. -/
def idleRead (server : Server) (index : Nat) : Server :=
  match server.connections[index]?, server.sessionAt? index with
  | some connection, some session =>
    if session.isSending .answering then server
    else
      let (assembler, error) := connection.assembler.idle
      let server := server.modifyConnection index fun connection => { connection with assembler }
      match error with
      | none => server
      | some _ =>
        server.modifySession session.id fun session =>
          { session with framingErrors := session.framingErrors + 1 }
  | _, _ => server

/-- Lets as much time pass as one read waits. -/
def tick (server : Server) : Server :=
  let time := server.now + server.config.readTimeout
  let server := meetDeadlines (server.connections.length + 1) time server
  let server : Server := { server with now := time }
  (server.indices.foldl idleRead server).settle

/-- Lets the time of a number of reads pass. -/
def pass : Nat → Server → Server
  | 0, server => server
  | reads + 1, server => pass reads server.tick

/-! ## What peers see -/

/-- Takes what a connection's peer has received since it was last asked. -/
def collect (server : Server) (index : Nat) : Bytes × Server :=
  let remains := server.connections[index]?.bind (·.remains)
  match remains.or ((server.sessionAt? index).bind (·.line?)) with
  | none => ([], server)
  | some pipe => (pipe.taken, server.mapPipe index fun pipe => pipe.collect.2)

end Server

/-- Whether a connection's peer keeps its end open and has not read up to the end of the stream. -/
def Connection.isOpen (connection : Connection) : Bool :=
  connection.peerOpen &&
    match connection.remains with
    | none => true
    | some pipe => !pipe.attended

end SharedTree
