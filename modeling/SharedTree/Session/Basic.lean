import SharedTree.Backlog
import SharedTree.Session.Transport
import SharedTree.Tree.Property

/-!
# Sessions

A session is what the service knows of one connected client: whether and how it has signed in, the backlog
of what is to be sent to it, and its calls of rpc endpoints that have not been answered. A session that is
told to stop takes nothing more into its backlog, and one whose backlog is full when something is put into
it stops.

Frames leave a session through its channel, which one sender at a time may use.
-/

namespace SharedTree

/-- A call of an rpc endpoint that awaits its answer. -/
structure PendingCall where
  /-- The endpoint, which the call holds. -/
  endpoint : Handle
  /-- Who answers calls of the endpoint. -/
  handler : Option SessionId
  deriving DecidableEq, Repr

/-- The two activities of a session that send. -/
inductive Sender where
  /-- Answers requests, one after the other. -/
  | answering
  /-- Sends what waits in the backlog. -/
  | flushing
  deriving DecidableEq, Repr

/-- One wish to send: everything in the backlog, then an answer if there is one. -/
structure Send where
  sender : Sender
  answer : Option Frame
  /-- When it is given up. -/
  deadline : Nat
  deriving DecidableEq, Repr

/-- The way out of a session. -/
structure Channel where
  transport : Transport
  /-- The send that has the channel, with the bytes that the transport has not taken. -/
  current : Option (Send × Bytes) := none
  /-- The sends that want the channel, first come first. -/
  waiting : List Send := []

/-- What the service knows of one client. -/
structure Session where
  id : SessionId
  /-- Whether announcements and calls can reach the session. -/
  listed : Bool := true
  signedIn : Bool := false
  /-- The interval between notifications that the client asked for, in milliseconds. -/
  updateInterval : UInt32 := 0
  features : FeatureFlags := ⟨0⟩
  stopped : Bool := false
  backlog : Backlog
  /-- The calls of this client that await an answer, by transaction. -/
  pending : Table TransactionId PendingCall := .empty
  /-- How many messages of the client were given up. -/
  framingErrors : Nat := 0
  channel : Channel

namespace Session

/-- Notes that the client has signed in. -/
def signIn (session : Session) (updateInterval : UInt32) (features : FeatureFlags) : Session :=
  { session with signedIn := true, updateInterval, features }

/-- The pipe that the session writes to, if it does not write to a sink. -/
def line? (session : Session) : Option Pipe := session.channel.transport.line?

/-- Changes the pipe that the session writes to. -/
def mapLine (change : Pipe → Pipe) (session : Session) : Session :=
  { session with
    channel := { session.channel with transport := session.channel.transport.mapPipe change } }

/-- Tells the session to stop. -/
def stop (session : Session) : Session := { session with stopped := true }

/-- Puts an entry into the backlog of a session that is not stopped. The session stops if the backlog is
full. -/
def push (entry : BacklogEntry) (session : Session) : Session :=
  if session.stopped then session
  else
    match session.backlog.push? entry with
    | some backlog => { session with backlog }
    | none => session.stop

/-- Takes everything that waits in the backlog, as frames. -/
def drain (session : Session) : List Frame × Session :=
  (session.backlog.frames, { session with backlog := session.backlog.clear })

/-- Tells the session of a new payload of a value it watches. Says whether the session still receives. -/
def notify (update : ValueUpdate) (session : Session) : Bool × Session :=
  if session.stopped then (false, session)
  else
    let notified := session.push (.update update)
    (!notified.stopped, notified)

/-- The number by which values know the session as an observer. -/
def observer (session : Session) : Observer := session.id.toNat

/-! ## Calls -/

/-- Records a call. Returns the call that it takes the place of. -/
def addCall (session : Session) (transaction : TransactionId) (call : PendingCall) :
    Option PendingCall × Session :=
  (session.pending.find? transaction,
    { session with pending := session.pending.insert transaction call })

/-- Removes a call answered by a handler, if there is such a call and the handler is the one who answers
it. -/
def completeCall (session : Session) (transaction : TransactionId) (handler : SessionId) :
    Option PendingCall × Session :=
  match session.pending.find? transaction with
  | none => (none, session)
  | some call =>
    if call.handler = some handler then
      (some call, { session with pending := session.pending.erase transaction })
    else (none, session)

/-- The calls that a handler is to answer, in the order in which they are come across. -/
def callsTo (session : Session) (order : VisitOrder) (handler : SessionId) :
    List (TransactionId × PendingCall) :=
  (order.arrange session.pending.entries).filter fun entry => entry.2.handler = some handler

/-- Puts an answer to a call into the backlog. -/
def pushAnswer (transaction : TransactionId) (returnValue : Bytes) (session : Session) : Session :=
  match Frame.ofMessage (.rpcResponse returnValue) transaction with
  | .ok frame => session.push (.frame frame)
  | .error _ => session

/-- Removes the calls that a handler is to answer, and answers each with nothing. -/
def abandonCalls (session : Session) (order : VisitOrder) (handler : SessionId) :
    List PendingCall × Session :=
  let abandoned := session.callsTo order handler
  let cleared :=
    { session with pending := session.pending.filter fun _ call => call.handler ≠ some handler }
  (abandoned.map (·.2),
    abandoned.foldl (fun session call => session.pushAnswer call.1 []) cleared)

/-- A session in print. -/
def describe (session : Session) : String :=
  "Session \x7b id: " ++ toString session.id.toNat ++
    ", signed_in: " ++ toString session.signedIn ++
    ", stopped: " ++ toString session.stopped ++ ", .. \x7d"

end Session

end SharedTree
