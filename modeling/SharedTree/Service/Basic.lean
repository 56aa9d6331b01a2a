import SharedTree.Session.Basic
import SharedTree.Tree.Delivery

/-!
# The service

The service is the shared tree together with the sessions that use it. Session numbers count up from 1 and
are never used again. A session is listed from the moment it is opened until it is taken off the list; only
listed sessions hear announcements and can be called. When a session leaves the list, every call that
others have pending on it is answered with nothing; in which order is not specified.

A session that is closed is gone for good: its watches can no longer be served, and the endpoints that its
pending calls held are released.
-/

namespace SharedTree

/-- The orders in which calls are answered when the session that is to answer them leaves. -/
structure LeaveOrder where
  /-- In which order the listed sessions are visited. -/
  callers : VisitOrder
  /-- In which order the calls of each session are come across. -/
  calls : SessionId → VisitOrder

/-- Visits sessions and calls in the order in which they are stored. -/
def LeaveOrder.stored : LeaveOrder := ⟨.stored, fun _ => .stored⟩

instance : Inhabited LeaveOrder := ⟨.stored⟩

/-- The shared tree and the sessions that use it. -/
structure Service where
  tree : Tree := .new
  /-- The sessions that exist, by number. -/
  sessions : Table SessionId Session := .empty
  /-- The number of the next session. -/
  nextSession : SessionId := 1
  /-- The longest body that clients accept. -/
  maxBody : Nat

namespace Service

/-- A service with an empty tree and no session. -/
def new (maxBody : Nat) : Service := { maxBody }

/-- The session with a number. -/
def session? (service : Service) (id : SessionId) : Option Session := service.sessions.find? id

/-- Changes a session. -/
def modifySession (service : Service) (id : SessionId) (change : Session → Session) : Service :=
  { service with sessions := service.sessions.modify id change }

/-- The numbers of those of some sessions that are listed. -/
def listedIn (sessions : Table SessionId Session) : List SessionId :=
  (sessions.filter fun _ session => session.listed).keys

/-- The numbers of the listed sessions. -/
def listed (service : Service) : List SessionId := listedIn service.sessions

/-- The listed session with a number. -/
def listed? (service : Service) (id : SessionId) : Option Session :=
  (service.session? id).filter (·.listed)

/-- Opens a session. -/
def openSession (service : Service) (maxEntries : Nat) (transport : Transport) :
    SessionId × Service :=
  let id := service.nextSession
  let session : Session :=
    { id, backlog := { maxBody := service.maxBody, maxEntries }, channel := { transport } }
  (id, { service with sessions := service.sessions.insert id session, nextSession := id + 1 })

/-- Lets go of the endpoints of calls. -/
def releaseCalls (service : Service) (calls : List PendingCall) : Service :=
  { service with tree := calls.foldl (fun tree call => tree.release call.endpoint) service.tree }

/-- Answers the calls of one session that a handler is to answer, with nothing. Returns how many there
were. -/
def abandonCalls (service : Service) (order : VisitOrder) (caller handler : SessionId) :
    Nat × Service :=
  match service.session? caller with
  | none => (0, service)
  | some session =>
    let (abandoned, session) := session.abandonCalls order handler
    (abandoned.length,
      (service.modifySession caller fun _ => session).releaseCalls abandoned)

/-- Takes a session off the list. Says whether it was on it. -/
def unlist (service : Service) (order : LeaveOrder) (id : SessionId) : Bool × Service :=
  match service.listed? id with
  | none => (false, service)
  | some _ =>
    let service := service.modifySession id fun session => { session with listed := false }
    (true,
      (order.callers.arrange service.listed).foldl
        (fun service caller => (service.abandonCalls (order.calls caller) caller id).2) service)

/-- Closes a session and returns what has become of it, if it existed. -/
def close (service : Service) (order : LeaveOrder) (id : SessionId) : Option Session × Service :=
  let service := (service.unlist order id).2
  match service.session? id with
  | none => (none, service)
  | some session =>
    (some session,
      ({ service with sessions := service.sessions.erase id } : Service).releaseCalls
        session.pending.values)

/-- Tells a session to stop. -/
def stop (service : Service) (id : SessionId) : Service := service.modifySession id Session.stop

/-- Tells every listed session to stop. -/
def stopAll (service : Service) : Service := service.listed.foldl stop service

/-- Announces a change of the tree to every listed session that has signed in. -/
def announce (order : VisitOrder) (change : TreeChange) (sessions : Table SessionId Session) :
    Table SessionId Session :=
  (order.arrange (listedIn sessions)).foldl
    (fun sessions id =>
      sessions.modify id fun session =>
        if session.signedIn then session.push (.change change) else session)
    sessions

/-- The service after an announcement. -/
def broadcast (service : Service) (order : VisitOrder) (change : TreeChange) : Service :=
  { service with sessions := announce order change service.sessions }

/-- How sessions react to a new payload of a value: those that exist and receive put it into their
backlog. -/
def reaction : Reaction (Table SessionId Session) := fun observer update (tree, sessions) =>
  let id := UInt64.ofNat observer
  match sessions.find? id with
  | none => (false, tree, sessions)
  | some session =>
    let (reached, session) := session.notify update
    (reached, tree, sessions.modify id fun _ => session)

/-- Takes everything that waits in the backlog of a session, as frames. -/
def drain (service : Service) (id : SessionId) : List Frame × Service :=
  match service.session? id with
  | none => ([], service)
  | some session =>
    let (frames, session) := session.drain
    (frames, service.modifySession id fun _ => session)

/-- Records a call of a session, which holds the endpoint from now on. -/
def addCall (service : Service) (caller : SessionId) (transaction : TransactionId)
    (endpoint : Handle) : Service :=
  match service.session? caller with
  | none => service
  | some session =>
    let handler := (service.tree.property? endpoint).bind (·.handler?)
    let (replaced, session) := session.addCall transaction { endpoint, handler }
    let service := { service with tree := service.tree.hold endpoint }
    (service.modifySession caller fun _ => session).releaseCalls replaced.toList

/-- Removes a call of a session that a handler answers. Says whether there was one. -/
def completeCall (service : Service) (caller : SessionId) (transaction : TransactionId)
    (handler : SessionId) : Bool × Service :=
  match service.session? caller with
  | none => (false, service)
  | some session =>
    let (completed?, session) := session.completeCall transaction handler
    (completed?.isSome,
      (service.modifySession caller fun _ => session).releaseCalls completed?.toList)

end Service

end SharedTree
