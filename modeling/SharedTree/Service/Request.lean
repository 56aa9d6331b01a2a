import SharedTree.Service.Basic

/-!
# Answering requests

`Service.handle` takes one frame from a session and returns the frame to answer it with, if any. What else
a request sets off, it puts into backlogs: creations and deletions are announced to every signed-in
session, the requesting one included; new payloads go to the observers of a value; calls go to the session
that created the endpoint, and answers to calls to the caller.

Nothing that a client sends makes handling fail. A frame that carries no message, a message that clients
do not send, and anything before signing in are dropped. A path or payload that could not be announced in
a message of its own is refused, because no client could receive it.
-/

namespace SharedTree

namespace Service

/-- The answer code for an error of creating. -/
def createCode : TreeError → CreateCode
  | .malformedPath => .malformedPath
  | .parentNotFound => .parentNotFound
  | .alreadyExists => .alreadyExist
  | _ => .typeError

/-- The answer code for an error of deleting. -/
def deleteCode : TreeError → DeleteCode
  | .malformedPath => .malformedPath
  | .notEmpty => .notEmpty
  | .notPermitted => .notPermitted
  | _ => .objectNotFound

/-- The answer code for an error of subscribing. -/
def subscribeCode : TreeError → SubscribeCode
  | .notAValue _ => .notAValue
  | _ => .uuidNotFound

/-- The answer code for an error of unsubscribing. -/
def unsubscribeCode : TreeError → UnsubscribeCode
  | .notSubscribed _ => .notSubscribed
  | .notAValue _ => .notAValue
  | _ => .uuidNotFound

/-- Whether a creation can be announced in a message of its own. -/
def creationFits (service : Service) (kind : PropertyKind) (path : String) : Bool :=
  (Message.metaUpdateNotification [{ uuid := noUuid, kind, path }] []).size ≤ service.maxBody

/-- Whether a payload can be delivered in a message of its own. -/
def updateFits (service : Service) (data : Bytes) : Bool :=
  (Message.propertyUpdateNotification [{ uuid := noUuid, data }]).size ≤ service.maxBody

/-- Signs a session in. The answer names the version spoken, or 0 if the one asked for is not. -/
def signIn (service : Service) (sender : SessionId) (version refreshRate : UInt32)
    (features : FeatureFlags) : Service × Message :=
  (service.modifySession sender (·.signIn refreshRate features),
    .signinResponse (if version = protocolVersion then protocolVersion else 0))

/-- Creates a property and announces it. -/
def create (service : Service) (order : VisitOrder) (sender : SessionId) (kind : PropertyKind)
    (data : Bytes) (path : String) : Service × Message :=
  if !service.creationFits kind path then (service, .createResponse .malformedPath noUuid)
  else if !service.updateFits data then (service, .createResponse .typeError noUuid)
  else
    let creation := Tree.createWith (fun info => announce order (.created info)) path kind data sender
    let (outcome, tree, sessions) := creation.on (service.tree, service.sessions)
    ({ service with tree, sessions },
      match outcome with
      | .ok info => .createResponse .ok info.uuid
      | .error error => .createResponse (createCode error) noUuid)

/-- Deletes a property and announces that. -/
def delete (service : Service) (order : VisitOrder) (path : String) : Service × Message :=
  let deletion := Tree.deleteWith (fun uuid => announce order (.deleted uuid)) path
  let (outcome, tree, sessions) := deletion.on (service.tree, service.sessions)
  ({ service with tree, sessions },
    match outcome with
    | .ok _ => .deleteResponse .ok
    | .error error => .deleteResponse (deleteCode error))

/-- Writes a value and tells those who watch it. -/
def setValue (service : Service) (order : VisitOrder) (update : ValueUpdate) : Service :=
  if !service.updateFits update.data then service
  else
    let (_, tree, sessions) := Tree.setValue reaction order update.uuid update.data
      (service.tree, service.sessions)
    { service with tree, sessions }

/-- Makes a session watch a value. -/
def subscribe (service : Service) (sender : Session) (uuid : Uuid) : Service × Message :=
  let (outcome, tree) := service.tree.subscribe uuid sender.id sender.observer
  ({ service with tree },
    match outcome with
    | .ok _ => .subscribeResponse .ok
    | .error error => .subscribeResponse (subscribeCode error))

/-- Makes a session no longer watch a value. -/
def unsubscribe (service : Service) (sender : Session) (uuid : Uuid) : Service × Message :=
  let (outcome, tree) := service.tree.unsubscribe uuid sender.id
  ({ service with tree },
    match outcome with
    | .ok _ => .unsubscribeResponse .ok
    | .error error => .unsubscribeResponse (unsubscribeCode error))

/-- The payload of a value, empty if there is no such value. -/
def getValue (service : Service) (uuid : Uuid) : Message :=
  .getValueResponse ((service.tree.getValue uuid).toOption.getD [])

/-- How the property at a path is announced. Without such a property the answer repeats the path and
names no uuid. -/
def lookUp (service : Service) (path : String) : Message :=
  match service.tree.info path with
  | .ok info => .getSpecificMetaResponse info
  | .error _ => .getSpecificMetaResponse { uuid := noUuid, kind := .value, path }

/-- The live endpoint with a uuid and the session that answers its calls, if that can be called. -/
def callee? (service : Service) (uuid : Uuid) : Option (Handle × SessionId) := do
  let endpoint ← (service.tree.findUuid uuid).toOption
  let handler ← (service.tree.property? endpoint).bind (·.handler?)
  let session ← service.listed? handler
  if session.stopped then none else some (endpoint, handler)

/-- Passes a call on to the session that answers it. If there is none, the answer is empty and comes at
once. -/
def call (service : Service) (sender : SessionId) (transaction : TransactionId) (uuid : Uuid)
    (parameter : Bytes) : Service × Option Message :=
  match service.callee? uuid with
  | none => (service, some (.rpcResponse []))
  | some (endpoint, handler) =>
    let request := Message.handleRpcRequest sender transaction uuid parameter
    match Frame.ofMessage request unsolicited with
    | .error _ => (service, none)
    | .ok frame =>
      ((service.addCall sender transaction endpoint).modifySession handler
        (·.push (.frame frame)), none)

/-- Passes the answer to a call on to the caller. An answer to no pending call of this handler is
dropped. -/
def answerCall (service : Service) (handler caller : SessionId) (transaction : TransactionId)
    (returnValue : Bytes) : Service :=
  match service.listed? caller with
  | none => service
  | some _ =>
    let (completed, service) := service.completeCall caller transaction handler
    if completed then service.modifySession caller (·.pushAnswer transaction returnValue)
    else service

/-- Handles a message from a session. Only signing in is possible before having signed in. -/
def handleMessage (service : Service) (order : VisitOrder) (sender : Session)
    (transaction : TransactionId) (message : Message) : Service × Option Message :=
  let answered (outcome : Service × Message) : Service × Option Message :=
    (outcome.1, some outcome.2)
  match sender.signedIn, message with
  | _, .signinRequest version refreshRate features =>
    answered (service.signIn sender.id version refreshRate features)
  | true, .createRequest kind data path => answered (service.create order sender.id kind data path)
  | true, .deleteRequest path => answered (service.delete order path)
  | true, .setValueIndication update => (service.setValue order update, none)
  | true, .subscribeRequest uuid => answered (service.subscribe sender uuid)
  | true, .unsubscribeRequest uuid => answered (service.unsubscribe sender uuid)
  | true, .getValueRequest uuid => (service, some (service.getValue uuid))
  | true, .rpcRequest uuid parameter => service.call sender.id transaction uuid parameter
  | true, .handleRpcResponse caller callerTransaction returnValue =>
    (service.answerCall sender.id caller callerTransaction returnValue, none)
  | true, .getSpecificMetaRequest path => (service, some (service.lookUp path))
  | _, _ => (service, none)

/-- Handles a frame from a session. The answer carries the transaction id of the frame. -/
def handle (service : Service) (order : VisitOrder) (sender : SessionId) (frame : Frame) :
    Service × Option Frame :=
  match service.session? sender, frame.message with
  | some session, .ok message =>
    let (service, answer) := service.handleMessage order session frame.transaction message
    (service, answer.bind fun message => (Frame.ofMessage message frame.transaction).toOption)
  | _, _ => (service, none)

end Service

end SharedTree
