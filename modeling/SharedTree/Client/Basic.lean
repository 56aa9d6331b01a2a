import SharedTree.Client.Directory
import SharedTree.Wire.Assembler

/-!
# Clients

A client asks for things and tells things. Every message it sends has a fresh transaction id; a frame that
comes back with the id of a request that waits answers that request, whatever it carries. Frames with the
id of unsolicited messages become events, and announcements also change the client's directory.

A request waits for its answer from the moment it is made. Its frame is on its way until it has been
written, however long the transport takes, and writing may fail; only then does the request look at the
time and at its answer. An answer is noted when its frame is dispatched, and the request takes it up
afterwards; the two are separate steps.

Closing is in two steps as well. A client that is told to close refuses everything new, but it may still
read. When the reading ends, for this reason or because the peer has hung up, every request that waits is
to fail.

Time is a number of milliseconds; it passes only in `Client.pass`.
-/

namespace SharedTree

/-- How a client behaves. Times are in milliseconds. -/
structure ClientConfig where
  /-- The interval between notifications to ask for. -/
  refreshRate : UInt32 := 100
  features : FeatureFlags := .metaUpdates
  /-- How long a request waits for its answer. -/
  requestTimeout : Nat := 5000
  /-- How long a read waits before it counts as idle. -/
  readTimeout : Nat := 500
  limits : AssemblerLimits := {}
  deriving Inhabited

/-- Something that a client asks for. -/
inductive Question where
  | signIn
  | create (path : String) (kind : PropertyKind) (data : Bytes)
  | delete (path : String)
  | subscribe (uuid : Uuid)
  | unsubscribe (uuid : Uuid)
  | getValue (uuid : Uuid)
  | call (uuid : Uuid) (parameter : Bytes)
  | lookUp (path : String)
  deriving DecidableEq, Repr

/-- Something that a client tells without an answer. -/
inductive Statement where
  | setValue (update : ValueUpdate)
  | answerCall (caller : SessionId) (callerTransaction : TransactionId) (returnValue : Bytes)
  deriving DecidableEq, Repr

/-- What a request yields. -/
inductive Reply where
  | nothing
  | version (version : UInt32)
  | uuid (uuid : Uuid)
  | data (data : Bytes)
  | info (info : Option PropertyInfo)
  deriving DecidableEq, Repr

/-- Why a request fails. -/
inductive ClientError where
  /-- Its frame could not be written. -/
  | transport (reason : String)
  | protocol (error : WireError)
  | disconnected
  | timedOut
  | unexpectedAnswer (kind : MessageKind)
  | createFailed (code : CreateCode)
  | deleteFailed (code : DeleteCode)
  | subscribeFailed (code : SubscribeCode)
  | unsubscribeFailed (code : UnsubscribeCode)
  deriving DecidableEq, Repr

/-- The wording of an error. -/
def ClientError.message : ClientError → String
  | .transport reason => "transport error: " ++ reason
  | .protocol error => "protocol error: " ++ error.message
  | .disconnected => "disconnected"
  | .timedOut => "request timed out"
  | .unexpectedAnswer kind => "unexpected response " ++ kind.name
  | .createFailed code => "create failed: " ++ code.name
  | .deleteFailed code => "delete failed: " ++ code.name
  | .subscribeFailed code => "subscribe failed: " ++ code.name
  | .unsubscribeFailed code => "unsubscribe failed: " ++ code.name

/-- The one-word name of an error. -/
def ClientError.name : ClientError → String
  | .transport _ => "Io"
  | .protocol _ => "Protocol"
  | .disconnected => "Disconnected"
  | .timedOut => "Timeout"
  | .unexpectedAnswer _ => "UnexpectedResponse"
  | .createFailed _ => "CreateFailed"
  | .deleteFailed _ => "DeleteFailed"
  | .subscribeFailed _ => "SubscribeFailed"
  | .unsubscribeFailed _ => "UnsubscribeFailed"

/-- What a client is told without having asked. -/
inductive ClientEvent where
  | changes (creations : List PropertyInfo) (deletions : List Uuid)
  | update (update : ValueUpdate)
  /-- Another client calls an endpoint of this one. -/
  | call (caller : SessionId) (callerTransaction : TransactionId) (uuid : Uuid)
      (parameter : Bytes)
  | disconnected
  deriving DecidableEq, Repr

/-- The message that asks a question. -/
def Question.message (config : ClientConfig) : Question → Message
  | .signIn => .signinRequest protocolVersion config.refreshRate config.features
  | .create path kind data => .createRequest kind data path
  | .delete path => .deleteRequest path
  | .subscribe uuid => .subscribeRequest uuid
  | .unsubscribe uuid => .unsubscribeRequest uuid
  | .getValue uuid => .getValueRequest uuid
  | .call uuid parameter => .rpcRequest uuid parameter
  | .lookUp path => .getSpecificMetaRequest path

/-- The message that tells something. -/
def Statement.message : Statement → Message
  | .setValue update => .setValueIndication update
  | .answerCall caller callerTransaction returnValue =>
    .handleRpcResponse caller callerTransaction returnValue

/-- What a message means as the answer to a question. -/
def Question.reply (question : Question) (answer : Message) : Except ClientError Reply :=
  match question, answer with
  | .signIn, .signinResponse version => .ok (.version version)
  | .create .., .createResponse .ok uuid => .ok (.uuid uuid)
  | .create .., .createResponse code _ => .error (.createFailed code)
  | .delete _, .deleteResponse .ok => .ok .nothing
  | .delete _, .deleteResponse code => .error (.deleteFailed code)
  | .subscribe _, .subscribeResponse .ok => .ok .nothing
  | .subscribe _, .subscribeResponse code => .error (.subscribeFailed code)
  | .unsubscribe _, .unsubscribeResponse .ok => .ok .nothing
  | .unsubscribe _, .unsubscribeResponse code => .error (.unsubscribeFailed code)
  | .getValue _, .getValueResponse data => .ok (.data data)
  | .call .., .rpcResponse returnValue => .ok (.data returnValue)
  | .lookUp _, .getSpecificMetaResponse info =>
    .ok (.info (if info.uuid = noUuid then none else some info))
  | _, other => .error (.unexpectedAnswer other.kind)

/-- The transaction id drawn from a counter, and the counter afterwards. The id of unsolicited messages
is passed over. -/
def drawTransaction (counter : UInt32) : TransactionId × UInt32 :=
  if counter ≠ unsolicited then (counter, counter + 1) else (counter + 1, counter + 2)

/-- A request that has not ended. -/
structure Request where
  question : Question
  transaction : TransactionId
  /-- When it gives up. There is no such time before its frame has been written. -/
  deadline : Option Nat := none
  deriving DecidableEq, Repr

/-- Whether a request gives up at a time. -/
def Request.isDue (request : Request) (now : Nat) : Bool := request.deadline.any (· ≤ now)

/-- One end of a connection to the service. -/
structure Client where
  config : ClientConfig
  /-- From which transaction ids are drawn. -/
  counter : UInt32 := 0
  /-- The requests that wait for a frame, by its transaction id. -/
  waiting : Table TransactionId Nat := .empty
  /-- The requests that have not ended, by number. -/
  requests : Table Nat Request := .empty
  /-- How requests are to end that have not taken that up. -/
  decided : Table Nat (Except ClientError Message) := .empty
  /-- The frames on their way to the transport, by the number of what they carry. -/
  outgoing : Table Nat Frame := .empty
  directory : Directory := .empty
  assembler : Assembler
  /-- Whether the client is closed or about to close. -/
  closed : Bool := false
  /-- Whether the connection is still read. -/
  reading : Bool := true
  now : Nat := 0
  /-- When the read under way began. -/
  readSince : Nat := 0
  /-- The number of the next request. -/
  nextRequest : Nat := 0
  /-- Frames written, oldest first, since the client was last asked. -/
  sent : List Frame := []
  /-- Events, oldest first, since the client was last asked. -/
  events : List ClientEvent := []
  /-- How requests ended, in order, since the client was last asked. -/
  ended : List (Nat × Except ClientError Reply) := []

namespace Client

/-- A client that has just connected. -/
def new (config : ClientConfig) : Client := { config, assembler := .new config.limits }

/-- Whether the client is open. -/
def isConnected (client : Client) : Bool := !client.closed

/-- Notes how a request ended. -/
def finish (client : Client) (request : Nat) (result : Except ClientError Reply) : Client :=
  { client with
    requests := client.requests.erase request
    ended := client.ended ++ [(request, result)] }

/-- Notes how a request is to end. -/
def decide (client : Client) (request : Nat) (outcome : Except ClientError Message) : Client :=
  { client with decided := client.decided.insert request outcome }

/-- Makes a request wait under a transaction id. One that waits under it already is to fail, since nothing
can answer it any more. -/
def enlist (client : Client) (transaction : TransactionId) (request : Nat) : Client :=
  let overtaken :=
    match client.waiting.find? transaction with
    | some former => client.decide former (.error .disconnected)
    | none => client
  { overtaken with waiting := client.waiting.insert transaction request }

/-- Nothing waits under a transaction id any more. -/
def strike (client : Client) (transaction : TransactionId) : Client :=
  { client with waiting := client.waiting.erase transaction }

/-- A request gives up its transaction id. Another one that waits under it is to fail, since nothing can
answer it any more. -/
def disown (client : Client) (transaction : TransactionId) (request : Nat) : Client :=
  let robbed :=
    match client.waiting.find? transaction with
    | some other => if other = request then client else client.decide other (.error .disconnected)
    | none => client
  robbed.strike transaction

/-! ## Sending -/

/-- Makes a request and returns its number. -/
def ask (client : Client) (question : Question) : Nat × Client :=
  let number := client.nextRequest
  let client := { client with nextRequest := number + 1 }
  let (transaction, counter) := drawTransaction client.counter
  let drawn := { client with counter }
  (number,
    match Frame.ofMessage (question.message client.config) transaction with
    | .error error => drawn.finish number (.error (.protocol error))
    | .ok frame =>
      let enlisted := drawn.enlist transaction number
      if client.closed then (enlisted.strike transaction).finish number (.error .disconnected)
      else
        { enlisted with
          requests := enlisted.requests.insert number { question, transaction }
          outgoing := enlisted.outgoing.insert number frame })

/-- Tells something, and returns the number under which the outcome is noted. A closed client draws no
transaction id. -/
def tell (client : Client) (statement : Statement) : Nat × Client :=
  let number := client.nextRequest
  let client := { client with nextRequest := number + 1 }
  (number,
    if client.closed then client.finish number (.error .disconnected)
    else
      let (transaction, counter) := drawTransaction client.counter
      let drawn := { client with counter }
      match Frame.ofMessage statement.message transaction with
      | .error error => drawn.finish number (.error (.protocol error))
      | .ok frame => { drawn with outgoing := drawn.outgoing.insert number frame })

/-- A frame has been written. A request that it carries gives up after a while from now on; what it only
tells has been told. -/
def written (client : Client) (number : Nat) : Client :=
  match client.outgoing.find? number with
  | none => client
  | some frame =>
    let relieved :=
      { client with outgoing := client.outgoing.erase number, sent := client.sent ++ [frame] }
    if client.requests.contains number then
      let deadline := some (client.now + client.config.requestTimeout)
      { relieved with
        requests := client.requests.modify number fun request => { request with deadline } }
    else relieved.finish number (.ok .nothing)

/-- A frame cannot be written. What it carries fails, even a request that is to end otherwise. -/
def unwritable (client : Client) (number : Nat) (reason : String) : Client :=
  match client.outgoing.find? number with
  | none => client
  | some _ =>
    let struck :=
      match client.requests.find? number with
      | some request => client.disown request.transaction number
      | none => client
    { struck with
      outgoing := struck.outgoing.erase number
      decided := struck.decided.erase number }.finish number (.error (.transport reason))

/-! ## Receiving -/

/-- Takes an unsolicited message. -/
def noteUnsolicited (client : Client) : Message → Client
  | .metaUpdateNotification creations deletions =>
    { client with
      directory := client.directory.apply creations deletions
      events := client.events ++ [.changes creations deletions] }
  | .propertyUpdateNotification updates =>
    { client with events := client.events ++ updates.map .update }
  | .handleRpcRequest caller callerTransaction uuid parameter =>
    { client with events := client.events ++ [.call caller callerTransaction uuid parameter] }
  | _ => client

/-- Takes a frame. One that carries no message, and one that answers no request, are dropped. -/
def dispatch (client : Client) (frame : Frame) : Client :=
  match frame.message with
  | .error _ => client
  | .ok message =>
    if frame.transaction = unsolicited then client.noteUnsolicited message
    else
      match client.waiting.find? frame.transaction with
      | none => client
      | some request =>
        { client with waiting := client.waiting.erase frame.transaction }.decide request
          (.ok message)

/-- Tells the client to close. What has been asked goes on until the reading ends. -/
def close (client : Client) : Client := { client with closed := true }

/-- The reading ends: the client is closed, every request that waits is to fail, and no event follows. -/
def endReading (client : Client) : Client :=
  if client.reading then
    { client with
      closed := true
      reading := false
      decided :=
        client.waiting.values.foldl
          (fun decided request => decided.insert request (.error .disconnected)) client.decided
      waiting := .empty
      events := client.events ++ [.disconnected] }
  else client

/-- How a request ends that goes on: its frame has been written, and it is known how it is to end. -/
def outcome? (client : Client) (number : Nat) : Option (Except ClientError Reply) :=
  if client.outgoing.contains number then none
  else
    match client.requests.find? number, client.decided.find? number with
    | some request, some outcome => some (outcome.bind request.question.reply)
    | _, _ => none

/-- A request takes up how it is to end, if it can. What was looked up goes into the directory. -/
def takeUp (client : Client) (number : Nat) : Client :=
  match client.outcome? number with
  | none => client
  | some result =>
    let learned :=
      match result with
      | .ok (.info (some info)) => { client with directory := client.directory.insert info }
      | _ => client
    { learned with decided := client.decided.erase number }.finish number result

/-- Ends a request whose deadline has come, unless it is known how it is to end. -/
def timeOut (client : Client) (number : Nat) : Client :=
  match client.requests.find? number with
  | none => client
  | some request =>
    if request.isDue client.now && !client.decided.contains number then
      (client.strike request.transaction).finish number (.error .timedOut)
    else client

/-- Every frame that is on its way is written. -/
def flush (client : Client) : Client := client.outgoing.keys.foldl written client

/-- Every request that can takes up how it is to end. -/
def resume (client : Client) : Client := client.decided.keys.foldl takeUp client

/-- Ends the requests whose deadline has come. -/
def expire (client : Client) : Client := client.requests.keys.foldl timeOut client

/-- Lets everything happen that takes no time. The transport takes every frame. -/
def settle (client : Client) : Client := client.flush.resume.expire

/-- Takes the events of one read. -/
def dispatchAll (client : Client) (events : List AssemblerEvent) : Client :=
  events.foldl
    (fun client event =>
      match event with
      | .completed frame => client.dispatch frame
      | .gaveUp _ => client)
    client

/-- Takes what one read delivered, and lets the requests take up their answers. -/
def receive (client : Client) (bytes : Bytes) : Client :=
  if !client.reading || bytes.isEmpty then client.settle
  else
    let (assembler, events) := client.assembler.accept bytes
    ({ client with assembler, readSince := client.now }.dispatchAll events).settle

/-! ## Time -/

/-- Lets a number of reads end without bytes. -/
def idleReads : Nat → Assembler → Assembler
  | 0, assembler => assembler
  | reads + 1, assembler => idleReads reads assembler.idle.1

/-- Lets time pass. -/
def pass (client : Client) (milliseconds : Nat) : Client :=
  let now := client.now + milliseconds
  let reads := if client.reading then (now - client.readSince) / client.config.readTimeout else 0
  { client with
    now
    readSince := client.readSince + reads * client.config.readTimeout
    assembler := idleReads reads client.assembler }.settle

/-- Forgets what has been written, what events there were and how requests ended. -/
def clearReports (client : Client) : Client :=
  { client with sent := [], events := [], ended := [] }

/-- A client in print. -/
def describe (client : Client) : String :=
  "Client \x7b connected: " ++ toString client.isConnected ++
    ", pending: " ++ toString client.waiting.size ++ ", .. \x7d"

end Client

end SharedTree
