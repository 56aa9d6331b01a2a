import SharedTree.Wire.MessageKind
import SharedTree.Wire.Record

/-!
# Messages

A message is one of 21 kinds with the fields of that kind. The layout of a body is one table,
`MessageKind.layout`: it names the codec of each kind's fields, and writing, reading and measuring bodies
all go through it. Bytes that follow the last field of a body are ignored.
-/

namespace SharedTree

/-- Anything that client and service say to each other. -/
inductive Message where
  | signinRequest (version refreshRate : UInt32) (features : FeatureFlags)
  | signinResponse (version : UInt32)
  | createRequest (kind : PropertyKind) (data : Bytes) (path : String)
  | createResponse (code : CreateCode) (uuid : Uuid)
  | metaUpdateNotification (creations : List PropertyInfo) (deletions : List Uuid)
  | deleteRequest (path : String)
  | deleteResponse (code : DeleteCode)
  | setValueIndication (update : ValueUpdate)
  | subscribeRequest (uuid : Uuid)
  | subscribeResponse (code : SubscribeCode)
  | propertyUpdateNotification (updates : List ValueUpdate)
  | unsubscribeRequest (uuid : Uuid)
  | unsubscribeResponse (code : UnsubscribeCode)
  | getValueRequest (uuid : Uuid)
  | getValueResponse (data : Bytes)
  | rpcRequest (uuid : Uuid) (parameter : Bytes)
  | rpcResponse (returnValue : Bytes)
  | handleRpcRequest (caller : SessionId) (callerTransaction : TransactionId) (uuid : Uuid)
      (parameter : Bytes)
  | handleRpcResponse (caller : SessionId) (callerTransaction : TransactionId)
      (returnValue : Bytes)
  | getSpecificMetaRequest (path : String)
  | getSpecificMetaResponse (info : PropertyInfo)
  deriving DecidableEq, Repr

namespace MessageKind

/-- The fields of a message of each kind, in order. -/
abbrev Fields : MessageKind → Type
  | .signinRequest => UInt32 × UInt32 × FeatureFlags
  | .signinResponse => UInt32
  | .createRequest => PropertyKind × Bytes × String
  | .createResponse => CreateCode × Uuid
  | .metaUpdateNotification => List PropertyInfo × List Uuid
  | .deleteRequest => String
  | .deleteResponse => DeleteCode
  | .setValueIndication => ValueUpdate
  | .subscribeRequest => Uuid
  | .subscribeResponse => SubscribeCode
  | .propertyUpdateNotification => List ValueUpdate
  | .unsubscribeRequest => Uuid
  | .unsubscribeResponse => UnsubscribeCode
  | .getValueRequest => Uuid
  | .getValueResponse => Bytes
  | .rpcRequest => Uuid × Bytes
  | .rpcResponse => Bytes
  | .handleRpcRequest => SessionId × TransactionId × Uuid × Bytes
  | .handleRpcResponse => SessionId × TransactionId × Bytes
  | .getSpecificMetaRequest => String
  | .getSpecificMetaResponse => PropertyInfo

/-- The written form of the fields of each kind. -/
def layout : (kind : MessageKind) → Codec kind.Fields
  | .signinRequest => Codec.word32.pair (Codec.word32.pair FeatureFlags.codec)
  | .signinResponse => .word32
  | .createRequest => PropertyKind.codec.pair (Codec.blob.pair .text)
  | .createResponse => CreateCode.codec.pair .word32
  | .metaUpdateNotification => (Codec.array PropertyInfo.codec).pair (.array .word32)
  | .deleteRequest => .text
  | .deleteResponse => DeleteCode.codec
  | .setValueIndication => ValueUpdate.codec
  | .subscribeRequest => .word32
  | .subscribeResponse => SubscribeCode.codec
  | .propertyUpdateNotification => .array ValueUpdate.codec
  | .unsubscribeRequest => .word32
  | .unsubscribeResponse => UnsubscribeCode.codec
  | .getValueRequest => .word32
  | .getValueResponse => .blob
  | .rpcRequest => Codec.word32.pair .blob
  | .rpcResponse => .blob
  | .handleRpcRequest => Codec.word64.pair (Codec.word32.pair (Codec.word32.pair .blob))
  | .handleRpcResponse => Codec.word64.pair (Codec.word32.pair .blob)
  | .getSpecificMetaRequest => .text
  | .getSpecificMetaResponse => PropertyInfo.codec

end MessageKind

namespace Message

/-- The kind of a message. -/
def kind : Message → MessageKind
  | .signinRequest .. => .signinRequest
  | .signinResponse .. => .signinResponse
  | .createRequest .. => .createRequest
  | .createResponse .. => .createResponse
  | .metaUpdateNotification .. => .metaUpdateNotification
  | .deleteRequest .. => .deleteRequest
  | .deleteResponse .. => .deleteResponse
  | .setValueIndication .. => .setValueIndication
  | .subscribeRequest .. => .subscribeRequest
  | .subscribeResponse .. => .subscribeResponse
  | .propertyUpdateNotification .. => .propertyUpdateNotification
  | .unsubscribeRequest .. => .unsubscribeRequest
  | .unsubscribeResponse .. => .unsubscribeResponse
  | .getValueRequest .. => .getValueRequest
  | .getValueResponse .. => .getValueResponse
  | .rpcRequest .. => .rpcRequest
  | .rpcResponse .. => .rpcResponse
  | .handleRpcRequest .. => .handleRpcRequest
  | .handleRpcResponse .. => .handleRpcResponse
  | .getSpecificMetaRequest .. => .getSpecificMetaRequest
  | .getSpecificMetaResponse .. => .getSpecificMetaResponse

/-- The fields of a message. -/
def fields : (message : Message) → message.kind.Fields
  | .signinRequest version refreshRate features => (version, refreshRate, features)
  | .signinResponse version => version
  | .createRequest kind data path => (kind, data, path)
  | .createResponse code uuid => (code, uuid)
  | .metaUpdateNotification creations deletions => (creations, deletions)
  | .deleteRequest path => path
  | .deleteResponse code => code
  | .setValueIndication update => update
  | .subscribeRequest uuid => uuid
  | .subscribeResponse code => code
  | .propertyUpdateNotification updates => updates
  | .unsubscribeRequest uuid => uuid
  | .unsubscribeResponse code => code
  | .getValueRequest uuid => uuid
  | .getValueResponse data => data
  | .rpcRequest uuid parameter => (uuid, parameter)
  | .rpcResponse returnValue => returnValue
  | .handleRpcRequest caller callerTransaction uuid parameter =>
    (caller, callerTransaction, uuid, parameter)
  | .handleRpcResponse caller callerTransaction returnValue =>
    (caller, callerTransaction, returnValue)
  | .getSpecificMetaRequest path => path
  | .getSpecificMetaResponse info => info

/-- The message of a kind with the given fields. -/
def ofFields : (kind : MessageKind) → kind.Fields → Message
  | .signinRequest, (version, refreshRate, features) => .signinRequest version refreshRate features
  | .signinResponse, version => .signinResponse version
  | .createRequest, (kind, data, path) => .createRequest kind data path
  | .createResponse, (code, uuid) => .createResponse code uuid
  | .metaUpdateNotification, (creations, deletions) => .metaUpdateNotification creations deletions
  | .deleteRequest, path => .deleteRequest path
  | .deleteResponse, code => .deleteResponse code
  | .setValueIndication, update => .setValueIndication update
  | .subscribeRequest, uuid => .subscribeRequest uuid
  | .subscribeResponse, code => .subscribeResponse code
  | .propertyUpdateNotification, updates => .propertyUpdateNotification updates
  | .unsubscribeRequest, uuid => .unsubscribeRequest uuid
  | .unsubscribeResponse, code => .unsubscribeResponse code
  | .getValueRequest, uuid => .getValueRequest uuid
  | .getValueResponse, data => .getValueResponse data
  | .rpcRequest, (uuid, parameter) => .rpcRequest uuid parameter
  | .rpcResponse, returnValue => .rpcResponse returnValue
  | .handleRpcRequest, (caller, callerTransaction, uuid, parameter) =>
    .handleRpcRequest caller callerTransaction uuid parameter
  | .handleRpcResponse, (caller, callerTransaction, returnValue) =>
    .handleRpcResponse caller callerTransaction returnValue
  | .getSpecificMetaRequest, path => .getSpecificMetaRequest path
  | .getSpecificMetaResponse, info => .getSpecificMetaResponse info

/-- Number of bytes of a message's body. -/
def size (message : Message) : Nat := message.kind.layout.size message.fields

/-- The bytes of a message's body. -/
def encode (message : Message) : Bytes := message.kind.layout.encode message.fields

/-- Reads the body of a message of the given kind. -/
def reader (kind : MessageKind) : Reader Message := return ofFields kind (← kind.layout.read)

/-- The message of the given kind with the given body. -/
def decode (kind : MessageKind) (body : Bytes) : Except WireError Message :=
  (reader kind).value body

/-- A message is its kind with its fields. -/
@[simp] theorem ofFields_fields (message : Message) :
    ofFields message.kind message.fields = message := by cases message <;> rfl

@[simp] theorem kind_ofFields (kind : MessageKind) (fields : kind.Fields) :
    (ofFields kind fields).kind = kind := by cases kind <;> rfl

end Message

end SharedTree
