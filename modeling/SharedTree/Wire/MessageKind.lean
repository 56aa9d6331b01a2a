import SharedTree.Wire.Codec

/-!
# Message kinds

Every message starts with a one-byte tag that says what kind it is. Tags are consecutive from `0x2a` on,
in the order in which the kinds are listed here.
-/

namespace SharedTree

/-- What a message is for. -/
inductive MessageKind where
  | signinRequest
  | signinResponse
  | createRequest
  | createResponse
  | metaUpdateNotification
  | deleteRequest
  | deleteResponse
  | setValueIndication
  | subscribeRequest
  | subscribeResponse
  | propertyUpdateNotification
  | unsubscribeRequest
  | unsubscribeResponse
  | getValueRequest
  | getValueResponse
  | rpcRequest
  | rpcResponse
  | handleRpcRequest
  | handleRpcResponse
  | getSpecificMetaRequest
  | getSpecificMetaResponse
  deriving DecidableEq, Repr

namespace MessageKind

/-- Every kind, in the order of the tags. -/
def all : List MessageKind :=
  [.signinRequest, .signinResponse, .createRequest, .createResponse, .metaUpdateNotification,
    .deleteRequest, .deleteResponse, .setValueIndication, .subscribeRequest, .subscribeResponse,
    .propertyUpdateNotification, .unsubscribeRequest, .unsubscribeResponse, .getValueRequest,
    .getValueResponse, .rpcRequest, .rpcResponse, .handleRpcRequest, .handleRpcResponse,
    .getSpecificMetaRequest, .getSpecificMetaResponse]

/-- The tag of the first kind. -/
def firstTag : Nat := 0x2a

/-- The byte that stands for a kind. -/
def tag (kind : MessageKind) : UInt8 := UInt8.ofNat (firstTag + all.idxOf kind)

/-- The kind that a byte stands for. -/
def ofTag (tag : UInt8) : Except WireError MessageKind :=
  match if firstTag ≤ tag.toNat then all[tag.toNat - firstTag]? else none with
  | some kind => .ok kind
  | none => .error (.unknownKind tag)

/-- Whether the service sends such a message without being asked. -/
def isUnsolicited : MessageKind → Bool
  | .metaUpdateNotification | .propertyUpdateNotification | .handleRpcRequest => true
  | _ => false

/-- The name of a kind in print. -/
def name : MessageKind → String
  | .signinRequest => "SigninRequest"
  | .signinResponse => "SigninResponse"
  | .createRequest => "CreateRequest"
  | .createResponse => "CreateResponse"
  | .metaUpdateNotification => "MetaUpdateNotification"
  | .deleteRequest => "DeleteRequest"
  | .deleteResponse => "DeleteResponse"
  | .setValueIndication => "SetValueIndication"
  | .subscribeRequest => "SubscribePropertyUpdateRequest"
  | .subscribeResponse => "SubscribePropertyUpdateResponse"
  | .propertyUpdateNotification => "PropertyUpdateNotification"
  | .unsubscribeRequest => "UnsubscribePropertyUpdateRequest"
  | .unsubscribeResponse => "UnsubscribePropertyUpdateResponse"
  | .getValueRequest => "GetValueRequest"
  | .getValueResponse => "GetValueResponse"
  | .rpcRequest => "RpcRequest"
  | .rpcResponse => "RpcResponse"
  | .handleRpcRequest => "HandleRpcRequest"
  | .handleRpcResponse => "HandleRpcResponse"
  | .getSpecificMetaRequest => "GetSpecificMetaRequest"
  | .getSpecificMetaResponse => "GetSpecificMetaResponse"

/-- The name of the messages of a kind in print, which is the kind's except that messages about
subscriptions have shorter names. -/
def messageName : MessageKind → String
  | .subscribeRequest => "SubscribeRequest"
  | .subscribeResponse => "SubscribeResponse"
  | .unsubscribeRequest => "UnsubscribeRequest"
  | .unsubscribeResponse => "UnsubscribeResponse"
  | kind => kind.name

/-- The tag of a kind stands for that kind. -/
@[simp] theorem ofTag_tag (kind : MessageKind) : ofTag kind.tag = .ok kind := by
  cases kind <;> rfl

end MessageKind

end SharedTree
