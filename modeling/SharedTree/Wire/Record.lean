import SharedTree.Basic
import SharedTree.Wire.Codec

/-!
# The vocabulary of messages

The kinds of property, the answer codes, the optional features of a session, and the two records that
notifications are made of: what a property is announced as, and a new payload of a value. Each has one
codec.
-/

namespace SharedTree

/-- What a property is. -/
inductive PropertyKind where
  /-- A payload that can be read, written and watched. -/
  | value
  /-- A container of other properties. -/
  | node
  /-- An endpoint whose calls its creator answers. -/
  | rpc
  deriving DecidableEq, Repr, Inhabited

/-- How a request to create a property went. -/
inductive CreateCode where
  | ok | parentNotFound | malformedPath | alreadyExist | typeError
  deriving DecidableEq, Repr

/-- How a request to delete a property went. -/
inductive DeleteCode where
  | ok | objectNotFound | notPermitted | notEmpty | malformedPath
  deriving DecidableEq, Repr

/-- How a request to watch a value went. -/
inductive SubscribeCode where
  | ok | uuidNotFound | notAValue
  deriving DecidableEq, Repr

/-- How a request to stop watching a value went. -/
inductive UnsubscribeCode where
  | ok | notSubscribed | notAValue | uuidNotFound
  deriving DecidableEq, Repr

/-- The optional behaviours a client asks for when it signs in. Bits without a meaning are kept. -/
structure FeatureFlags where
  bits : UInt64
  deriving DecidableEq, Repr, Inhabited

/-- The identity of a property as clients are told it. -/
structure PropertyInfo where
  uuid : Uuid
  kind : PropertyKind
  path : String
  deriving DecidableEq, Repr

/-- A new payload of a value. -/
structure ValueUpdate where
  uuid : Uuid
  data : Bytes
  deriving DecidableEq, Repr

/-- Written as one byte. -/
def PropertyKind.codec : Codec PropertyKind :=
  .choice "property type" [.value, .node, .rpc]

/-- Its name in print. -/
def PropertyKind.name : PropertyKind → String
  | .value => "Value"
  | .node => "Node"
  | .rpc => "Rpc"

/-- Written as one byte. -/
def CreateCode.codec : Codec CreateCode :=
  .choice "create response" [.ok, .parentNotFound, .malformedPath, .alreadyExist, .typeError]

/-- Its name in print. -/
def CreateCode.name : CreateCode → String
  | .ok => "Ok"
  | .parentNotFound => "ParentNotFound"
  | .malformedPath => "MalformedPath"
  | .alreadyExist => "AlreadyExist"
  | .typeError => "TypeError"

/-- Written as one byte. -/
def DeleteCode.codec : Codec DeleteCode :=
  .choice "delete response" [.ok, .objectNotFound, .notPermitted, .notEmpty, .malformedPath]

/-- Its name in print. -/
def DeleteCode.name : DeleteCode → String
  | .ok => "Ok"
  | .objectNotFound => "ObjectNotFound"
  | .notPermitted => "NotPermitted"
  | .notEmpty => "NotEmpty"
  | .malformedPath => "MalformedPath"

/-- Written as one byte. -/
def SubscribeCode.codec : Codec SubscribeCode :=
  .choice "subscribe response" [.ok, .uuidNotFound, .notAValue]

/-- Its name in print. -/
def SubscribeCode.name : SubscribeCode → String
  | .ok => "Ok"
  | .uuidNotFound => "UuidNotFound"
  | .notAValue => "NotAValue"

/-- Written as one byte. -/
def UnsubscribeCode.codec : Codec UnsubscribeCode :=
  .choice "unsubscribe response" [.ok, .notSubscribed, .notAValue, .uuidNotFound]

/-- Its name in print. -/
def UnsubscribeCode.name : UnsubscribeCode → String
  | .ok => "Ok"
  | .notSubscribed => "NotSubscribed"
  | .notAValue => "NotAValue"
  | .uuidNotFound => "UuidNotFound"

namespace FeatureFlags

/-- Written as one 64-bit word. -/
def codec : Codec FeatureFlags := Codec.word64.as FeatureFlags.mk FeatureFlags.bits

/-- The one feature with a meaning: announcements of created and deleted properties. -/
def metaUpdates : FeatureFlags := ⟨1⟩

/-- Whether announcements are asked for. -/
def hasMetaUpdates (features : FeatureFlags) : Bool := features.bits.toNat % 2 = 1

end FeatureFlags

/-- Uuid, kind and path. -/
def PropertyInfo.codec : Codec PropertyInfo :=
  (Codec.word32.pair (PropertyKind.codec.pair .text)).as
    (fun (uuid, kind, path) => ⟨uuid, kind, path⟩) (fun info => (info.uuid, info.kind, info.path))

/-- Uuid and payload. -/
def ValueUpdate.codec : Codec ValueUpdate :=
  (Codec.word32.pair .blob).as (fun (uuid, data) => ⟨uuid, data⟩)
    (fun update => (update.uuid, update.data))

end SharedTree
