import SharedTree.Table
import SharedTree.Wire.Record

/-!
# Properties

A property has a uuid, a name and a content: a node contains other properties, a value has a payload and
the observers that watch it, an rpc endpoint has the session that answers its calls.

Uuids are reused, so they do not identify a property for good. A `Handle` does: every property gets a new
one when it is created. Links between properties are handles.
-/

namespace SharedTree

/-- Identity of a property, never given twice. -/
abbrev Handle := Nat

/-- Identity of something that watches values. -/
abbrev Observer := Nat

/-- What a property consists of, by its kind. -/
inductive Content where
  /-- The properties it contains, by name. -/
  | node (children : Table String Handle)
  /-- Its payload, and who watches it, by the subscriber's number. -/
  | value (payload : Bytes) (watchers : Table SessionId Observer)
  /-- The session that answers its calls. -/
  | rpc (handler : SessionId)

/-- The kind of a content. -/
def Content.kind : Content → PropertyKind
  | .node _ => .node
  | .value .. => .value
  | .rpc _ => .rpc

/-- The content of a new property of the given kind. -/
def Content.new (kind : PropertyKind) (payload : Bytes) (owner : SessionId) : Content :=
  match kind with
  | .node => .node .empty
  | .value => .value payload .empty
  | .rpc => .rpc owner

/-- One entry of the tree. -/
structure Property where
  uuid : Uuid
  /-- The last segment of its path, empty for the root. -/
  name : String
  /-- The node it was created in; the root has none. -/
  parent : Option Handle
  content : Content
  /-- How many callers hold on to it. -/
  holders : Nat := 0
  /-- Whether it is a node that has been deleted, in which nothing is created any more. -/
  detached : Bool := false

namespace Property

/-- What the property is. -/
def kind (property : Property) : PropertyKind := property.content.kind

/-- The properties it contains, if it is a node. -/
def children? (property : Property) : Option (Table String Handle) :=
  match property.content with
  | .node children => some children
  | _ => none

/-- Its payload, if it is a value. -/
def payload? (property : Property) : Option Bytes :=
  match property.content with
  | .value payload _ => some payload
  | _ => none

/-- Who watches it, if it is a value. -/
def watchers? (property : Property) : Option (Table SessionId Observer) :=
  match property.content with
  | .value _ watchers => some watchers
  | _ => none

/-- Who answers its calls, if it is an rpc endpoint. -/
def handler? (property : Property) : Option SessionId :=
  match property.content with
  | .rpc handler => some handler
  | _ => none

/-- The names of what it contains, in the order of their bytes. -/
def childNames (property : Property) : List String :=
  match property.children? with
  | some children => children.keys.mergeSort fun left right => !decide (right < left)
  | none => []

/-- The property with its children changed, if it is a node. -/
def mapChildren (change : Table String Handle → Table String Handle) (property : Property) :
    Property :=
  match property.content with
  | .node children => { property with content := .node (change children) }
  | _ => property

/-- The property after its deletion. -/
def detach (property : Property) : Property :=
  match property.content with
  | .node _ => { property with detached := true }
  | _ => property

/-- The property with its payload replaced, if it is a value. -/
def withPayload (payload : Bytes) (property : Property) : Property :=
  match property.content with
  | .value _ watchers => { property with content := .value payload watchers }
  | _ => property

/-- The property with its watchers changed, if it is a value. -/
def mapWatchers (change : Table SessionId Observer → Table SessionId Observer)
    (property : Property) : Property :=
  match property.content with
  | .value payload watchers => { property with content := .value payload (change watchers) }
  | _ => property

/-- A value in print. -/
def describeValue (payload : Bytes) (watchers : Table SessionId Observer) : String :=
  "ValueData \x7b len: " ++ toString payload.length ++
    ", watchers: " ++ toString watchers.size ++ " \x7d"

end Property

end SharedTree
