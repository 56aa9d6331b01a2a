import SharedTree.Operation
import SharedTree.Path
import SharedTree.Tree.Property
import SharedTree.UuidPool

/-!
# The property tree

The tree starts from an unnamed root node. A property is *live* while the tree contains it; a deleted
property goes on existing for as long as somebody holds it, and its uuid is not given to another property
before it is gone. The tree keeps every existing property under its handle, and an index from the uuids of
live properties, the root excepted, to their handles.

Operations check a request and change the tree in the order in which their definitions say so. When more
than one thing is wrong with a request, the error is therefore the first that applies.
-/

namespace SharedTree

/-- Why an operation on the tree fails. -/
inductive TreeError where
  | malformedPath
  | parentNotFound
  | alreadyExists
  /-- Only values are created with a payload. -/
  | payloadNotAllowed
  | objectNotFound
  | notEmpty
  /-- The root cannot be deleted. -/
  | notPermitted
  | uuidNotFound (uuid : Uuid)
  | notAValue (uuid : Uuid)
  | notSubscribed (uuid : Uuid)
  | uuidsExhausted
  deriving DecidableEq, Repr

/-- The wording of an error. -/
def TreeError.message : TreeError → String
  | .malformedPath => "malformed path"
  | .parentNotFound => "parent not found"
  | .alreadyExists => "property already exists"
  | .payloadNotAllowed => "payload not allowed for this property type"
  | .objectNotFound => "object not found"
  | .notEmpty => "node is not empty"
  | .notPermitted => "operation not permitted"
  | .uuidNotFound uuid => s!"uuid {uuid.toNat} not found"
  | .notAValue uuid => s!"uuid {uuid.toNat} is not a value"
  | .notSubscribed uuid => s!"not subscribed to uuid {uuid.toNat}"
  | .uuidsExhausted => "uuid space exhausted"

/-- The one-word name of an error. -/
def TreeError.name : TreeError → String
  | .malformedPath => "MalformedPath"
  | .parentNotFound => "ParentNotFound"
  | .alreadyExists => "AlreadyExist"
  | .payloadNotAllowed => "TypeError"
  | .objectNotFound => "ObjectNotFound"
  | .notEmpty => "NotEmpty"
  | .notPermitted => "NotPermitted"
  | .uuidNotFound _ => "UuidNotFound"
  | .notAValue _ => "NotAValue"
  | .notSubscribed _ => "NotSubscribed"
  | .uuidsExhausted => "UuidExhausted"

/-- The shared tree of properties. -/
structure Tree where
  /-- Every existing property: the root, the live ones and the deleted ones that are held. -/
  properties : Table Handle Property
  /-- The live properties by uuid, without the root. -/
  index : Table Uuid Handle
  /-- Where new uuids come from. -/
  pool : UuidPool Handle
  /-- The handle of the next property. -/
  nextHandle : Handle

namespace Tree

/-- The handle of the root. -/
def rootHandle : Handle := 0

/-- The root before anything is created in it. -/
def newRoot : Property :=
  { uuid := noUuid, name := "", parent := none, content := .node .empty }

/-- The tree that holds only the root. -/
def new : Tree where
  properties := Table.empty.insert rootHandle newRoot
  index := .empty
  pool := .fresh
  nextHandle := rootHandle + 1

instance : Inhabited Tree := ⟨new⟩

/-- Number of live properties, without the root. -/
def size (tree : Tree) : Nat := tree.index.size

/-- Whether only the root is live. -/
def isEmpty (tree : Tree) : Bool := tree.index.isEmpty

/-- The property with a handle, if it still exists. -/
def property? (tree : Tree) (handle : Handle) : Option Property := tree.properties.find? handle

/-- Whether the property with a handle still exists. -/
def exists? (tree : Tree) (handle : Handle) : Bool := tree.properties.contains handle

/-- Whether the tree contains the property with a handle. -/
def isLive (tree : Tree) (handle : Handle) : Bool :=
  handle = rootHandle ||
    match tree.property? handle with
    | some property => tree.index.find? property.uuid = some handle
    | none => false

/-! ## Finding properties -/

/-- The children of the node with a handle. -/
def children? (tree : Tree) (handle : Handle) : Option (Table String Handle) :=
  (tree.property? handle).bind (·.children?)

/-- Whether the property with a handle is a deleted node. -/
def isDetached (tree : Tree) (handle : Handle) : Bool :=
  (tree.property? handle).any (·.detached)

/-- What the node with a handle contains under a name. -/
def child? (tree : Tree) (handle : Handle) (name : String) : Option Handle :=
  (tree.children? handle).bind (·.find? name)

/-- The live property at the end of a chain of names from the root. -/
def resolve (tree : Tree) (segments : List String) : Option Handle :=
  segments.foldlM tree.child? rootHandle

/-- The live property at a path. -/
def find (tree : Tree) (path : String) : Except TreeError Handle :=
  match Path.segments? path with
  | none => .error .malformedPath
  | some segments =>
    match tree.resolve segments with
    | none => .error .objectNotFound
    | some handle => .ok handle

/-- The live property with a uuid, which is never the root. -/
def findUuid (tree : Tree) (uuid : Uuid) : Except TreeError Handle :=
  match tree.index.find? uuid with
  | none => .error .objectNotFound
  | some handle => .ok handle

/-- The names from the topmost ancestor that still exists down to a property. The count bounds how many
ancestors are looked at. -/
def namesDown (tree : Tree) : Nat → Handle → List String
  | 0, _ => []
  | bound + 1, handle =>
    match tree.property? handle with
    | none => []
    | some property =>
      (match property.parent with
        | none => []
        | some parent => tree.namesDown bound parent) ++ [property.name]

/-- The path of an existing property, rebuilt from the links to parents. It is cut short at the first
ancestor that no longer exists. A property is created after its parent, so its handle bounds the number
of its ancestors. -/
def pathOf (tree : Tree) (handle : Handle) : String :=
  Path.ofSegments ((tree.namesDown (handle + 1) handle).filter (· ≠ ""))

/-- How the property with a handle is announced. -/
def info? (tree : Tree) (handle : Handle) : Option PropertyInfo :=
  (tree.property? handle).map fun property =>
    { uuid := property.uuid, kind := property.kind, path := tree.pathOf handle }

/-- How the live property at a path is announced. -/
def info (tree : Tree) (path : String) : Except TreeError PropertyInfo := do
  match tree.info? (← tree.find path) with
  | some info => return info
  | none => throw .objectNotFound

/-- The handles of a property and all below it, each before its children, and siblings by the bytes of
their names. The count bounds the depth. -/
def walkFrom (tree : Tree) : Nat → Handle → List Handle
  | 0, _ => []
  | bound + 1, handle =>
    match tree.property? handle with
    | none => []
    | some property =>
      handle :: property.childNames.flatMap fun name =>
        match tree.child? handle name with
        | some child => tree.walkFrom bound child
        | none => []

/-- The handles of all live properties, the root first. -/
def walk (tree : Tree) : List Handle := tree.walkFrom (tree.size + 1) rootHandle

/-! ## Creating and deleting -/

/-- Puts a new property under a name of a node. -/
def addChild (tree : Tree) (parent : Handle) (name : String) (content : Content) (uuid : Uuid) :
    Tree :=
  { tree with
    properties :=
      (tree.properties.modify parent (·.mapChildren (·.insert name tree.nextHandle))).insert
        tree.nextHandle { uuid, name, parent := some parent, content }
    nextHandle := tree.nextHandle + 1 }

/-- Marks a property as deleted, if it is a node. -/
def markDetached (tree : Tree) (handle : Handle) : Tree :=
  { tree with properties := tree.properties.modify handle (·.detach) }

/-- Takes a name off a node. -/
def removeChild (tree : Tree) (parent : Handle) (name : String) : Tree :=
  { tree with properties := tree.properties.modify parent (·.mapChildren (·.erase name)) }

/-- Makes a property known by its uuid. -/
def register (tree : Tree) (uuid : Uuid) (handle : Handle) : Tree :=
  { tree with index := tree.index.insert uuid handle }

/-- Makes a uuid that of no live property. -/
def unregister (tree : Tree) (uuid : Uuid) : Tree := { tree with index := tree.index.erase uuid }

/-- Returns the uuid of a deleted property to the pool. -/
def giveBack (tree : Tree) (uuid : Uuid) (handle : Handle) : Tree :=
  { tree with pool := tree.pool.giveBack uuid handle }

/-- A deleted property is gone unless somebody holds it. -/
def collect (tree : Tree) (handle : Handle) : Tree :=
  match tree.property? handle with
  | none => tree
  | some property =>
    if property.holders = 0 then { tree with properties := tree.properties.erase handle } else tree

section Operations

open Operation

variable {ω : Type}

/-- Changes the tree and nothing outside. -/
def change (step : Tree → Tree) : Operation TreeError (Tree × ω) Unit :=
  modify fun (tree, outside) => (step tree, outside)

/-- Changes what is outside the tree. -/
def announce (step : ω → ω) : Operation TreeError (Tree × ω) Unit :=
  modify fun (tree, outside) => (tree, step outside)

/-- Takes the uuid for a new property. -/
def takeUuid : Operation TreeError (Tree × ω) Uuid := do
  let (tree, outside) ← get
  let (uuid?, pool) := tree.pool.take tree.exists?
  set (({ tree with pool }, outside) : Tree × ω)
  require uuid? .uuidsExhausted

/-- Creates a property and announces it, once it is part of the tree. The owner becomes the handler of an
rpc endpoint. -/
def createWith (announcing : PropertyInfo → ω → ω) (path : String) (kind : PropertyKind)
    (payload : Bytes) (owner : SessionId) : Operation TreeError (Tree × ω) PropertyInfo := do
  let segments ← require (Path.segments? path) .malformedPath
  let name ← require segments.getLast? .alreadyExists
  refuseIf (kind ≠ .value ∧ payload ≠ []) .payloadNotAllowed
  let (tree, _) ← get
  let parent ← require (tree.resolve segments.dropLast) .parentNotFound
  let children ← require (tree.children? parent) .parentNotFound
  refuseIf (tree.isDetached parent) .parentNotFound
  refuseIf (children.contains name) .alreadyExists
  let uuid ← takeUuid
  change (·.addChild parent name (.new kind payload owner) uuid)
  change (·.register uuid tree.nextHandle)
  let info : PropertyInfo := { uuid, kind, path }
  announce (announcing info)
  return info

/-- Deletes the property at a path, which must not contain others, announces that and returns its uuid. -/
def deleteWith (announcing : Uuid → ω → ω) (path : String) :
    Operation TreeError (Tree × ω) Uuid := do
  let segments ← require (Path.segments? path) .malformedPath
  let name ← require segments.getLast? .notPermitted
  let (tree, _) ← get
  let parent ← require (tree.resolve segments.dropLast) .objectNotFound
  let children ← require (tree.children? parent) .objectNotFound
  refuseIf (tree.isDetached parent) .objectNotFound
  let handle ← require (children.find? name) .objectNotFound
  let property ← require (tree.property? handle) .objectNotFound
  refuseIf (property.children?.map (·.isEmpty) = some false) .notEmpty
  change (·.markDetached handle)
  change (·.removeChild parent name)
  change (·.unregister property.uuid)
  change (·.giveBack property.uuid handle)
  announce (announcing property.uuid)
  change (·.collect handle)
  return property.uuid

/-- The outcome of an operation on a tree with nothing outside, and the tree that it leaves. -/
def run {α : Type} (tree : Tree) (operation : Operation TreeError (Tree × Unit) α) :
    Except TreeError α × Tree :=
  let (outcome, tree, _) := operation.on (tree, ())
  (outcome, tree)

/-- Creates a property and says how it is to be announced. -/
def create (tree : Tree) (path : String) (kind : PropertyKind) (payload : Bytes)
    (owner : SessionId) : Except TreeError PropertyInfo × Tree :=
  tree.run (createWith (fun _ outside => outside) path kind payload owner)

/-- Deletes the property at a path and returns its uuid. -/
def delete (tree : Tree) (path : String) : Except TreeError Uuid × Tree :=
  tree.run (deleteWith (fun _ outside => outside) path)

end Operations

/-! ## Holding properties -/

/-- Holds on to an existing property. -/
def hold (tree : Tree) (handle : Handle) : Tree :=
  { tree with
    properties := tree.properties.modify handle fun property =>
      { property with holders := property.holders + 1 } }

/-- Lets go of a held property. A deleted property is gone when nobody holds it any more. -/
def release (tree : Tree) (handle : Handle) : Tree :=
  match tree.property? handle with
  | none => tree
  | some property =>
    { tree with
      properties :=
        if property.holders ≤ 1 && !tree.isLive handle then tree.properties.erase handle
        else tree.properties.modify handle fun property =>
          { property with holders := property.holders - 1 } }

/-! ## Values -/

/-- The payload of the live value with a uuid. -/
def getValue (tree : Tree) (uuid : Uuid) : Except TreeError Bytes := do
  match (tree.property? (← tree.findUuid uuid)).bind (·.payload?) with
  | some payload => return payload
  | none => throw (.notAValue uuid)

/-- The handle and the watchers of the live value with a uuid. -/
def watched (tree : Tree) (uuid : Uuid) :
    Except TreeError (Handle × Table SessionId Observer) :=
  match tree.findUuid uuid with
  | .error _ => .error (.uuidNotFound uuid)
  | .ok handle =>
    match (tree.property? handle).bind (·.watchers?) with
    | some watchers => .ok (handle, watchers)
    | none => .error (.notAValue uuid)

/-- Changes the watchers of the value with a handle. -/
def mapWatchers (tree : Tree) (handle : Handle)
    (change : Table SessionId Observer → Table SessionId Observer) : Tree :=
  { tree with properties := tree.properties.modify handle (·.mapWatchers change) }

section Operations

open Operation

/-- Makes an observer watch a value, in place of the one registered for the same subscriber. -/
def subscribe (tree : Tree) (uuid : Uuid) (subscriber : SessionId) (observer : Observer) :
    Except TreeError Unit × Tree :=
  tree.run do
    let (handle, _) ← ofExcept (tree.watched uuid)
    change (·.mapWatchers handle (·.insert subscriber observer))

/-- Removes the registration of a subscriber. Fails afterwards if there was none. -/
def unsubscribe (tree : Tree) (uuid : Uuid) (subscriber : SessionId) : Except TreeError Unit × Tree :=
  tree.run do
    let (handle, watchers) ← ofExcept (tree.watched uuid)
    change (·.mapWatchers handle (·.erase subscriber))
    refuseIf (watchers.contains subscriber = false) (.notSubscribed uuid)

end Operations

end Tree

end SharedTree
