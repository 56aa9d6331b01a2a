import SharedTree.Proofs.Tree.Requests

/-!
# Flat stores

A flat store is what a tree looks like to its callers: a map from paths, written as lists
of segments, to what is stored there. It has no root, no links and no second index. What
stands in the way of a request is told from the paths alone: a parent is the path without
its last segment, and a node is empty when no path in the map extends its own.

`StoreRequest` lists the requests that both kinds of stores serve, and `Tree.Performs` and
`FlatStore.Answers` say which exchanges of requests and answers each kind allows.
-/

namespace SharedTree

/-- What is stored at a path. Only values have a payload, and only rpc endpoints a handler. -/
structure FlatEntry where
  uuid : Uuid
  kind : PropertyKind
  payload? : Option Bytes
  handler? : Option SessionId
  deriving DecidableEq, Repr

namespace FlatEntry

/-- What is stored for a property that has just been created. -/
def new (uuid : Uuid) (kind : PropertyKind) (payload : Bytes) (owner : SessionId) : FlatEntry where
  uuid
  kind
  payload? := if kind = .value then some payload else none
  handler? := if kind = .rpc then some owner else none

/-- The root, which is in no map. -/
def root : FlatEntry := { uuid := noUuid, kind := .node, payload? := none, handler? := none }

/-- The entry with its payload replaced, if it is a value. -/
def withPayload (data : Bytes) (entry : FlatEntry) : FlatEntry :=
  { entry with payload? := entry.payload?.map fun _ => data }

end FlatEntry

/-- A request to a store of properties. -/
inductive StoreRequest where
  | create (path : String) (kind : PropertyKind) (payload : Bytes) (owner : SessionId)
  | delete (path : String)
  | setValue (uuid : Uuid) (data : Bytes)
  | getValue (uuid : Uuid)
  | getByPath (path : String)
  | getByUuid (uuid : Uuid)
  | info (path : String)
  deriving DecidableEq, Repr

/-- The answer to a request that succeeds. -/
inductive StoreAnswer where
  | created (info : PropertyInfo)
  | deleted (uuid : Uuid)
  | written
  | payload (data : Bytes)
  | found (entry : FlatEntry) (path : String)
  | info (info : PropertyInfo)
  deriving DecidableEq, Repr

/-- Whether an answer tells of a new property. -/
def StoreAnswer.isCreated : StoreAnswer → Bool
  | .created _ => true
  | _ => false

/-- A request and its answer. -/
abbrev Exchange := StoreRequest × Except TreeError StoreAnswer

/-- How many of the exchanges have created a property. -/
def creations (log : List Exchange) : Nat :=
  log.countP fun exchange => exchange.2.toOption.any StoreAnswer.isCreated

/-- The outcome of an operation as an answer, with the state that the operation leaves. -/
def answering {σ α : Type} (answer : α → StoreAnswer) (result : Except TreeError α × σ) :
    Except TreeError StoreAnswer × σ :=
  (result.1.map answer, result.2)

namespace FlatStore

/-- The answer and the map after an operation on a map, which stays as it is if that fails. -/
def settle {σ α : Type} (state : σ) (answer : α → StoreAnswer) (result : Except TreeError (α × σ)) :
    Except TreeError StoreAnswer × σ :=
  match result with
  | .ok (value, next) => (.ok (answer value), next)
  | .error error => (.error error, state)

end FlatStore

/-- A map from the paths of properties, without the root, to what is stored there. -/
abbrev FlatStore := Table (List String) FlatEntry

namespace FlatStore

/-- What is at a path. -/
def entryAt? (store : FlatStore) (segments : List String) : Option FlatEntry :=
  if segments = [] then some .root else store.find? segments

/-- What is at the path with a uuid. -/
def locate? (store : FlatStore) (uuid : Uuid) : Option (List String × FlatEntry) :=
  store.entries.find? fun entry => entry.2.uuid = uuid

/-- Whether a path in the map extends another. -/
def extends? (store : FlatStore) (segments : List String) : Bool :=
  store.keys.any fun other => segments.isPrefixOf other && other ≠ segments

/-- Maps a path to a new property with a fresh uuid, if there is one left. -/
def create (store : FlatStore) (fresh : Option Uuid) (path : String) (kind : PropertyKind)
    (payload : Bytes) (owner : SessionId) : Except TreeError (PropertyInfo × FlatStore) :=
  match Path.segments? path with
  | none => .error .malformedPath
  | some segments =>
    if segments = [] then .error .alreadyExists
    else if kind ≠ .value ∧ payload ≠ [] then .error .payloadNotAllowed
    else if (store.entryAt? segments.dropLast).map (·.kind) ≠ some .node then .error .parentNotFound
    else if store.contains segments then .error .alreadyExists
    else
      match fresh with
      | none => .error .uuidsExhausted
      | some uuid =>
        .ok ({ uuid, kind, path }, store.insert segments (.new uuid kind payload owner))

/-- Unmaps a path. -/
def delete (store : FlatStore) (path : String) : Except TreeError (Uuid × FlatStore) :=
  match Path.segments? path with
  | none => .error .malformedPath
  | some segments =>
    if segments = [] then .error .notPermitted
    else
      match store.find? segments with
      | none => .error .objectNotFound
      | some entry =>
        if entry.kind = .node ∧ store.extends? segments then .error .notEmpty
        else .ok (entry.uuid, store.erase segments)

/-- Replaces the payload at the path with a uuid. -/
def setValue (store : FlatStore) (uuid : Uuid) (data : Bytes) :
    Except TreeError (Unit × FlatStore) :=
  match store.locate? uuid with
  | none => .error .objectNotFound
  | some (segments, entry) =>
    if entry.payload? = none then .error (.notAValue uuid)
    else .ok ((), store.insert segments (entry.withPayload data))

/-- The payload at the path with a uuid. -/
def getValue (store : FlatStore) (uuid : Uuid) : Except TreeError Bytes :=
  match store.locate? uuid with
  | none => .error .objectNotFound
  | some (_, entry) =>
    match entry.payload? with
    | none => .error (.notAValue uuid)
    | some data => .ok data

/-- What is at a path given as text, and the segments of the path. -/
def find (store : FlatStore) (path : String) : Except TreeError (List String × FlatEntry) :=
  match Path.segments? path with
  | none => .error .malformedPath
  | some segments =>
    match store.entryAt? segments with
    | none => .error .objectNotFound
    | some entry => .ok (segments, entry)

/-- Serves a request, given the uuid for a new property. -/
def respond (fresh : Option Uuid) (store : FlatStore) :
    StoreRequest → Except TreeError StoreAnswer × FlatStore
  | .create path kind payload owner =>
    settle store .created (store.create fresh path kind payload owner)
  | .delete path => settle store .deleted (store.delete path)
  | .setValue uuid data => settle store (fun _ => .written) (store.setValue uuid data)
  | .getValue uuid => ((store.getValue uuid).map .payload, store)
  | .getByPath path =>
    ((store.find path).map fun (segments, entry) => .found entry (Path.ofSegments segments), store)
  | .getByUuid uuid =>
    (match store.locate? uuid with
      | none => .error .objectNotFound
      | some (segments, entry) => .ok (.found entry (Path.ofSegments segments)), store)
  | .info path =>
    ((store.find path).map fun (segments, entry) =>
      .info { uuid := entry.uuid, kind := entry.kind, path := Path.ofSegments segments }, store)

/-- No two paths have the same uuid. -/
def Unambiguous (store : FlatStore) : Prop :=
  ∀ left right leftEntry rightEntry, store.find? left = some leftEntry →
    store.find? right = some rightEntry → leftEntry.uuid = rightEntry.uuid → left = right

/-- The exchanges that the flat store allows, starting empty. A new property gets any uuid that may
be given and is in no use. There may be none left after as many creations as there are such
uuids. -/
inductive Answers : List Exchange → FlatStore → Prop where
  | empty : Answers [] .empty
  | respond {log : List Exchange} {store : FlatStore} {fresh : Option Uuid}
      (before : Answers log store)
      (unused : ∀ uuid ∈ fresh, UuidPool.first ≤ uuid.toNat ∧
        ∀ segments entry, store.find? segments = some entry → entry.uuid ≠ uuid)
      (usedUp : fresh = none → UInt32.size - UuidPool.first ≤ creations log)
      (request : StoreRequest) :
      Answers (log ++ [(request, (store.respond fresh request).1)])
        (store.respond fresh request).2

end FlatStore

/-- What a flat store keeps of a property. -/
def Property.entry (property : Property) : FlatEntry where
  uuid := property.uuid
  kind := property.kind
  payload? := property.payload?
  handler? := property.handler?

namespace Tree

/-- What a flat store keeps of the property with a handle. -/
def entryAt? (tree : Tree) (handle : Handle) : Option FlatEntry :=
  (tree.property? handle).map (·.entry)

/-- What a caller that has found a property sees of it. -/
def look (tree : Tree) (found : Except TreeError Handle) : Except TreeError StoreAnswer := do
  let handle ← found
  match tree.entryAt? handle with
  | none => throw .objectNotFound
  | some entry => return .found entry (tree.pathOf handle)

/-- Serves a request. -/
def respond {ω : Type} (react : Reaction ω) (order : VisitOrder) (outside : ω) (tree : Tree) :
    StoreRequest → Except TreeError StoreAnswer × Tree
  | .create path kind payload owner => answering .created (tree.create path kind payload owner)
  | .delete path => answering .deleted (tree.delete path)
  | .setValue uuid data =>
    let (outcome, tree, _) := setValue react order uuid data (tree, outside)
    answering (fun _ => .written) (outcome, tree)
  | .getValue uuid => ((tree.getValue uuid).map .payload, tree)
  | .getByPath path => (tree.look (tree.find path), tree)
  | .getByUuid uuid => (tree.look (tree.findUuid uuid), tree)
  | .info path => ((tree.info path).map .info, tree)

/-- The exchanges with a tree that was new, while callers take and drop references. -/
inductive Performs : List Exchange → Tree × List Handle → Prop where
  | new : Performs [] (Tree.new, [])
  | respond {log : List Exchange} {tree : Tree} {held : List Handle} {ω : Type}
      (before : Performs log (tree, held)) (react : Reaction ω) (order : VisitOrder) (outside : ω)
      (request : StoreRequest) :
      Performs (log ++ [(request, (tree.respond react order outside request).1)])
        ((tree.respond react order outside request).2, held)
  | hold {log : List Exchange} {tree : Tree} {held : List Handle} {handle : Handle}
      (before : Performs log (tree, held)) (found : tree.exists? handle = true) :
      Performs log (tree.hold handle, handle :: held)
  | release {log : List Exchange} {tree : Tree} {held : List Handle} {handle : Handle}
      (before : Performs log (tree, held)) (mine : handle ∈ held) :
      Performs log (tree.release handle, held.erase handle)

end Tree

end SharedTree
