import SharedTree.Tree.Basic

/-!
# Writing values and telling their observers

Writing a value replaces its payload and then calls, one after the other, the observers that were
registered when the write began. An observer may change the tree and the world outside when it is called:
a `Reaction` says how. The registrations that could not be served are removed when all have been called,
unless another observer has taken the same place in the meantime.

The order in which observers are called is not specified; it is a parameter.
-/

namespace SharedTree

/-- What calling an observer with an update does to the tree and the world outside, and whether the
observer was reached. -/
abbrev Reaction (ω : Type) := Observer → ValueUpdate → Tree × ω → Bool × Tree × ω

/-- A registration of an observer under a subscriber's number. -/
abbrev Registration := SessionId × Observer

/-- Calls the observers of the given registrations in turn. Returns the registrations that could not be
served. -/
def deliver {ω : Type} (react : Reaction ω) (update : ValueUpdate) :
    List Registration → Tree × ω → List Registration × Tree × ω
  | [], world => ([], world)
  | registration :: others, world =>
    let (reached, world) := react registration.2 update world
    let (unserved, world) := deliver react update others world
    (if reached then unserved else registration :: unserved, world)

namespace Tree

/-- Removes registrations of a value, those excepted whose place another observer has taken. -/
def prune (tree : Tree) (handle : Handle) (unserved : List Registration) : Tree :=
  tree.mapWatchers handle (·.filter fun subscriber observer =>
    !unserved.contains (subscriber, observer))

/-- Replaces the payload of the value with a handle. -/
def overwrite (tree : Tree) (handle : Handle) (data : Bytes) : Tree :=
  { tree with properties := tree.properties.modify handle (·.withPayload data) }

/-- Writes the value with a handle. There is no result if it is not a value. -/
def write {ω : Type} (react : Reaction ω) (order : VisitOrder) (handle : Handle) (data : Bytes)
    (world : Tree × ω) : Option (Tree × ω) := do
  let (tree, outside) := world
  let property ← tree.property? handle
  let watchers ← property.watchers?
  let (unserved, tree, outside) :=
    deliver react { uuid := property.uuid, data } (order.arrange watchers.entries)
      (tree.overwrite handle data, outside)
  return (tree.prune handle unserved, outside)

/-- Writes the live value with a uuid. The value is held until all observers have been called, so it
exists until then even if one of them deletes it. -/
def setValue {ω : Type} (react : Reaction ω) (order : VisitOrder) (uuid : Uuid) (data : Bytes)
    (world : Tree × ω) : Except TreeError Unit × Tree × ω :=
  Operation.on (do
    let (tree, outside) ← get
    let handle ← ofExcept (tree.findUuid uuid)
    let written? := write react order handle data (tree.hold handle, outside)
    set (← Operation.require written? (.notAValue uuid))
    change (·.release handle)) world

end Tree

end SharedTree
