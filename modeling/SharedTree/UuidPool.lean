import SharedTree.Basic

/-!
# The pool of uuids

Fresh uuids count up from 100. The uuid of a deleted property waits in a queue, together with the
identity of that property, and is handed out again before the count goes on, but only once the property
no longer exists: whoever still holds the deleted property never sees its uuid mean another one. Of
several that may be handed out, the one that has waited longest goes first.
-/

namespace SharedTree

/-- Where the next uuid comes from. The type parameter is how former owners are told apart. -/
structure UuidPool (ι : Type) where
  /-- The lowest number never handed out. -/
  next : Nat
  /-- Returned uuids with their former owners, longest waiting first. -/
  waiting : List (Uuid × ι)

namespace UuidPool

variable {ι : Type}

/-- The first uuid handed out. -/
def first : Nat := 100

/-- The pool from which nothing has been taken. -/
def fresh : UuidPool ι := { next := first, waiting := [] }

/-- Takes a uuid, given which former owners still exist. There is none once the numbers of 32 bits
are used up. -/
def take (pool : UuidPool ι) (exists? : ι → Bool) : Option Uuid × UuidPool ι :=
  match pool.waiting.find? fun entry => !exists? entry.2 with
  | some (uuid, _) =>
    (some uuid, { pool with waiting := pool.waiting.eraseP fun entry => !exists? entry.2 })
  | none =>
    if pool.next < UInt32.size then
      (some (UInt32.ofNat pool.next), { pool with next := pool.next + 1 })
    else (none, pool)

/-- Returns the uuid of a deleted property. -/
def giveBack (pool : UuidPool ι) (uuid : Uuid) (owner : ι) : UuidPool ι :=
  { pool with waiting := pool.waiting ++ [(uuid, owner)] }

end UuidPool

end SharedTree
