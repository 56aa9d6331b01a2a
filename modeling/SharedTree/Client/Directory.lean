import SharedTree.Table
import SharedTree.Wire.Record

/-!
# The directory of a client

A client keeps a directory of the properties it has been told of, by uuid and by path. It is fed by
announcements and by what the client has looked up. It is no copy of the tree: it lacks what was never
announced to the client.
-/

namespace SharedTree

/-- The properties a client knows. -/
structure Directory where
  byUuid : Table Uuid PropertyInfo := .empty
  byPath : Table String Uuid := .empty

namespace Directory

/-- The directory that knows nothing. -/
def empty : Directory := {}

instance : Inhabited Directory := ⟨empty⟩

/-- Number of known properties. -/
def size (directory : Directory) : Nat := directory.byUuid.size

/-- Whether nothing is known. -/
def isEmpty (directory : Directory) : Bool := directory.byUuid.isEmpty

/-- What is known of a uuid. -/
def find? (directory : Directory) (uuid : Uuid) : Option PropertyInfo :=
  directory.byUuid.find? uuid

/-- The uuid known for a path. -/
def uuidOf? (directory : Directory) (path : String) : Option Uuid :=
  directory.byPath.find? path

/-- Forgets where the property with a uuid is, if that is known. -/
def forgetPath (directory : Directory) (uuid : Uuid) : Table String Uuid :=
  match directory.byUuid.find? uuid with
  | some known => directory.byPath.erase known.path
  | none => directory.byPath

/-- Learns of a property. What was known of its uuid is forgotten, and its path now leads to its uuid. -/
def insert (directory : Directory) (info : PropertyInfo) : Directory where
  byUuid := directory.byUuid.insert info.uuid info
  byPath := (directory.forgetPath info.uuid).insert info.path info.uuid

/-- Learns that a property is gone. -/
def erase (directory : Directory) (uuid : Uuid) : Directory where
  byUuid := directory.byUuid.erase uuid
  byPath := directory.forgetPath uuid

/-- Takes an announcement: the creations first, then the deletions. -/
def apply (directory : Directory) (creations : List PropertyInfo) (deletions : List Uuid) :
    Directory :=
  deletions.foldl erase (creations.foldl insert directory)

end Directory

end SharedTree
