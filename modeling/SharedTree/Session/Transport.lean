import SharedTree.Bytes

/-!
# Transports

A session writes to a transport: either a sink, which swallows everything, or a pipe, which holds as many
unread bytes as its capacity says. A pipe whose reader is attentive never fills up; what such a reader has
taken waits until somebody asks for it. A pipe whose reader has hung up is broken.
-/

namespace SharedTree

/-- A bounded channel of bytes with one reader. -/
structure Pipe where
  /-- How many unread bytes it holds. -/
  capacity : Nat
  /-- Bytes written and not read. -/
  unread : Bytes := []
  /-- Whether its reader takes bytes as soon as they are written. -/
  attended : Bool := false
  /-- Bytes that an attentive reader has taken and nobody has asked for. -/
  taken : Bytes := []
  /-- Whether its reader has hung up. -/
  broken : Bool := false
  deriving DecidableEq, Repr

namespace Pipe

/-- Writes as many bytes as fit. Returns those that did not. -/
def write (pipe : Pipe) (bytes : Bytes) : Bytes × Pipe :=
  if pipe.attended then ([], { pipe with taken := pipe.taken ++ bytes })
  else
    let room := pipe.capacity - pipe.unread.length
    (bytes.drop room, { pipe with unread := pipe.unread ++ bytes.take room })

/-- Takes everything the reader can have now. -/
def read (pipe : Pipe) : Bytes × Pipe :=
  (pipe.taken ++ pipe.unread, { pipe with taken := [], unread := [] })

/-- Takes what an attentive reader has taken. -/
def collect (pipe : Pipe) : Bytes × Pipe := (pipe.taken, { pipe with taken := [] })

/-- The reader becomes attentive. -/
def attend (pipe : Pipe) : Pipe :=
  { pipe with attended := true, taken := pipe.taken ++ pipe.unread, unread := [] }

/-- The reader stops reading. -/
def neglect (pipe : Pipe) : Pipe := { pipe with attended := false }

/-- The reader hangs up. -/
def hangUp (pipe : Pipe) : Pipe := { pipe with broken := true, unread := [] }

end Pipe

/-- Where a session writes to. -/
inductive Transport where
  /-- Swallows everything. -/
  | sink
  | pipe (line : Pipe)
  deriving DecidableEq, Repr

/-- Writes as many bytes as the transport takes. Returns those that it did not take, or nothing if the
transport is broken. -/
def Transport.write? (transport : Transport) (bytes : Bytes) : Option (Bytes × Transport) :=
  match transport with
  | .sink => some ([], .sink)
  | .pipe line =>
    if line.broken then none
    else
      let (rest, written) := line.write bytes
      some (rest, .pipe written)

/-- The pipe of a transport that is one. -/
def Transport.line? : Transport → Option Pipe
  | .sink => none
  | .pipe line => some line

/-- Changes the pipe of a transport that is one. -/
def Transport.mapPipe (change : Pipe → Pipe) : Transport → Transport
  | .sink => .sink
  | .pipe line => .pipe (change line)

end SharedTree
