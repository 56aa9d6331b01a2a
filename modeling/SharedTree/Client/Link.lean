import SharedTree.Client.Basic

/-!
# A client with its owner and its peer

A client lives for as long as its owner holds it or something that it asks or tells has not ended. When
neither is so any more the connection closes and the client's end of the stream with it. The peer may also
hang up first, which closes the connection from the other side. The peer reads all the time, so the
transport takes every frame at once.
-/

namespace SharedTree

/-- A client together with who keeps the connection alive. -/
structure ClientLink where
  client : Client
  /-- Whether the owner still holds the client. -/
  held : Bool := true
  /-- Whether the peer keeps its end open. -/
  peerOpen : Bool := true

namespace ClientLink

/-- Whether nobody needs the client any more. -/
def isIdle (link : ClientLink) : Bool :=
  !link.held && link.client.requests.isEmpty && link.client.outgoing.isEmpty

/-- Closes the connection of a client that nobody needs any more. -/
def settle (link : ClientLink) : ClientLink :=
  if link.isIdle then { link with client := link.client.endReading.settle } else link

/-- Changes the client. -/
def modify (link : ClientLink) (change : Client → Client) : ClientLink :=
  { link with client := change link.client }.settle

/-- Whether the client's end of the stream is closed. -/
def hasEnded (link : ClientLink) : Bool := link.isIdle && !link.client.reading

/-- The owner makes a request. -/
def ask (link : ClientLink) (question : Question) : Nat × ClientLink :=
  let (number, client) := link.client.ask question
  (number, { link with client := client.settle }.settle)

/-- The owner tells something. -/
def tell (link : ClientLink) (statement : Statement) : Nat × ClientLink :=
  let (number, client) := link.client.tell statement
  (number, { link with client := client.settle }.settle)

/-- The peer sends bytes. Says whether they could be written; there is no answer if there was nothing to
write or the peer has hung up. -/
def deliver (link : ClientLink) (bytes : Bytes) : Option Bool × ClientLink :=
  if bytes.isEmpty || !link.peerOpen then (none, link)
  else if link.hasEnded then (some false, link)
  else (some true, link.modify (·.receive bytes))

/-- Time passes. -/
def pass (link : ClientLink) (milliseconds : Nat) : ClientLink := link.modify (·.pass milliseconds)

/-- The owner closes the connection, and the reading ends. -/
def close (link : ClientLink) : ClientLink := link.modify (·.close.endReading.settle)

/-- The owner lets go of the client. -/
def drop (link : ClientLink) : ClientLink := { link with held := false }.settle

/-- The peer hangs up. -/
def hangUp (link : ClientLink) : ClientLink :=
  { link with peerOpen := false }.modify (·.endReading.settle)

end ClientLink

end SharedTree
