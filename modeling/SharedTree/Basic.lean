/-!
# Identities

The numbers by which clients and the service name things: properties, sessions and requests. Each
has the width it has on the wire.
-/

namespace SharedTree

/-- Public number of a property, assigned by the service. -/
abbrev Uuid := UInt32

/-- Number of a session, unique for the life of the service. -/
abbrev SessionId := UInt64

/-- Number by which a client matches an answer to its request. -/
abbrev TransactionId := UInt32

/-- The uuid written where there is no property to name. -/
def noUuid : Uuid := 0

/-- The protocol version spoken here. -/
def protocolVersion : UInt32 := 1

/-- The transaction id of everything the service sends without being asked. -/
def unsolicited : TransactionId := 0xFFFFFFFF

end SharedTree
