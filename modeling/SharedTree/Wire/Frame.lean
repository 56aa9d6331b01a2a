import SharedTree.Wire.Message

/-!
# Frames

A frame is a message as it travels: a header of nine bytes and a body. The header holds the tag of the
message kind, the size of the whole frame and the transaction id, each little-endian:

    offset 0   1 byte    tag
    offset 1   4 bytes   size, header included
    offset 5   4 bytes   transaction id

A header can be read whatever its tag and size are; only asking it for the kind or for the length of the
body may fail.
-/

namespace SharedTree

/-- What stands in front of every body. -/
structure Header where
  tag : UInt8
  size : UInt32
  transaction : TransactionId
  deriving DecidableEq, Repr

namespace Header

/-- Number of bytes of a header. -/
def length : Nat := 9

/-- The bytes of a header. -/
def encode (header : Header) : Bytes :=
  header.tag :: Bytes.ofNat 4 header.size.toNat ++ Bytes.ofNat 4 header.transaction.toNat

/-- The header in the first nine bytes; bytes that are missing count as zero. -/
def ofBytes (bytes : Bytes) : Header where
  tag := bytes.headD 0
  size := UInt32.ofNat (Bytes.toNat ((bytes.drop 1).take 4))
  transaction := UInt32.ofNat (Bytes.toNat ((bytes.drop 5).take 4))

/-- The header at the front of a byte string. -/
def parse (bytes : Bytes) : Except WireError Header :=
  if bytes.length < length then .error (.truncated length bytes.length) else .ok (ofBytes bytes)

/-- The header for a body of the given length. -/
def forBody (kind : MessageKind) (transaction : TransactionId) (bodySize : Nat) :
    Except WireError Header :=
  if bodySize + length < UInt32.size then
    .ok { tag := kind.tag, size := UInt32.ofNat (bodySize + length), transaction }
  else .error (.lengthOverflow bodySize)

/-- The kind that the tag stands for. -/
def kind (header : Header) : Except WireError MessageKind := MessageKind.ofTag header.tag

/-- The length of the body that the size declares. -/
def bodySize (header : Header) : Except WireError Nat :=
  if header.size.toNat < length then .error (.undersized header.size)
  else .ok (header.size.toNat - length)

end Header

/-- A message as it travels. -/
structure Frame where
  header : Header
  body : Bytes
  deriving DecidableEq, Repr

namespace Frame

/-- The transaction id in the header. -/
def transaction (frame : Frame) : TransactionId := frame.header.transaction

/-- The bytes that travel. -/
def encode (frame : Frame) : Bytes := frame.header.encode ++ frame.body

/-- A message as a frame, if the size field can hold its size. -/
def ofMessage (message : Message) (transaction : TransactionId) : Except WireError Frame := do
  let header ← Header.forBody message.kind transaction message.size
  return { header, body := message.encode }

/-- The message that a frame carries. -/
def message (frame : Frame) : Except WireError Message := do
  Message.decode (← frame.header.kind) frame.body

/-- How many bytes of a body are printed. -/
def preview : Nat := 32

/-- A frame in print, with the first bytes of its body. -/
def describe (frame : Frame) : String :=
  "Frame \x7b type: " ++ toString frame.header.tag.toNat ++
    ", transaction_id: " ++ toString frame.transaction.toNat ++
    ", body_len: " ++ toString frame.body.length ++
    ", body: \"" ++ Bytes.hex (frame.body.take preview) ++ "\" \x7d"

end Frame

end SharedTree
