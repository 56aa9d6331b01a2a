import SharedTree.Bytes

/-!
# Codecs

A codec writes values of a type as bytes and reads them from the front of a byte string. Words are
little-endian. Blobs and texts carry their length, arrays their element count, each as a 32-bit word in
front; a record is its fields in order.

A reader keeps the input it has not consumed, whether it succeeds or fails. A word that cannot be read
consumes nothing, a blob or text that cannot be read has consumed its length only, and a choice outside
its range has consumed its byte. Every other codec is built from these, so what is left after a failure is
always the input from the failing part on.
-/

namespace SharedTree

universe u

/-- Why bytes are not a message, or a message has no bytes. -/
inductive WireError where
  /-- The input ends before a part of a known length. -/
  | truncated (needed remaining : Nat)
  /-- A text is not UTF-8. -/
  | invalidUtf8
  /-- No message kind has this tag. -/
  | unknownKind (tag : UInt8)
  /-- A byte that stands for one of several choices is none of them. -/
  | invalidChoice (field : String) (byte : UInt8)
  /-- The message is longer than its size word can say. -/
  | lengthOverflow (bodySize : Nat)
  /-- The declared size does not even cover the header. -/
  | undersized (size : UInt32)
  deriving DecidableEq, Repr

/-- The wording of an error. -/
def WireError.message : WireError → String
  | .truncated needed remaining => s!"truncated input: need {needed} bytes, {remaining} remaining"
  | .invalidUtf8 => "string field is not valid UTF-8"
  | .unknownKind tag => "unknown message type 0x" ++ Bytes.hex [tag]
  | .invalidChoice field byte => s!"invalid value {byte.toNat} for {field}"
  | .lengthOverflow bodySize =>
    s!"message body of {bodySize} bytes exceeds the 32-bit size field"
  | .undersized size => s!"declared message size {size.toNat} is smaller than the header"

/-- The one-word name of an error. -/
def WireError.name : WireError → String
  | .truncated .. => "Truncated"
  | .invalidUtf8 => "InvalidUtf8"
  | .unknownKind _ => "UnknownMessageType"
  | .invalidChoice .. => "InvalidEnum"
  | .lengthOverflow _ => "LengthOverflow"
  | .undersized _ => "UndersizedMessage"

/-- A computation that consumes a byte string from the front and may fail. -/
abbrev Reader := EStateM WireError Bytes

namespace Reader

/-- The next bytes, as many as asked for. Consumes nothing if there are fewer. -/
def take (count : Nat) : Reader Bytes := fun input =>
  let taken := input.take count
  if taken.length < count then .error (.truncated count input.length) input
  else .ok taken (input.drop count)

/-- The next bytes as a little-endian number. -/
def number (width : Nat) : Reader Nat := do
  return (← take width).toNat

/-- A text of the given number of bytes. Consumes nothing if it fails. -/
def text (count : Nat) : Reader String := fun input =>
  match take count input with
  | .error failure rest => .error failure rest
  | .ok taken rest =>
    match String.fromUTF8? taken.toByteArray with
    | some text => .ok text rest
    | none => .error .invalidUtf8 input

/-- As many items as asked for, after those already read, which come newest first. -/
def itemsInto {α : Type} (item : Reader α) : Nat → List α → Reader (List α)
  | 0, newestFirst => return newestFirst.reverse
  | count + 1, newestFirst => do
    let next ← item
    itemsInto item count (next :: newestFirst)

/-- The value read from a whole byte string, whatever follows it. -/
def value {α : Type} (reader : Reader α) (bytes : Bytes) : Except WireError α :=
  match reader bytes with
  | .ok value _ => .ok value
  | .error failure _ => .error failure

end Reader

/-- The written form of a type. -/
structure Codec (α : Type) where
  /-- Number of bytes that writing a value takes. -/
  size : α → Nat
  /-- The bytes of a value. -/
  encode : α → Bytes
  /-- Reads a value from the front of the input. -/
  read : Reader α

namespace Codec

variable {α β : Type}

/-- One byte. -/
def word8 : Codec UInt8 where
  size _ := 1
  encode word := [word]
  read := return UInt8.ofNat (← Reader.number 1)

/-- Four bytes, lowest first. -/
def word32 : Codec UInt32 where
  size _ := 4
  encode word := Bytes.ofNat 4 word.toNat
  read := return UInt32.ofNat (← Reader.number 4)

/-- Eight bytes, lowest first. -/
def word64 : Codec UInt64 where
  size _ := 8
  encode word := Bytes.ofNat 8 word.toNat
  read := return UInt64.ofNat (← Reader.number 8)

/-- The number of parts that follow, kept modulo the span of four bytes. -/
def countBytes (count : Nat) : Bytes := Bytes.ofNat 4 count

/-- A byte string with its length in front. -/
def blob : Codec Bytes where
  size bytes := 4 + bytes.length
  encode bytes := countBytes bytes.length ++ bytes
  read := do Reader.take (← Reader.number 4)

/-- A text with the length of its UTF-8 form in front. -/
def text : Codec String where
  size text := 4 + text.utf8ByteSize
  encode text := countBytes text.utf8ByteSize ++ text.toByteArray.data.toList
  read := do Reader.text (← Reader.number 4)

/-- The length of a list of items without their count. -/
def sizeAll (item : Codec α) : List α → Nat
  | [] => 0
  | first :: others => item.size first + item.sizeAll others

/-- Any number of items with their count in front. -/
def array (item : Codec α) : Codec (List α) where
  size items := 4 + item.sizeAll items
  encode items := countBytes items.length ++ items.flatMap item.encode
  read := do Reader.itemsInto item.read (← Reader.number 4) []

/-- Two parts, one after the other. -/
def pair (first : Codec α) (second : Codec β) : Codec (α × β) where
  size parts := first.size parts.1 + second.size parts.2
  encode parts := first.encode parts.1 ++ second.encode parts.2
  read := do
    let left ← first.read
    let right ← second.read
    return (left, right)

/-- The same bytes for another type, given the two directions between the types. -/
def as (codec : Codec α) (build : α → β) (parts : β → α) : Codec β where
  size value := codec.size (parts value)
  encode value := codec.encode (parts value)
  read := return build (← codec.read)

/-- One of a few values, written as its position in the list of all of them. The name of the field is
part of the error when the byte is no position. -/
def choice [DecidableEq α] (field : String) (choices : List α) : Codec α where
  size _ := 1
  encode value := [UInt8.ofNat (choices.idxOf value)]
  read := do
    let byte ← word8.read
    match choices[byte.toNat]? with
    | some value => return value
    | none => throw (.invalidChoice field byte)

end Codec

end SharedTree
