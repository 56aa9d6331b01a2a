import SharedTree.Wire.Frame

/-!
# Cutting a byte stream into frames

An assembler is fed whatever a connection delivers, in pieces of any size, and told of every read that
delivered nothing. It reports each frame it completes and each message it gives up.

A message is given up when its header declares less than the header itself, or a body above the limit;
the assembler then goes on behind that header. It is also given up when more idle reads in a row than
allowed meet it unfinished. Idle reads between messages are never counted.

Of a piece of the stream, the assembler takes at once as much as belongs to the same header or to the same
body, and goes on with the rest in the stage it is in then.
-/

namespace SharedTree

/-- Limits of an assembler. -/
structure AssemblerLimits where
  /-- The longest body accepted. -/
  maxBody : Nat := 1024 * 1024
  /-- How many idle reads in a row an unfinished message survives. -/
  maxIdleReads : Nat := 3
  deriving DecidableEq, Repr, Inhabited

/-- Why a message was given up. -/
inductive FramingError where
  | headerTimeout
  | bodyTimeout
  | oversized (declared limit : Nat)
  | undersized (declared : Nat)
  deriving DecidableEq, Repr

/-- The wording of an error. -/
def FramingError.message : FramingError → String
  | .headerTimeout => "timed out waiting for header"
  | .bodyTimeout => "timed out waiting for body"
  | .oversized declared limit => s!"declared body of {declared} bytes exceeds limit of {limit}"
  | .undersized declared => s!"declared size {declared} is smaller than the header"

/-- The one-word name of an error. -/
def FramingError.name : FramingError → String
  | .headerTimeout => "HeaderTimeout"
  | .bodyTimeout => "BodyTimeout"
  | .oversized .. => "Oversized"
  | .undersized _ => "Undersized"

/-- What an assembler reports. -/
inductive AssemblerEvent where
  | completed (frame : Frame)
  | gaveUp (error : FramingError)
  deriving DecidableEq, Repr

/-- How far the next message has come. -/
inductive AssemblerStage where
  /-- Nothing of it has arrived. -/
  | start
  /-- Part of its header has arrived. -/
  | header (received : Bytes)
  /-- Its header and part of its body have arrived; the body's bytes are kept newest first, with the
  number of those still to come. -/
  | body (header : Header) (newestFirst : Bytes) (missing : Nat)
  /-- It was given up during its header, and nothing has happened since. -/
  | headerTimedOut
  /-- It was given up during its body, and nothing has happened since. -/
  | bodyTimedOut
  deriving DecidableEq, Repr

/-- How far the next message has come, in print. -/
def AssemblerStage.name : AssemblerStage → String
  | .start => "WaitHeaderEmpty"
  | .header _ => "WaitHeader"
  | .body _ [] _ => "WaitBodyEmpty"
  | .body _ (_ :: _) _ => "WaitBody"
  | .headerTimedOut => "HeaderTimeout"
  | .bodyTimedOut => "BodyTimeout"

/-- How many bytes the header or the body under way lacks. When nothing has arrived, that is a whole
header. -/
def AssemblerStage.wanted : AssemblerStage → Nat
  | .header received => Header.length - received.length
  | .body _ _ missing => missing
  | .start | .headerTimedOut | .bodyTimedOut => Header.length

/-- Reassembly of the frames of one connection. -/
structure Assembler where
  limits : AssemblerLimits
  stage : AssemblerStage := .start
  /-- Idle reads since the last byte of the unfinished message. -/
  idleReads : Nat := 0
  deriving DecidableEq, Repr

namespace Assembler

/-- An assembler that waits for its first message. -/
def new (limits : AssemblerLimits) : Assembler := { limits }

/-- Goes to a stage with no idle reads counted. -/
def goTo (assembler : Assembler) (stage : AssemblerStage) : Assembler :=
  { assembler with stage, idleReads := 0 }

/-- Takes up a complete header. -/
def beginBody (assembler : Assembler) (header : Header) : Assembler × Option AssemblerEvent :=
  match header.bodySize with
  | .error _ => (assembler.goTo .start, some (.gaveUp (.undersized header.size.toNat)))
  | .ok declared =>
    if assembler.limits.maxBody < declared then
      (assembler.goTo .start, some (.gaveUp (.oversized declared assembler.limits.maxBody)))
    else if declared = 0 then (assembler.goTo .start, some (.completed { header, body := [] }))
    else (assembler.goTo (.body header [] declared), none)

/-- Takes up the bytes of a header received so far. -/
def extendHeader (assembler : Assembler) (received : Bytes) :
    Assembler × Option AssemblerEvent :=
  if received.length < Header.length then (assembler.goTo (.header received), none)
  else assembler.beginBody (Header.ofBytes received)

/-- Takes up bytes of a body, which is complete once none is missing. -/
def extendBody (assembler : Assembler) (header : Header) (newestFirst : Bytes) (missing : Nat) :
    Assembler × Option AssemblerEvent :=
  if missing = 0 then
    (assembler.goTo .start, some (.completed { header, body := newestFirst.reverse }))
  else (assembler.goTo (.body header newestFirst missing), none)

/-- Takes bytes that all belong to the same header or to the same body. -/
def takeUp (assembler : Assembler) (part : Bytes) : Assembler × Option AssemblerEvent :=
  match assembler.stage with
  | .header received => assembler.extendHeader (received ++ part)
  | .body header newestFirst missing =>
    assembler.extendBody header (part.reverse ++ newestFirst) (missing - part.length)
  | .start | .headerTimedOut | .bodyTimedOut => assembler.extendHeader part

/-- Takes bytes, reporting after the events already seen, which come newest first. At least one byte is
taken up at a time. -/
def acceptInto (assembler : Assembler) (newestFirst : List AssemblerEvent) :
    Bytes → Assembler × List AssemblerEvent
  | [] => (assembler, newestFirst.reverse)
  | byte :: rest =>
    let more := assembler.stage.wanted - 1
    let (next, event) := assembler.takeUp (byte :: rest.take more)
    next.acceptInto (event.toList ++ newestFirst) (rest.drop more)
termination_by bytes => bytes.length
decreasing_by simp only [List.length_drop, List.length_cons]; omega

/-- Notes a read that delivered nothing. -/
def idle (assembler : Assembler) : Assembler × Option FramingError :=
  let giveUp (stage : AssemblerStage) (error : FramingError) :=
    if assembler.idleReads < assembler.limits.maxIdleReads then
      ({ assembler with idleReads := assembler.idleReads + 1 }, none)
    else (assembler.goTo stage, some error)
  match assembler.stage with
  | .start => (assembler, none)
  | .headerTimedOut | .bodyTimedOut => (assembler.goTo .start, none)
  | .header _ => giveUp .headerTimedOut .headerTimeout
  | .body .. => giveUp .bodyTimedOut .bodyTimeout

/-- Takes what one read delivered. A read that delivered nothing is an idle one. -/
def accept (assembler : Assembler) (bytes : Bytes) : Assembler × List AssemblerEvent :=
  if bytes.isEmpty then
    let (next, error) := assembler.idle
    (next, (error.map .gaveUp).toList)
  else assembler.acceptInto [] bytes

end Assembler

end SharedTree
