import SharedTree.Proofs.Wire.Assembler

/-!
# Assembling in fixed buffers

A buffered assembler keeps a message in fields that outlive it: nine bytes for headers, of which the first
few count, a header, a body with the length it is to reach, and a counter of 32 bits. Its arithmetic and its
slices are checked, and a fault stops it; so does every branch that is there only to have an answer in cases
that cannot come up.

`BufferedAssembler.Sound` says how the fields stand to each other. `BufferedAssembler.toAssembler` forgets
all that the buffers hold besides the message under way.
-/

namespace SharedTree

/-- What stops a buffered assembler. -/
inductive BufferFault where
  | underflow
  /-- The counter of idle reads would have left its 32 bits. -/
  | overflow
  | outOfRange
  /-- A round took nothing of the bytes in front of it. -/
  | stalled
  | headerUnreadable
  /-- A body was complete without its header. -/
  | headerMissing
  /-- Bytes met a message that had been given up. -/
  | givenUp
  deriving DecidableEq, Repr

namespace BufferFault

def difference (whole part : Nat) : Except BufferFault Nat :=
  if part ≤ whole then .ok (whole - part) else .error .underflow

/-- The first bytes of the input and those behind them. -/
def cut (size : Nat) (input : Bytes) : Except BufferFault (Bytes × Bytes) :=
  if size ≤ input.length then .ok (input.take size, input.drop size) else .error .outOfRange

end BufferFault

/-- Room for one header. -/
structure HeaderBuffer where
  bytes : Bytes
  length_bytes : bytes.length = Header.length
  deriving DecidableEq, Repr

namespace HeaderBuffer

def blank : HeaderBuffer := ⟨List.replicate Header.length 0, List.length_replicate⟩

/-- Writes over the bytes from a place on; the others stay. -/
def write (buffer : HeaderBuffer) (place : Nat) (part : Bytes) : Except BufferFault HeaderBuffer :=
  if fits : place + part.length ≤ Header.length then
    .ok {
      bytes := buffer.bytes.take place ++ part ++ buffer.bytes.drop (place + part.length)
      length_bytes := by
        simp only [List.length_append, List.length_take, List.length_drop, buffer.length_bytes]
        omega }
  else .error .outOfRange

end HeaderBuffer

/-- What a buffered assembler is waiting for. -/
inductive AssemblerPhase where
  | start
  | inHeader
  | beforeBody
  | inBody
  | headerTimedOut
  | bodyTimedOut
  deriving DecidableEq, Repr

namespace AssemblerPhase

def name : AssemblerPhase → String
  | .start => "WaitHeaderEmpty"
  | .inHeader => "WaitHeader"
  | .beforeBody => "WaitBodyEmpty"
  | .inBody => "WaitBody"
  | .headerTimedOut => "HeaderTimeout"
  | .bodyTimedOut => "BodyTimeout"

/-- A message was given up, and nothing has happened since. -/
def TimedOut (phase : AssemblerPhase) : Prop := phase = .headerTimedOut ∨ phase = .bodyTimedOut

/-- A header may begin or go on. -/
def OfHeader (phase : AssemblerPhase) : Prop := phase = .start ∨ phase = .inHeader

/-- A header is complete, but its body is not. -/
def OfBody (phase : AssemblerPhase) : Prop := phase = .beforeBody ∨ phase = .inBody

def AtRest (phase : AssemblerPhase) : Prop := phase = .start ∨ phase.TimedOut

instance (phase : AssemblerPhase) : Decidable phase.TimedOut :=
  inferInstanceAs (Decidable (_ ∨ _))

instance (phase : AssemblerPhase) : Decidable phase.OfBody :=
  inferInstanceAs (Decidable (_ ∨ _))

instance (phase : AssemblerPhase) : Decidable phase.AtRest :=
  inferInstanceAs (Decidable (_ ∨ _))

theorem OfHeader.not_ofBody {phase : AssemblerPhase} (ofHeader : phase.OfHeader) :
    ¬phase.OfBody := by
  rcases ofHeader with rfl | rfl
  all_goals decide

theorem OfBody.not_atRest {phase : AssemblerPhase} (ofBody : phase.OfBody) : ¬phase.AtRest := by
  rcases ofBody with rfl | rfl
  all_goals decide

end AssemblerPhase

/-- Reassembly of the frames of one connection in buffers that are used again for every message. -/
structure BufferedAssembler where
  limits : AssemblerLimits
  phase : AssemblerPhase
  headerBuffer : HeaderBuffer
  /-- How many bytes of the buffer belong to the message under way. -/
  headerLength : Nat
  header : Option Header
  body : Bytes
  /-- The length that the body is to reach. -/
  bodyLength : Nat
  idleReads : Nat
  deriving DecidableEq, Repr

namespace BufferedAssembler

open BufferFault (difference cut)

def new (limits : AssemblerLimits) : BufferedAssembler where
  limits
  phase := .start
  headerBuffer := .blank
  headerLength := 0
  header := none
  body := []
  bodyLength := 0
  idleReads := 0

/-- Drops the message under way. The header's buffer is left as it is. -/
def clear (assembler : BufferedAssembler) : BufferedAssembler :=
  { assembler with
    phase := .start, headerLength := 0, header := none, body := [], bodyLength := 0, idleReads := 0 }

/-- Reports the message under way, which is complete. -/
def complete (assembler : BufferedAssembler) :
    Except BufferFault (BufferedAssembler × AssemblerEvent) :=
  match assembler.header with
  | none => .error .headerMissing
  | some header => .ok (assembler.clear, .completed { header, body := assembler.body })

def takeHeader (assembler : BufferedAssembler) :
    Except BufferFault (BufferedAssembler × Option AssemblerEvent) :=
  match Header.parse assembler.headerBuffer.bytes with
  | .error _ => .error .headerUnreadable
  | .ok header =>
    match header.bodySize with
    | .error _ => .ok (assembler.clear, some (.gaveUp (.undersized header.size.toNat)))
    | .ok declared =>
      if assembler.limits.maxBody < declared then
        .ok (assembler.clear, some (.gaveUp (.oversized declared assembler.limits.maxBody)))
      else do
        let holding := { assembler with header := some header, bodyLength := declared }
        if declared = 0 then
          let (next, event) ← holding.complete
          return (next, some event)
        else return ({ holding with phase := .beforeBody }, none)

/-- Takes as much of the input as the header lacks. -/
def fillHeader (assembler : BufferedAssembler) (input : Bytes) :
    Except BufferFault (BufferedAssembler × Option AssemblerEvent × Bytes) := do
  let lacking ← difference Header.length assembler.headerLength
  let (part, rest) ← cut (min lacking input.length) input
  let headerBuffer ← assembler.headerBuffer.write assembler.headerLength part
  let filled := { assembler with
    phase := .inHeader, headerBuffer, headerLength := assembler.headerLength + part.length,
    idleReads := 0 }
  if filled.headerLength = Header.length then
    let (next, event) ← filled.takeHeader
    return (next, event, rest)
  else return (filled, none, rest)

/-- Takes as much of the input as the body lacks. -/
def fillBody (assembler : BufferedAssembler) (input : Bytes) :
    Except BufferFault (BufferedAssembler × Option AssemblerEvent × Bytes) := do
  let lacking ← difference assembler.bodyLength assembler.body.length
  let (part, rest) ← cut (min lacking input.length) input
  let filled := { assembler with
    phase := .inBody, body := assembler.body ++ part, idleReads := 0 }
  if filled.body.length = filled.bodyLength then
    let (next, event) ← filled.complete
    return (next, some event, rest)
  else return (filled, none, rest)

/-- One round of taking up bytes: what it makes of the input, and what it leaves of it. -/
def round (assembler : BufferedAssembler) (input : Bytes) :
    Except BufferFault (BufferedAssembler × Option AssemblerEvent × Bytes) :=
  match assembler.phase with
  | .start | .inHeader => assembler.fillHeader input
  | .beforeBody | .inBody => assembler.fillBody input
  | .headerTimedOut | .bodyTimedOut => .error .givenUp

def takeAll (assembler : BufferedAssembler) (input : Bytes) :
    Except BufferFault (BufferedAssembler × List AssemblerEvent) :=
  if input = [] then .ok (assembler, [])
  else do
    let (next, event, rest) ← assembler.round input
    if _progress : rest.length < input.length then
      let (last, later) ← next.takeAll rest
      return (last, event.toList ++ later)
    else throw .stalled
termination_by input.length

/-- Leaves the phase of a message that was given up. -/
def awake (assembler : BufferedAssembler) : BufferedAssembler :=
  if assembler.phase.TimedOut then assembler.clear else assembler

def idle (assembler : BufferedAssembler) :
    Except BufferFault (BufferedAssembler × Option FramingError) :=
  match assembler.phase with
  | .start => .ok (assembler, none)
  | .headerTimedOut | .bodyTimedOut => .ok (assembler.clear, none)
  | .inHeader | .beforeBody | .inBody =>
    if UInt32.size ≤ assembler.idleReads + 1 then .error .overflow
    else if assembler.idleReads + 1 ≤ assembler.limits.maxIdleReads then
      .ok ({ assembler with idleReads := assembler.idleReads + 1 }, none)
    else if assembler.phase = .inHeader then
      .ok ({ assembler.clear with phase := .headerTimedOut }, some .headerTimeout)
    else .ok ({ assembler.clear with phase := .bodyTimedOut }, some .bodyTimeout)

def read (assembler : BufferedAssembler) (read : Read) :
    Except BufferFault (BufferedAssembler × List AssemblerEvent) :=
  if read.Idle then do
    let (next, error) ← assembler.idle
    return (next, (error.map .gaveUp).toList)
  else assembler.awake.takeAll read.content

def readAll (assembler : BufferedAssembler) :
    List Read → Except BufferFault (BufferedAssembler × List AssemblerEvent)
  | [] => .ok (assembler, [])
  | read :: reads => do
    let (next, events) ← assembler.read read
    let (last, later) ← next.readAll reads
    return (last, events ++ later)

/-- The bytes that have arrived of a header under way. -/
def received (assembler : BufferedAssembler) : Bytes :=
  assembler.headerBuffer.bytes.take assembler.headerLength

def stage (assembler : BufferedAssembler) : AssemblerStage :=
  match assembler.phase, assembler.header with
  | .inHeader, _ => .header assembler.received
  | .beforeBody, some header | .inBody, some header =>
    .body header assembler.body.reverse (assembler.bodyLength - assembler.body.length)
  | .headerTimedOut, _ => .headerTimedOut
  | .bodyTimedOut, _ => .bodyTimedOut
  | _, _ => .start

/-- The assembler without what its buffers hold besides the message under way. -/
def toAssembler (assembler : BufferedAssembler) : Assembler where
  limits := assembler.limits
  stage := assembler.stage
  idleReads := assembler.idleReads

/-- What a phase says about the fields. -/
structure Sound (assembler : BufferedAssembler) : Prop where
  headerLength_inHeader : assembler.phase = .inHeader →
    1 ≤ assembler.headerLength ∧ assembler.headerLength ≤ 8
  headerLength_ofBody : assembler.phase.OfBody → assembler.headerLength = Header.length
  headerLength_atRest : assembler.phase.AtRest → assembler.headerLength = 0
  isSome_header_iff : assembler.header.isSome ↔ assembler.phase.OfBody
  length_body_lt_iff : assembler.body.length < assembler.bodyLength ↔ assembler.phase.OfBody
  bodyLength_le : assembler.bodyLength ≤ assembler.limits.maxBody
  declared : ∀ header, assembler.header = some header → header.bodySize = .ok assembler.bodyLength
  body_ne_nil_iff : assembler.body ≠ [] ↔ assembler.phase = .inBody
  idleReads_le : assembler.idleReads ≤ assembler.limits.maxIdleReads
  idleReads_atRest : assembler.phase.AtRest → assembler.idleReads = 0

end BufferedAssembler

end SharedTree
