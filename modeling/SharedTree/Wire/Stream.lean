import SharedTree.Wire.Assembler

/-!
# Reading a whole stream

`Stream.parse` says what the frames of a byte stream are when all of it lies in front of the reader: a
header, then as many bytes as the header declares, and so on. It reports the same events as an assembler,
together with the bytes of the message that the stream breaks off in.
-/

namespace SharedTree

namespace Stream

/-- The first event of a stream and the bytes behind it, if the stream is long enough to tell. -/
def next? (maxBody : Nat) (bytes : Bytes) : Option (AssemblerEvent × Bytes) :=
  match bytes.split? Header.length with
  | none => none
  | some (front, behind) =>
    let header := Header.ofBytes front
    match header.bodySize with
    | .error _ => some (.gaveUp (.undersized header.size.toNat), behind)
    | .ok declared =>
      if maxBody < declared then some (.gaveUp (.oversized declared maxBody), behind)
      else
        match behind.split? declared with
        | none => none
        | some (body, rest) => some (.completed { header, body }, rest)

/-- What follows an event is shorter. -/
theorem length_of_next? {maxBody : Nat} {bytes rest : Bytes} {event : AssemblerEvent}
    (found : next? maxBody bytes = some (event, rest)) : rest.length < bytes.length := by
  unfold next? at found
  split at found
  · cases found
  · next front behind cut =>
    have ⟨size, whole⟩ := Bytes.split?_eq_some cut
    have total : bytes.length = Header.length + behind.length := by
      rw [whole, List.length_append, size]
    have positive : 0 < Header.length := by decide
    dsimp only at found
    split at found
    · simp only [Option.some.injEq, Prod.mk.injEq] at found
      obtain ⟨_, rfl⟩ := found
      omega
    · split at found
      · simp only [Option.some.injEq, Prod.mk.injEq] at found
        obtain ⟨_, rfl⟩ := found
        omega
      · split at found
        · cases found
        · next body behindBody cutBody =>
          simp only [Option.some.injEq, Prod.mk.injEq] at found
          obtain ⟨_, rfl⟩ := found
          have shorter : behind.length = body.length + behindBody.length := by
            rw [(Bytes.split?_eq_some cutBody).2, List.length_append]
          omega

/-- The events of a stream in order, and the bytes that are not yet an event. -/
def parse (maxBody : Nat) (bytes : Bytes) : List AssemblerEvent × Bytes :=
  match found : next? maxBody bytes with
  | none => ([], bytes)
  | some (event, rest) =>
    have := length_of_next? found
    let (events, left) := parse maxBody rest
    (event :: events, left)
termination_by bytes.length

/-- The frames of a stream whose bodies may have any length, and the bytes that are not yet a frame. -/
def frames (bytes : Bytes) : List Frame × Bytes :=
  let (events, left) := parse UInt32.size bytes
  (events.filterMap fun event =>
    match event with
    | .completed frame => some frame
    | .gaveUp _ => none,
    left)

end Stream

end SharedTree
