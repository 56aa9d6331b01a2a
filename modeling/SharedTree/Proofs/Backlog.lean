import SharedTree.Proofs.Wire.Codec
import SharedTree.Backlog

/-!
# What leaves a backlog

Cutting a backlog into batches neither loses an entry nor moves one: the entries of the
batches, one batch after the other, are the entries of the backlog in order. A batch is over the
limit only if it is a single entry, so if each entry can be sent in a message within the limit,
then so can each batch.
-/

namespace SharedTree

/-- The change that an entry announces. -/
def BacklogEntry.change? : BacklogEntry → Option TreeChange
  | .change announced => some announced
  | _ => none

/-- The update that an entry delivers. -/
def BacklogEntry.update? : BacklogEntry → Option ValueUpdate
  | .update sent => some sent
  | _ => none

namespace Batch

@[simp] theorem entries_single (entry : BacklogEntry) : (single entry).entries = [entry] := by
  rcases entry with (_ | _) | _ | _ <;> rfl

theorem entries_append? {batch longer : Batch} {entry : BacklogEntry}
    (joined : batch.append? entry = some longer) : longer.entries = batch.entries ++ [entry] := by
  unfold append? at joined
  split at joined
  all_goals first | cases joined; simp [entries] | cases joined

theorem flatMap_entries_gatherFrom (maxBody : Nat) (batch : Batch) (rest : List BacklogEntry) :
    (gatherFrom maxBody batch rest).flatMap entries = batch.entries ++ rest := by
  induction rest generalizing batch with
  | nil => simp [gatherFrom]
  | cons entry rest ih =>
      rw [gatherFrom]
      split
      · next longer extended =>
        have joined := (Option.filter_eq_some_iff.mp extended).1
        rw [ih, entries_append? joined, List.append_assoc, List.singleton_append]
      · rw [List.flatMap_cons, ih, entries_single, List.singleton_append]

/-- Gathering neither loses an entry nor moves one. -/
theorem flatMap_entries_gather (maxBody : Nat) (entries : List BacklogEntry) :
    (gather maxBody entries).flatMap Batch.entries = entries := by
  cases entries with
  | nil => rfl
  | cons entry rest =>
      rw [gather, flatMap_entries_gatherFrom, entries_single, List.singleton_append]

theorem mem_of_whole {maxBody : Nat} {entries : List BacklogEntry} {frame : Frame}
    (gathered : .whole frame ∈ gather maxBody entries) : .frame frame ∈ entries := by
  rw [← flatMap_entries_gather maxBody entries]
  exact List.mem_flatMap.mpr ⟨.whole frame, gathered, List.mem_singleton_self _⟩

/-- The message of a batch, if it has one, is within a limit. -/
def Fits (maxBody : Nat) (batch : Batch) : Prop :=
  ∀ message, batch.message? = some message → message.size ≤ maxBody

variable {maxBody : Nat}

theorem size_of_message? {batch : Batch} {message : Message}
    (sent : batch.message? = some message) : batch.size = message.size := by
  cases batch <;> cases sent <;> rfl

theorem fits_extend? {batch longer : Batch} {entry : BacklogEntry}
    (extended : batch.extend? maxBody entry = some longer) : longer.Fits maxBody := by
  intro message sent
  rw [← size_of_message? sent]
  exact of_decide_eq_true (Option.filter_eq_some_iff.mp extended).2

/-- A batch goes over the limit only by an entry that would do so alone. -/
theorem fits_or_single_gatherFrom {batch : Batch} {entries rest : List BacklogEntry}
    (begun : batch.Fits maxBody ∨ ∃ entry ∈ entries, batch = single entry)
    (among : ∀ entry ∈ rest, entry ∈ entries) :
    ∀ sent ∈ gatherFrom maxBody batch rest,
      sent.Fits maxBody ∨ ∃ entry ∈ entries, sent = single entry := by
  induction rest generalizing batch with
  | nil => simpa [gatherFrom] using begun
  | cons entry rest ih =>
      rw [List.forall_mem_cons] at among
      rw [gatherFrom]
      split
      · next longer extended => exact ih (Or.inl (fits_extend? extended)) among.2
      · exact List.forall_mem_cons.mpr ⟨begun, ih (Or.inr ⟨entry, among.1, rfl⟩) among.2⟩

theorem fits_or_single_gather {entries : List BacklogEntry} :
    ∀ sent ∈ gather maxBody entries,
      sent.Fits maxBody ∨ ∃ entry ∈ entries, sent = single entry := by
  cases entries with
  | nil => simp [gather]
  | cons entry rest =>
      apply fits_or_single_gatherFrom
      · exact Or.inr ⟨entry, List.mem_cons_self, rfl⟩
      · exact fun _ mem => List.mem_cons_of_mem _ mem

/-- Gathering makes no message that is over the limit of entries that are within it. -/
theorem fits_gather {entries : List BacklogEntry}
    (each : ∀ entry ∈ entries, (single entry).Fits maxBody) :
    ∀ sent ∈ gather maxBody entries, sent.Fits maxBody := by
  intro sent gathered
  rcases fits_or_single_gather sent gathered with fits | ⟨entry, mem, rfl⟩
  · exact fits
  · exact each entry mem

end Batch

/-! ## Reading frames back -/

/-- The entries that a frame from a backlog stands for. -/
def Frame.entries (frame : Frame) : List BacklogEntry :=
  match frame.message with
  | .ok (.metaUpdateNotification creations deletions) =>
    (Batch.changes creations deletions).entries
  | .ok (.propertyUpdateNotification sent) => (Batch.updates sent).entries
  | _ => [.frame frame]

theorem Batch.entries_toFrame? {batch : Batch} {frame : Frame}
    (made : batch.toFrame? = some frame)
    (whole : ∀ frame, batch = .whole frame → frame.entries = [.frame frame]) :
    frame.entries = batch.entries := by
  cases batch with
  | changes creations deletions =>
      have carried := Frame.message_ofMessage (Frame.ofMessage_of_toOption made)
      rw [Frame.entries, carried]
  | updates sent =>
      have carried := Frame.message_ofMessage (Frame.ofMessage_of_toOption made)
      rw [Frame.entries, carried]
  | whole other =>
      cases made
      exact whole _ rfl

theorem Batch.flatMap_entries_toFrame? {batches : List Batch}
    (fits : ∀ batch ∈ batches, batch.toFrame? ≠ none)
    (whole : ∀ frame, .whole frame ∈ batches → frame.entries = [.frame frame]) :
    (batches.filterMap Batch.toFrame?).flatMap Frame.entries =
      batches.flatMap Batch.entries := by
  induction batches with
  | nil => rfl
  | cons batch batches ih =>
      rcases Option.ne_none_iff_exists'.mp (fits batch (by simp)) with ⟨frame, made⟩
      have first := Batch.entries_toFrame? made fun other isWhole => whole other (by simp [isWhole])
      have rest := ih (fun batch mem => fits batch (List.mem_cons_of_mem _ mem))
        fun frame mem => whole frame (List.mem_cons_of_mem _ mem)
      rw [List.filterMap_cons_some made, List.flatMap_cons, List.flatMap_cons, first, rest]

/-- The frames for a backlog, read back, are what was in it. -/
theorem Backlog.flatMap_entries_frames {backlog : Backlog}
    (fits : ∀ batch ∈ Batch.gather backlog.maxBody backlog.entries, batch.toFrame? ≠ none)
    (whole : ∀ frame, .frame frame ∈ backlog.entries → frame.entries = [.frame frame]) :
    backlog.frames.flatMap Frame.entries = backlog.entries := by
  rw [Backlog.frames, Batch.flatMap_entries_toFrame? fits, Batch.flatMap_entries_gather]
  intro frame isBatch
  exact whole frame (Batch.mem_of_whole isBatch)

/-! ## What a drain sends -/

/-- The frame that an entry is. -/
def BacklogEntry.frame? : BacklogEntry → Option Frame
  | .frame whole => some whole
  | _ => none

/-- Whether a frame is of a kind that entries are announced with. -/
def Frame.notifies (frame : Frame) : Bool :=
  match frame.header.kind with
  | .ok .metaUpdateNotification | .ok .propertyUpdateNotification => true
  | _ => false

theorem Frame.entries_of_not_notifies {frame : Frame} (other : frame.notifies = false) :
    frame.entries = [.frame frame] := by
  unfold Frame.entries
  split
  · next carried => simp [notifies, Frame.kind_of_message carried, Message.kind] at other
  · next carried => simp [notifies, Frame.kind_of_message carried, Message.kind] at other
  · rfl

namespace Batch

variable {maxBody : Nat} {batch : Batch} {batches : List Batch} {frame : Frame}

theorem toFrame?_ne_none (fits : ∀ message, batch.message? = some message →
    message.size + Header.length < UInt32.size) : batch.toFrame? ≠ none := by
  cases batch with
  | changes creations deletions =>
      rcases Frame.exists_ofMessage (fits _ rfl) unsolicited with ⟨frame, made⟩
      simp [toFrame?, made, Except.toOption]
  | updates updates =>
      rcases Frame.exists_ofMessage (fits _ rfl) unsolicited with ⟨frame, made⟩
      simp [toFrame?, made, Except.toOption]
  | whole frame => simp [toFrame?]

theorem toFrame?_cases (made : batch.toFrame? = some frame) :
    batch = .whole frame ∨
      frame.notifies = true ∧ batch.entries.filterMap BacklogEntry.frame? = [] ∧
        ∃ message, batch.message? = some message ∧
          Frame.ofMessage message unsolicited = .ok frame := by
  cases batch with
  | changes creations deletions =>
      have made := Frame.ofMessage_of_toOption made
      refine Or.inr ⟨?_, ?_, _, rfl, made⟩
      · simp [Frame.notifies, Frame.kind_ofMessage made, Message.kind]
      · simp [entries, List.filterMap_map, Function.comp_def, BacklogEntry.frame?]
  | updates updates =>
      have made := Frame.ofMessage_of_toOption made
      refine Or.inr ⟨?_, ?_, _, rfl, made⟩
      · simp [Frame.notifies, Frame.kind_ofMessage made, Message.kind]
      · simp [entries, List.filterMap_map, Function.comp_def, BacklogEntry.frame?]
  | whole same =>
      cases made
      exact Or.inl rfl

theorem filter_toFrame? (fits : ∀ batch ∈ batches, batch.toFrame? ≠ none)
    (others : ∀ frame, .whole frame ∈ batches → frame.notifies = false) :
    (batches.filterMap toFrame?).filter (fun frame => !frame.notifies) =
      (batches.flatMap entries).filterMap BacklogEntry.frame? := by
  induction batches with
  | nil => rfl
  | cons batch batches ih =>
      rw [List.forall_mem_cons] at fits
      rcases Option.ne_none_iff_exists'.mp fits.1 with ⟨frame, made⟩
      have rest := ih fits.2 fun frame mem => others frame (List.mem_cons_of_mem _ mem)
      rw [List.filterMap_cons_some made, List.flatMap_cons, List.filterMap_append, ← rest]
      rcases toFrame?_cases made with rfl | ⟨notifies, noFrames, _⟩
      · have other := others frame List.mem_cons_self
        simp [other, entries, BacklogEntry.frame?]
      · simp [notifies, noFrames]

end Batch

namespace Backlog

/-- What makes frames a faithful account of entries: read back, they are the entries; those that
were frames are unchanged; and the others are sent unasked, and are within the limit unless they
carry a single entry. -/
structure Delivers (maxBody : Nat) (entries : List BacklogEntry) (frames : List Frame) :
    Prop where
  readBack : frames.flatMap Frame.entries = entries
  unchanged : frames.filter (fun frame => !frame.notifies) =
    entries.filterMap BacklogEntry.frame?
  unasked : ∀ frame ∈ frames, frame.notifies = true → frame.transaction = unsolicited
  bounded : ∀ frame ∈ frames, frame.notifies = true →
    frame.body.length ≤ maxBody ∨ ∃ entry, frame.entries = [entry]

variable {backlog : Backlog}

theorem exists_batch_of_notifies {frame : Frame}
    (others : ∀ frame, .frame frame ∈ backlog.entries → frame.notifies = false)
    (sent : frame ∈ backlog.frames) (notifies : frame.notifies = true) :
    ∃ batch ∈ Batch.gather backlog.maxBody backlog.entries, batch.toFrame? = some frame ∧
      ∃ message, batch.message? = some message ∧
        Frame.ofMessage message unsolicited = .ok frame := by
  rcases List.mem_filterMap.mp sent with ⟨batch, mem, made⟩
  rcases Batch.toFrame?_cases made with rfl | ⟨_, _, encoded⟩
  · rw [others frame (Batch.mem_of_whole mem)] at notifies
    cases notifies
  · exact ⟨batch, mem, made, encoded⟩

/-- Draining sends everything that waits, in order, within the limit as far as single entries are,
and leaves nothing waiting. -/
theorem delivers_drain (limit : backlog.maxBody + Header.length < UInt32.size)
    (singles : ∀ entry ∈ backlog.entries, ∀ message, (Batch.single entry).message? = some message →
      message.size + Header.length < UInt32.size)
    (others : ∀ frame, .frame frame ∈ backlog.entries → frame.notifies = false) :
    backlog.drain.2 = { backlog with entries := [] } ∧
      Delivers backlog.maxBody backlog.entries backlog.drain.1 := by
  have fits : ∀ batch ∈ Batch.gather backlog.maxBody backlog.entries, batch.toFrame? ≠ none := by
    intro batch mem
    apply Batch.toFrame?_ne_none
    intro message sent
    rcases Batch.fits_or_single_gather batch mem with within | ⟨entry, waits, rfl⟩
    · have := within message sent
      omega
    · exact singles entry waits message sent
  refine ⟨rfl, ?_, ?_, ?_, ?_⟩
  · apply flatMap_entries_frames fits
    intro frame waits
    exact Frame.entries_of_not_notifies (others frame waits)
  · simp only [drain, frames]
    rw [Batch.filter_toFrame? fits, Batch.flatMap_entries_gather]
    intro frame mem
    exact others frame (Batch.mem_of_whole mem)
  · intro frame sent notifies
    rcases exists_batch_of_notifies others sent notifies with ⟨_, _, _, message, _, encoded⟩
    exact Frame.transaction_ofMessage encoded
  · intro frame sent notifies
    rcases exists_batch_of_notifies others sent notifies with
      ⟨batch, mem, made, message, carried, encoded⟩
    rcases Batch.fits_or_single_gather batch mem with within | ⟨entry, waits, rfl⟩
    · left
      rw [Frame.length_body_ofMessage encoded]
      exact within message carried
    · right
      refine ⟨entry, ?_⟩
      rw [Batch.entries_toFrame? made, Batch.entries_single]
      intro whole isWhole
      rw [isWhole] at carried
      cases carried

/-- A creation behind a deletion, a body over the limit and a complete frame each end a batch. -/
theorem delivers_drain_mixed :
    ∃ backlog : Backlog, backlog.maxBody = 24 ∧ backlog.size = 7 ∧
      backlog.frames.map (·.body.length) = [23, 19, 42, 4, 22] ∧
      Delivers backlog.maxBody backlog.entries backlog.drain.1 := by
  refine ⟨
    { maxBody := 24, maxEntries := 8,
      entries := [.change (.created ⟨100, .value, "/a"⟩), .change (.deleted 101),
        .change (.created ⟨102, .rpc, "/b"⟩), .update ⟨100, List.replicate 30 0⟩,
        .frame ⟨⟨MessageKind.rpcResponse.tag, 13, 5⟩, [0, 0, 0, 0]⟩, .update ⟨100, [1]⟩,
        .update ⟨103, [2]⟩] },
    rfl, rfl, by decide, ?_⟩
  refine (delivers_drain ?_ ?_ ?_).2
  · decide
  · intro entry waits message carried
    simp only [List.mem_cons, List.not_mem_nil, or_false] at waits
    rcases waits with rfl | rfl | rfl | rfl | rfl | rfl | rfl
    all_goals cases carried
    all_goals decide
  · intro frame waits
    simp only [List.mem_cons, List.not_mem_nil, or_false, reduceCtorEq, false_or,
      BacklogEntry.frame.injEq] at waits
    rw [waits]
    decide

end Backlog

end SharedTree
