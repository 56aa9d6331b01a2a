import SharedTree.Client.Basic
import SharedTree.Proofs.Table
import SharedTree.Proofs.Wire.Codec

/-!
# Steps of a client

A client is used in small steps: it asks and tells, frames are written or cannot be, frames
arrive, time passes, the client is told to close, the reading ends, and requests end one by one, in
any order, because they take up how they are to end or because their deadline has come.
`Client.settle`, `Client.receive` and `Client.pass` are sequences of such steps.

`Client.Moves` lists what a step can make of a client (`Client.moves_step`), as long as no
transaction id is drawn that a waiting request has, or one whose frame is on its way.
-/

namespace SharedTree

/-- Something that happens to a client. -/
inductive ClientStep where
  | asked (question : Question)
  | told (statement : Statement)
  | written (number : Nat)
  | unwritable (number : Nat) (reason : String)
  /-- A frame has been read. -/
  | arrived (frame : Frame)
  /-- What is kept of the reads has changed. -/
  | read (assembler : Assembler) (readSince : Nat)
  | waited (milliseconds : Nat)
  /-- A request takes up how it is to end. -/
  | resumed (number : Nat)
  /-- A request ends because its deadline has come. -/
  | expired (number : Nat)
  /-- The client is told to close. -/
  | closed
  | readingEnded

namespace ClientStep

/-- Something is asked or told, under the next number. -/
def Begins : ClientStep → Prop
  | .asked _ | .told _ => True
  | _ => False

/-- Nothing is begun, and no frame is lost. -/
def Continues : ClientStep → Prop
  | .asked _ | .told _ | .unwritable .. => False
  | _ => True

theorem Continues.not_begins {step : ClientStep} (continues : step.Continues) : ¬step.Begins := by
  cases step with
  | asked => exact continues.elim
  | told => exact continues.elim
  | _ => exact id

end ClientStep

namespace Client

/-- The client after a step. Nothing arrives any more when the reading has ended. -/
def step (client : Client) : ClientStep → Client
  | .asked question => (client.ask question).2
  | .told statement => (client.tell statement).2
  | .written number => client.written number
  | .unwritable number reason => client.unwritable number reason
  | .arrived frame => if client.reading then client.dispatch frame else client
  | .read assembler readSince => { client with assembler, readSince }
  | .waited milliseconds => { client with now := client.now + milliseconds }
  | .resumed number => client.takeUp number
  | .expired number => client.timeOut number
  | .closed => client.close
  | .readingEnded => client.endReading

/-! ## What a step can do -/

/-- A client whose requests are the same as those of another. -/
structure SameRequests (before after : Client) : Prop where
  counter : after.counter = before.counter
  waiting : after.waiting = before.waiting
  requests : after.requests = before.requests
  decided : after.decided = before.decided
  outgoing : after.outgoing = before.outgoing
  ended : after.ended = before.ended
  nextRequest : after.nextRequest = before.nextRequest
  closed : after.closed = before.closed
  reading : after.reading = before.reading

/-- The requests that have no deadline are those whose frames are on their way. -/
def OnTheirWay (client : Client) : Prop :=
  ∀ number request, client.requests.find? number = some request →
    (request.deadline = none ↔ client.outgoing.contains number = true)

/-- Nothing begins to wait, is decided or ends. -/
structure GoesOn (before after : Client) : Prop where
  counter : after.counter = before.counter ∨ after.counter = (drawTransaction before.counter).2
  waiting : after.waiting = before.waiting
  decided : after.decided = before.decided
  ended : after.ended = before.ended
  requests : ∀ number, (after.requests.find? number).map (fun request =>
      (request.question, request.transaction)) =
    (before.requests.find? number).map fun request => (request.question, request.transaction)
  outgoing : ∀ number, after.outgoing.contains number = true →
    before.outgoing.contains number = true ∨
      number = before.nextRequest ∧ number < after.nextRequest
  onTheirWay : before.OnTheirWay → after.OnTheirWay
  nextRequest : before.nextRequest ≤ after.nextRequest
  closed : before.closed = true → after.closed = true
  reading : after.reading = before.reading
  heard : ∃ heard, after.events = before.events ++ heard ∧ .disconnected ∉ heard ∧
    (before.reading = false → heard = [])

/-- Something has been asked or told and has ended at once. -/
structure EndsAtOnce (before : Client) (result : Except ClientError Reply) (after : Client) :
    Prop where
  counter : after.counter = before.counter ∨ after.counter = (drawTransaction before.counter).2
  waiting : after.waiting = before.waiting
  requests : after.requests = before.requests.erase before.nextRequest
  decided : after.decided = before.decided
  outgoing : after.outgoing = before.outgoing
  ended : after.ended = before.ended ++ [(before.nextRequest, result)]
  nextRequest : after.nextRequest = before.nextRequest + 1
  closed : after.closed = before.closed
  reading : after.reading = before.reading
  events : after.events = before.events
  failed : ∃ error, result = .error error

/-- Something that was under way has ended, and nothing else has changed. -/
structure Ends (before : Client) (number : Nat) (result : Except ClientError Reply)
    (after : Client) : Prop where
  counter : after.counter = before.counter
  waiting : ∀ transaction other, after.waiting.find? transaction = some other ↔
    before.waiting.find? transaction = some other ∧ other ≠ number
  requests : after.requests = before.requests.erase number
  decided : after.decided = before.decided.erase number
  outgoing : after.outgoing = before.outgoing.erase number
  ended : after.ended = before.ended ++ [(number, result)]
  nextRequest : after.nextRequest = before.nextRequest
  closed : after.closed = before.closed
  reading : after.reading = before.reading
  events : after.events = before.events

/-- Why something that is under way ends, and how. -/
inductive Ending (before : Client) : ClientStep → Nat → Except ClientError Reply → Prop where
  | told {number : Nat} (leaves : before.outgoing.contains number = true)
      (unasked : before.requests.find? number = none) :
      Ending before (.written number) number (.ok .nothing)
  | unwritable {number : Nat} {reason : String} (leaves : before.outgoing.contains number = true) :
      Ending before (.unwritable number reason) number (.error (.transport reason))
  | takenUp {number : Nat} {request : Request} {outcome : Except ClientError Message}
      (found : before.requests.find? number = some request)
      (decided : before.decided.find? number = some outcome) :
      Ending before (.resumed number) number (outcome.bind request.question.reply)
  | expired {number : Nat} {request : Request} (found : before.requests.find? number = some request)
      (due : request.isDue before.now = true) (undecided : before.decided.find? number = none) :
      Ending before (.expired number) number (.error .timedOut)

/-- A client that has asked a question and waits for the answer. -/
def issue (client : Client) (question : Question) (frame : Frame) : Client :=
  { client with
    counter := (drawTransaction client.counter).2
    nextRequest := client.nextRequest + 1
    waiting := client.waiting.insert (drawTransaction client.counter).1 client.nextRequest
    requests :=
      client.requests.insert client.nextRequest
        { question, transaction := (drawTransaction client.counter).1 }
    outgoing := client.outgoing.insert client.nextRequest frame }

/-- A client that has taken the answer to a request that waits for it under a transaction id. -/
def answer (client : Client) (transaction : TransactionId) (number : Nat) (message : Message) :
    Client :=
  (client.strike transaction).decide number (.ok message)

/-- No request has a transaction id that waits, or whose frame is on its way. -/
structure Free (client : Client) (transaction : TransactionId) : Prop where
  unawaited : client.waiting.find? transaction = none
  unsent : ∀ number request, client.requests.find? number = some request →
    client.outgoing.contains number = true → request.transaction ≠ transaction

/-- What a step makes of a client. -/
inductive Moves (before : Client) : ClientStep → Client → Prop where
  | goesOn {step : ClientStep} {after : Client} (unasked : ∀ question, step ≠ .asked question)
      (isOpen : step.Begins → before.closed = false)
      (numbered : ¬step.Begins → after.nextRequest = before.nextRequest)
      (goes : before.GoesOn after) : Moves before step after
  | endedAtOnce {step : ClientStep} {after : Client} {result : Except ClientError Reply}
      (begins : step.Begins) (ends : before.EndsAtOnce result after) : Moves before step after
  | issued {question : Question} {frame : Frame} (isOpen : before.closed = false)
      (made : Frame.ofMessage (question.message before.config)
        (drawTransaction before.counter).1 = .ok frame)
      (free : before.Free (drawTransaction before.counter).1) :
      Moves before (.asked question) (before.issue question frame)
  | answered {frame : Frame} {message : Message} {number : Nat} (reads : before.reading = true)
      (carries : frame.message = .ok message) (solicited : frame.transaction ≠ unsolicited)
      (waits : before.waiting.find? frame.transaction = some number) :
      Moves before (.arrived frame) (before.answer frame.transaction number message)
  | ended {step : ClientStep} {number : Nat} {result : Except ClientError Reply} {after : Client}
      (ending : before.Ending step number result) (ends : before.Ends number result after) :
      Moves before step after
  | readingEnded (reads : before.reading = true) : Moves before .readingEnded before.endReading

/-- The requests of a client, the table of those that wait, that of those that are decided and that
of the frames on their way fit together. -/
structure Tidy (client : Client) : Prop where
  waits : ∀ transaction number, client.waiting.find? transaction = some number ↔
    (∃ request, client.requests.find? number = some request ∧
      request.transaction = transaction) ∧ client.decided.find? number = none
  known : ∀ number outcome, client.decided.find? number = some outcome →
    ∃ request, client.requests.find? number = some request
  disconnected : ∀ number error, client.decided.find? number = some (.error error) →
    error = .disconnected
  begun : ∀ number request, client.requests.find? number = some request →
    number < client.nextRequest
  sending : ∀ number, client.outgoing.contains number = true → number < client.nextRequest
  /-- Only a request itself waits under its id as long as its frame is on its way. -/
  own : ∀ number request other, client.requests.find? number = some request →
    client.outgoing.contains number = true →
    client.waiting.find? request.transaction = some other → other = number
  onTheirWay : client.OnTheirWay
  endedOnce : (client.ended.map Prod.fst).Nodup
  gone : ∀ number ∈ client.ended.map Prod.fst, number < client.nextRequest ∧
    client.requests.find? number = none ∧ client.outgoing.contains number = false
  shut : client.reading = false →
    client.closed = true ∧ ∀ transaction, client.waiting.find? transaction = none

variable {client before after : Client} {step : ClientStep}

theorem SameRequests.refl (client : Client) : client.SameRequests client :=
  ⟨rfl, rfl, rfl, rfl, rfl, rfl, rfl, rfl, rfl⟩

theorem GoesOn.of_same (same : before.SameRequests after) {heard : List ClientEvent}
    (events : after.events = before.events ++ heard) (ordinary : .disconnected ∉ heard)
    (deaf : before.reading = false → heard = []) : before.GoesOn after where
  counter := .inl same.counter
  waiting := same.waiting
  decided := same.decided
  ended := same.ended
  requests _ := by rw [same.requests]
  outgoing _ leaves := .inl (same.outgoing ▸ leaves)
  onTheirWay := by
    unfold OnTheirWay
    rw [same.requests, same.outgoing]
    exact id
  nextRequest := Nat.le_of_eq same.nextRequest.symm
  closed shut := same.closed.trans shut
  reading := same.reading
  heard := ⟨heard, events, ordinary, deaf⟩

theorem GoesOn.refl (client : Client) : client.GoesOn client :=
  .of_same (.refl client) (List.append_nil _).symm List.not_mem_nil fun _ => rfl

theorem moves_of_goesOn (continues : ¬step.Begins)
    (numbered : after.nextRequest = before.nextRequest) (goes : before.GoesOn after) :
    before.Moves step after := by
  refine .goesOn ?_ (absurd · continues) (fun _ => numbered) goes
  rintro question rfl
  exact continues trivial

/-! ## Asking and telling -/

/-- What has just begun ends at once, whatever has been drawn. -/
theorem EndsAtOnce.finish {counter : UInt32}
    (drawn : counter = client.counter ∨ counter = (drawTransaction client.counter).2)
    (error : ClientError) :
    client.EndsAtOnce (.error error)
      (({ client with nextRequest := client.nextRequest + 1, counter } : Client).finish
        client.nextRequest (.error error)) :=
  ⟨drawn, rfl, rfl, rfl, rfl, rfl, rfl, rfl, rfl, rfl, error, rfl⟩

/-- What is made to wait under a free id and does not wait any more has left nothing behind. -/
theorem strike_enlist {transaction : TransactionId}
    (unawaited : client.waiting.find? transaction = none) (number : Nat) :
    (client.enlist transaction number).strike transaction = client := by
  rw [enlist, unawaited]
  dsimp only [strike]
  rw [Table.erase_insert_of_absent number unawaited]

theorem moves_ask (question : Question)
    (free : client.Free (drawTransaction client.counter).1) :
    client.Moves (.asked question) (client.ask question).2 := by
  unfold ask
  dsimp only
  split
  · exact .endedAtOnce trivial (.finish (.inr rfl) _)
  · next frame made =>
    split
    · rw [@strike_enlist { client with
        nextRequest := client.nextRequest + 1, counter := (drawTransaction client.counter).2 } _
        free.unawaited client.nextRequest]
      exact .endedAtOnce trivial (.finish (.inr rfl) _)
    · next isOpen =>
      rw [enlist, free.unawaited]
      exact .issued (by simpa using isOpen) made free

theorem moves_tell (tidy : client.Tidy) (statement : Statement) :
    client.Moves (.told statement) (client.tell statement).2 := by
  unfold tell
  dsimp only
  split
  · exact .endedAtOnce trivial (.finish (.inl rfl) _)
  · next isOpen =>
    split
    · exact .endedAtOnce trivial (.finish (.inr rfl) _)
    · next frame made =>
      refine .goesOn nofun (fun _ => by simpa using isOpen) (absurd trivial)
        ⟨.inr rfl, rfl, rfl, rfl, fun _ => rfl, ?_, ?_, Nat.le_succ _, id, rfl, [],
          (List.append_nil _).symm, List.not_mem_nil, fun _ => rfl⟩
      · intro number leaves
        rcases (Table.contains_insert _ _ _ _).mp leaves with old | rfl
        · exact .inl old
        · exact .inr ⟨rfl, Nat.lt_succ_self _⟩
      · intro onTheirWay number request found
        have older : number ≠ client.nextRequest := Nat.ne_of_lt (tidy.begun number request found)
        rw [onTheirWay number request found, Table.contains_insert, or_iff_left older]

/-! ## Who waits -/

theorem Tidy.not_waiting_of_absent (tidy : client.Tidy) {number : Nat}
    (absent : client.requests.find? number = none) (transaction : TransactionId) :
    client.waiting.find? transaction ≠ some number := by
  intro waits
  rcases ((tidy.waits _ _).mp waits).1 with ⟨request, found, _⟩
  cases absent.symm.trans found

theorem Tidy.not_waiting_of_decided (tidy : client.Tidy) {number : Nat}
    {outcome : Except ClientError Message} (decided : client.decided.find? number = some outcome)
    (transaction : TransactionId) : client.waiting.find? transaction ≠ some number := by
  intro waits
  cases ((tidy.waits _ _).mp waits).2.symm.trans decided

/-- Where a request does not wait, to leave it out changes nothing. -/
theorem waiting_of_idle {number : Nat}
    (idle : ∀ transaction, client.waiting.find? transaction ≠ some number)
    (transaction : TransactionId) (other : Nat) : client.waiting.find? transaction = some other ↔
      client.waiting.find? transaction = some other ∧ other ≠ number := by
  refine (and_iff_left_of_imp ?_).symm
  rintro waits rfl
  exact idle transaction waits

/-- A request that is struck off no longer waits, and no other is affected. -/
theorem Tidy.find?_waiting_strike (tidy : client.Tidy) {number : Nat} {request : Request}
    (found : client.requests.find? number = some request)
    (own : ∀ other, client.waiting.find? request.transaction = some other → other = number)
    (transaction : TransactionId) (other : Nat) :
    (client.waiting.erase request.transaction).find? transaction = some other ↔
      client.waiting.find? transaction = some other ∧ other ≠ number := by
  rw [Table.find?_erase]
  split
  · next same =>
    rw [same]
    constructor
    · intro struck
      cases struck
    · exact fun waits => absurd (own other waits.1) waits.2
  · next differs =>
    refine (and_iff_left_of_imp ?_).symm
    rintro waits rfl
    rcases ((tidy.waits _ _).mp waits).1 with ⟨same, foundSame, rfl⟩
    cases found.symm.trans foundSame
    exact differs rfl

/-! ## Writing -/

theorem moves_written (tidy : client.Tidy) (number : Nat) :
    client.Moves (.written number) (client.written number) := by
  unfold written
  split
  · exact moves_of_goesOn id rfl (.refl client)
  · next frame leaves =>
    have isLeaving : client.outgoing.contains number = true :=
      (Table.contains_iff _ _).mpr ⟨frame, leaves⟩
    dsimp only
    split
    · next asked =>
      refine moves_of_goesOn id rfl ⟨.inl rfl, rfl, rfl, rfl, ?_, ?_, ?_, Nat.le_refl _, id, rfl, [],
        (List.append_nil _).symm, List.not_mem_nil, fun _ => rfl⟩
      · intro other
        rw [Table.find?_modify]
        split
        · rw [Option.map_map]
          rfl
        · rfl
      · intro other remains
        exact .inl ((Table.contains_erase _ _ _).mp remains).1
      · intro onTheirWay other request found
        dsimp only at found ⊢
        rw [Table.find?_modify] at found
        rw [Table.contains_erase]
        split at found
        · next same =>
          rcases Option.map_eq_some_iff.mp found with ⟨_, _, rfl⟩
          simp [same]
        · next differs => rw [onTheirWay other request found, and_iff_left differs]
    · next unasked =>
      rw [Bool.not_eq_true, Table.contains_eq_false_iff] at unasked
      have undecided : client.decided.find? number = none := by
        cases isDecided : client.decided.find? number with
        | none => rfl
        | some outcome =>
            rcases tidy.known number outcome isDecided with ⟨request, found⟩
            cases unasked.symm.trans found
      have kept := Table.erase_of_absent ((Table.contains_eq_false_iff _ _).mpr undecided)
      exact .ended (.told isLeaving unasked)
        ⟨rfl, waiting_of_idle (tidy.not_waiting_of_absent unasked), rfl, kept.symm, rfl, rfl, rfl,
          rfl, rfl, rfl⟩

/-- Only a request itself waits under an id that is its own. -/
theorem disown_eq_strike {transaction : TransactionId} {number : Nat}
    (own : ∀ other, client.waiting.find? transaction = some other → other = number) :
    client.disown transaction number = client.strike transaction := by
  unfold disown
  split
  · next other waits => rw [if_pos (own other waits)]
  · rfl

theorem moves_unwritable (tidy : client.Tidy) (number : Nat) (reason : String) :
    client.Moves (.unwritable number reason) (client.unwritable number reason) := by
  unfold unwritable
  split
  · exact moves_of_goesOn id rfl (.refl client)
  · next frame leaves =>
    have isLeaving : client.outgoing.contains number = true :=
      (Table.contains_iff _ _).mpr ⟨frame, leaves⟩
    refine .ended (.unwritable isLeaving) ?_
    cases found : client.requests.find? number with
    | none =>
        exact ⟨rfl, waiting_of_idle (tidy.not_waiting_of_absent found), rfl, rfl, rfl, rfl, rfl, rfl,
          rfl, rfl⟩
    | some request =>
        have own := fun other => tidy.own number request other found isLeaving
        dsimp only
        rw [disown_eq_strike own]
        exact ⟨rfl, tidy.find?_waiting_strike found own, rfl, rfl, rfl, rfl, rfl, rfl, rfl, rfl⟩

/-! ## Reading -/

theorem noteUnsolicited_spec (client : Client) (message : Message) :
    client.SameRequests (client.noteUnsolicited message) ∧
      ∃ heard, (client.noteUnsolicited message).events = client.events ++ heard ∧
        .disconnected ∉ heard := by
  unfold noteUnsolicited
  split
  · exact ⟨⟨rfl, rfl, rfl, rfl, rfl, rfl, rfl, rfl, rfl⟩, [_], rfl, by simp⟩
  · next updates =>
    exact ⟨⟨rfl, rfl, rfl, rfl, rfl, rfl, rfl, rfl, rfl⟩, updates.map .update, rfl, by simp⟩
  · exact ⟨⟨rfl, rfl, rfl, rfl, rfl, rfl, rfl, rfl, rfl⟩, [_], rfl, by simp⟩
  · exact ⟨⟨rfl, rfl, rfl, rfl, rfl, rfl, rfl, rfl, rfl⟩, [], (List.append_nil _).symm, by simp⟩

theorem moves_arrived (frame : Frame) :
    client.Moves (.arrived frame) (client.step (.arrived frame)) := by
  have nothing : client.Moves (.arrived frame) client := moves_of_goesOn id rfl (.refl client)
  unfold step
  dsimp only
  split
  · next reads =>
    unfold dispatch
    split
    · exact nothing
    · next message carries =>
      split
      · rcases noteUnsolicited_spec client message with ⟨same, heard, events, ordinary⟩
        refine moves_of_goesOn id same.nextRequest (.of_same same events ordinary fun ended => ?_)
        rw [reads] at ended
        cases ended
      · next solicited =>
        split
        · exact nothing
        · next number waits => exact .answered reads carries solicited waits
  · exact nothing

theorem moves_readingEnded : client.Moves .readingEnded client.endReading := by
  cases reads : client.reading with
  | true => exact .readingEnded reads
  | false =>
      have same : client.endReading = client := by
        rw [endReading, reads]
        rfl
      rw [same]
      exact moves_of_goesOn id rfl (.refl client)

theorem endReading_of_reads (reads : client.reading = true) : client.endReading =
    { client with
      closed := true
      reading := false
      decided :=
        client.waiting.values.foldl
          (fun decided request => decided.insert request (.error .disconnected)) client.decided
      waiting := .empty
      events := client.events ++ [.disconnected] } := by
  rw [endReading, if_pos reads]

/-! ## Ending -/

theorem outcome?_eq_some {number : Nat} {result : Except ClientError Reply}
    (isOutcome : client.outcome? number = some result) :
    client.outgoing.contains number = false ∧
      ∃ request outcome, client.requests.find? number = some request ∧
        client.decided.find? number = some outcome ∧
        result = outcome.bind request.question.reply := by
  unfold outcome? at isOutcome
  split at isOutcome
  · cases isOutcome
  · next written =>
    split at isOutcome
    · next request outcome found decided =>
      cases isOutcome
      exact ⟨by simpa using written, request, outcome, found, decided, rfl⟩
    · cases isOutcome

/-- Whatever a request has learned, it has ended with its result. -/
theorem takeUp_of_outcome {number : Nat} {result : Except ClientError Reply}
    (isOutcome : client.outcome? number = some result) :
    ∃ directory, client.takeUp number =
      ({ client with decided := client.decided.erase number, directory } : Client).finish number
        result := by
  unfold takeUp
  rw [isOutcome]
  dsimp only
  split
  · exact ⟨_, rfl⟩
  · exact ⟨client.directory, rfl⟩

theorem takeUp_of_none {number : Nat} (none : client.outcome? number = none) :
    client.takeUp number = client := by
  rw [takeUp, none]

theorem moves_takeUp (tidy : client.Tidy) (number : Nat) :
    client.Moves (.resumed number) (client.takeUp number) := by
  cases isOutcome : client.outcome? number with
  | none =>
      rw [takeUp_of_none isOutcome]
      exact moves_of_goesOn id rfl (.refl client)
  | some result =>
      rcases outcome?_eq_some isOutcome with ⟨written, request, outcome, found, decided, rfl⟩
      rcases takeUp_of_outcome isOutcome with ⟨directory, after⟩
      rw [after]
      exact .ended (.takenUp found decided)
        ⟨rfl, waiting_of_idle (tidy.not_waiting_of_decided decided), rfl, rfl,
          (Table.erase_of_absent written).symm, rfl, rfl, rfl, rfl, rfl⟩

theorem timeOut_cases (client : Client) (number : Nat) :
    client.timeOut number = client ∨
      ∃ request, client.requests.find? number = some request ∧
        request.isDue client.now = true ∧ client.decided.find? number = none ∧
        client.timeOut number =
          (client.strike request.transaction).finish number (.error .timedOut) := by
  unfold timeOut
  split
  · exact .inl rfl
  · next request found =>
    split
    · next ends =>
      rw [Bool.and_eq_true, Bool.not_eq_true', Table.contains_eq_false_iff] at ends
      exact .inr ⟨request, found, ends.1, ends.2, rfl⟩
    · exact .inl rfl

theorem moves_timeOut (tidy : client.Tidy) (number : Nat) :
    client.Moves (.expired number) (client.timeOut number) := by
  rcases client.timeOut_cases number with same | ⟨request, found, due, undecided, after⟩
  · rw [same]
    exact moves_of_goesOn id rfl (.refl client)
  · have waits := (tidy.waits request.transaction number).mpr ⟨⟨request, found, rfl⟩, undecided⟩
    have hasDeadline : request.deadline ≠ none := by
      intro none
      simp [Request.isDue, none] at due
    have written : client.outgoing.contains number = false := by
      rw [← Bool.not_eq_true, ← tidy.onTheirWay number request found]
      exact hasDeadline
    have unknown := (Table.contains_eq_false_iff _ _).mpr undecided
    rw [after]
    refine .ended (.expired found due undecided) ⟨rfl, ?_, rfl,
      (Table.erase_of_absent unknown).symm, (Table.erase_of_absent written).symm, rfl, rfl, rfl,
      rfl, rfl⟩
    exact tidy.find?_waiting_strike found fun other otherWaits =>
      (Option.some.inj (waits.symm.trans otherWaits)).symm

theorem moves_close : client.Moves .closed client.close :=
  moves_of_goesOn id rfl ⟨.inl rfl, rfl, rfl, rfl, fun _ => rfl, fun _ => .inl, id,
    Nat.le_refl _, fun _ => rfl, rfl, [], (List.append_nil _).symm, List.not_mem_nil, fun _ => rfl⟩

/-! ## All steps -/

/-- Every step is one of these, as long as no id is drawn that is in use. -/
theorem moves_step (tidy : client.Tidy) (step : ClientStep)
    (free : ∀ question, step = .asked question →
      client.Free (drawTransaction client.counter).1) :
    client.Moves step (client.step step) := by
  have nothing {assembler : Assembler} {readSince now : Nat} :
      client.GoesOn { client with assembler, readSince, now } :=
    .of_same ⟨rfl, rfl, rfl, rfl, rfl, rfl, rfl, rfl, rfl⟩ (List.append_nil _).symm
      List.not_mem_nil fun _ => rfl
  cases step with
  | asked question => exact moves_ask question (free question rfl)
  | told statement => exact moves_tell tidy statement
  | written number => exact moves_written tidy number
  | unwritable number reason => exact moves_unwritable tidy number reason
  | arrived frame => exact moves_arrived frame
  | read assembler readSince => exact moves_of_goesOn id rfl nothing
  | waited milliseconds => exact moves_of_goesOn id rfl nothing
  | resumed number => exact moves_takeUp tidy number
  | expired number => exact moves_timeOut tidy number
  | closed => exact moves_close
  | readingEnded => exact moves_readingEnded

theorem counter_ask (client : Client) (question : Question) :
    (client.ask question).2.counter = (drawTransaction client.counter).2 := by
  unfold ask
  dsimp only
  split
  · rfl
  · split
    · unfold enlist
      dsimp only
      split <;> rfl
    · unfold enlist
      dsimp only
      split <;> rfl

/-- A step draws one transaction id or none. -/
theorem Moves.counter (moves : before.Moves step after) :
    after.counter = before.counter ∨ after.counter = (drawTransaction before.counter).2 := by
  cases moves with
  | goesOn _ _ _ goes => exact goes.counter
  | endedAtOnce _ ends => exact ends.counter
  | issued => exact .inr rfl
  | answered => exact .inl rfl
  | ended _ ends => exact .inl ends.counter
  | readingEnded reads =>
      rw [endReading_of_reads reads]
      exact .inl rfl

end Client

end SharedTree
