import SharedTree.Proofs.Client.Paths
import SharedTree.Proofs.Client.Run

/-!
# Lookups and announcements

The directory of a client is told of properties in two ways: announcements are applied when their
frame is dispatched, and what was looked up is recorded when the request takes up its answer. The
answer itself was dispatched before that, and announcements may have been dispatched in between,
so the two ways do not follow the order of the stream.

`ClientRuns.looked_up` says what comes of it. A lookup leaves the property known as the answer
says, whatever was announced since the answer. The directory then agrees with the stream about
that property exactly if the last announcement about it since the answer, if there was one, says
what the answer says.
-/

namespace SharedTree

namespace ClientOccurrence

/-- A step takes the answer to a request that waits for it. -/
structure Answers (occurrence : ClientOccurrence) (number : Nat) (message : Message) : Prop where
  reads : occurrence.before.reading = true
  arrived : ∃ frame, occurrence.step = .arrived frame ∧ frame.message = .ok message ∧
    frame.transaction ≠ unsolicited ∧
    occurrence.before.waiting.find? frame.transaction = some number

/-- The changes of the tree that a step is told of. -/
def announces (occurrence : ClientOccurrence) : List TreeChange :=
  match occurrence.step with
  | .arrived frame =>
    match frame.message with
    | .ok (.metaUpdateNotification creations deletions) =>
      if occurrence.before.reading = true ∧ frame.transaction = unsolicited then
        creations.map .created ++ deletions.map .deleted
      else []
    | _ => []
  | _ => []

/-- The request that a step ends with the property that was looked up, and that property. -/
def lookedUp? (occurrence : ClientOccurrence) : Option (Nat × PropertyInfo) :=
  match occurrence.step with
  | .resumed number =>
    match occurrence.before.outcome? number with
    | some (.ok (.info (some info))) => some (number, info)
    | _ => none
  | _ => none

/-- What a step teaches the directory. -/
def learned (occurrence : ClientOccurrence) : List TreeChange :=
  occurrence.announces ++ (occurrence.lookedUp?.map fun found => .created found.2).toList

end ClientOccurrence

namespace Client

open ClientOccurrence

variable {client : Client} {number : Nat} {message : Message}

/-! ## One step -/

theorem directory_enlist (client : Client) (transaction : TransactionId) (number : Nat) :
    (client.enlist transaction number).directory = client.directory := by
  unfold enlist
  dsimp only
  split <;> rfl

theorem directory_ask (client : Client) (question : Question) :
    (client.ask question).2.directory = client.directory := by
  unfold ask
  dsimp only
  split
  · rfl
  · split <;> exact directory_enlist _ (drawTransaction client.counter).1 client.nextRequest

theorem directory_tell (client : Client) (statement : Statement) :
    (client.tell statement).2.directory = client.directory := by
  unfold tell
  dsimp only
  split
  · rfl
  · cases Frame.ofMessage statement.message (drawTransaction client.counter).1 <;> rfl

theorem directory_written (client : Client) (number : Nat) :
    (client.written number).directory = client.directory := by
  unfold written
  split
  · rfl
  · dsimp only
    split <;> rfl

theorem directory_disown (client : Client) (transaction : TransactionId) (number : Nat) :
    (client.disown transaction number).directory = client.directory := by
  unfold disown
  split
  · dsimp only
    split <;> rfl
  · rfl

theorem directory_unwritable (client : Client) (number : Nat) (reason : String) :
    (client.unwritable number reason).directory = client.directory := by
  unfold unwritable
  split
  · rfl
  · dsimp only
    split
    · exact directory_disown _ _ _
    · rfl

theorem directory_timeOut (client : Client) (number : Nat) :
    (client.timeOut number).directory = client.directory := by
  rcases client.timeOut_cases number with same | ⟨_, _, _, _, after⟩
  · rw [same]
  · rw [after]
    rfl

theorem directory_endReading (client : Client) :
    client.endReading.directory = client.directory := by
  unfold endReading
  split <;> rfl

theorem directory_noteUnsolicited (client : Client) (message : Message) :
    (client.noteUnsolicited message).directory =
      match message with
      | .metaUpdateNotification creations deletions =>
        client.directory.replay (creations.map .created ++ deletions.map .deleted)
      | _ => client.directory := by
  cases message with
  | metaUpdateNotification creations deletions =>
      exact Directory.apply_eq_replay client.directory creations deletions
  | _ => rfl

theorem directory_arrived (client : Client) (frame : Frame) :
    (client.step (.arrived frame)).directory =
      client.directory.replay (announces ⟨client, .arrived frame⟩) := by
  unfold step announces dispatch
  dsimp only
  cases client.reading with
  | false => cases frame.message with
    | error error => rfl
    | ok message => cases message <;> rfl
  | true => cases frame.message with
    | error error => rfl
    | ok message =>
        simp only [if_true, true_and]
        split
        · next isUnsolicited =>
          rw [directory_noteUnsolicited]
          cases message <;> simp [Directory.replay]
        · next solicited =>
          -- an answer is noted and teaches nothing yet
          have taught : ∀ message : Message,
              (match (Except.ok message : Except WireError Message) with
                | .ok (.metaUpdateNotification _ _) => []
                | _ => []) = ([] : List TreeChange) := by
            intro message
            cases message <;> rfl
          rw [taught]
          split <;> rfl

theorem directory_resumed (client : Client) (number : Nat) :
    (client.step (.resumed number)).directory =
      client.directory.replay (learned ⟨client, .resumed number⟩) := by
  unfold step learned announces lookedUp?
  dsimp only [takeUp]
  cases client.outcome? number with
  | none => rfl
  | some result =>
      dsimp only
      split
      · next info => simp [finish, Directory.replay, Directory.take]
      · next other =>
        split
        · next info found => exact absurd (Option.some.inj found) (other info)
        · rfl

/-- A step teaches the directory what it is told of and what it takes up, and nothing else. -/
theorem directory_step (client : Client) (step : ClientStep) :
    (client.step step).directory = client.directory.replay (learned ⟨client, step⟩) := by
  cases step with
  | asked question => exact directory_ask client question
  | told statement => exact directory_tell client statement
  | written number => exact directory_written client number
  | unwritable number reason => exact directory_unwritable client number reason
  | arrived frame =>
      rw [directory_arrived, learned]
      simp [lookedUp?]
  | read assembler readSince => rfl
  | waited milliseconds => rfl
  | resumed number => exact directory_resumed client number
  | expired number => exact directory_timeOut client number
  | closed => rfl
  | readingEnded => exact directory_endReading client

/-- A failure that is noted is no answer. -/
theorem decided_decide_error {other : Nat} {error : ClientError}
    (isDecided : (client.decide other (.error error)).decided.find? number = some (.ok message)) :
    client.decided.find? number = some (.ok message) := by
  rw [Client.decide, Table.find?_insert] at isDecided
  split at isDecided
  · cases isDecided
  · exact isDecided

theorem decided_enlist (transaction : TransactionId) (other : Nat)
    (isDecided : (client.enlist transaction other).decided.find? number = some (.ok message)) :
    client.decided.find? number = some (.ok message) := by
  unfold enlist at isDecided
  dsimp only at isDecided
  split at isDecided
  · exact decided_decide_error isDecided
  · exact isDecided

theorem decided_disown {transaction : TransactionId} {other : Nat}
    (isDecided : (client.disown transaction other).decided.find? number = some (.ok message)) :
    client.decided.find? number = some (.ok message) := by
  unfold disown at isDecided
  split at isDecided
  · dsimp only at isDecided
    split at isDecided
    · exact isDecided
    · exact decided_decide_error isDecided
  · exact isDecided

theorem decided_erase {other : Nat}
    (isDecided : (client.decided.erase other).find? number = some (.ok message)) :
    client.decided.find? number = some (.ok message) := by
  rw [Table.find?_erase] at isDecided
  split at isDecided
  · cases isDecided
  · exact isDecided

theorem decided_unwritable {other : Nat} {reason : String}
    (isDecided : (client.unwritable other reason).decided.find? number = some (.ok message)) :
    client.decided.find? number = some (.ok message) := by
  unfold unwritable at isDecided
  split at isDecided
  · exact isDecided
  · have before := decided_erase isDecided
    split at before
    · exact decided_disown before
    · exact before

theorem decided_arrived {frame : Frame}
    (isDecided : (client.step (.arrived frame)).decided.find? number = some (.ok message)) :
    client.decided.find? number = some (.ok message) ∨
      Answers ⟨client, .arrived frame⟩ number message := by
  have moves : client.Moves _ _ := moves_arrived frame
  generalize client.step (.arrived frame) = after at isDecided moves
  cases moves with
  | goesOn _ _ _ goes => exact .inl (goes.decided ▸ isDecided)
  | endedAtOnce _ ends => exact .inl (ends.decided ▸ isDecided)
  | answered reads carries solicited waits =>
      rw [answer, Client.decide, Table.find?_insert] at isDecided
      split at isDecided
      · next same =>
        cases isDecided
        exact .inr ⟨reads, frame, rfl, carries, solicited, same ▸ waits⟩
      · exact .inl isDecided
  | ended ending => cases ending

/-- An answer that is to be taken up was so before, or has just been taken. -/
theorem decided_step {step : ClientStep}
    (isDecided : (client.step step).decided.find? number = some (.ok message)) :
    client.decided.find? number = some (.ok message) ∨ Answers ⟨client, step⟩ number message := by
  cases step with
  | asked question =>
      unfold Client.step ask at isDecided
      dsimp only at isDecided
      split at isDecided
      · exact .inl isDecided
      · left
        split at isDecided
        · have before := decided_enlist (drawTransaction client.counter).1 client.nextRequest isDecided
          exact before
        · have before := decided_enlist (drawTransaction client.counter).1 client.nextRequest isDecided
          exact before
  | told statement =>
      unfold Client.step tell at isDecided
      dsimp only at isDecided
      split at isDecided
      · exact .inl isDecided
      · revert isDecided
        cases Frame.ofMessage statement.message (drawTransaction client.counter).1 with
        | error wire => exact .inl
        | ok frame => exact .inl
  | written other =>
      unfold Client.step written at isDecided
      dsimp only at isDecided
      split at isDecided
      · exact .inl isDecided
      · split at isDecided <;> exact .inl isDecided
  | unwritable other reason => exact .inl (decided_unwritable isDecided)
  | arrived frame => exact decided_arrived isDecided
  | read assembler readSince => exact .inl isDecided
  | waited milliseconds => exact .inl isDecided
  | resumed other =>
      change (client.takeUp other).decided.find? number = _ at isDecided
      cases isOutcome : client.outcome? other with
      | none =>
          rw [takeUp_of_none isOutcome] at isDecided
          exact .inl isDecided
      | some result =>
          rcases takeUp_of_outcome isOutcome with ⟨directory, after⟩
          rw [after] at isDecided
          exact .inl (decided_erase isDecided)
  | expired other =>
      change (client.timeOut other).decided.find? number = _ at isDecided
      rcases client.timeOut_cases other with same | ⟨_, _, _, _, after⟩
      · exact .inl (same ▸ isDecided)
      · rw [after] at isDecided
        exact .inl isDecided
  | closed => exact .inl isDecided
  | readingEnded =>
      change client.endReading.decided.find? number = _ at isDecided
      unfold endReading at isDecided
      split at isDecided
      · dsimp only at isDecided
        rw [Table.find?_foldl_insert] at isDecided
        split at isDecided
        · cases isDecided
        · exact .inl isDecided
      · exact .inl isDecided

end Client

/-! ## The last announcement -/

/-- What was known of a property is still true exactly if the last change about it since says so. -/
theorem Directory.known?_created_cons (info : PropertyInfo) (changes : List TreeChange) :
    known? info.uuid (.created info :: changes) = some info ↔
      ∀ earlier change later, changes = earlier ++ change :: later → change.uuid = info.uuid →
        (∀ other ∈ later, other.uuid ≠ info.uuid) → change = .created info := by
  induction changes using List.reverseRecOn with
  | nil => simp [known?, TreeChange.uuid, TreeChange.info?]
  | append_singleton changes last ih =>
      rw [← List.cons_append, known?_concat]
      split
      · next about =>
        constructor
        · intro isInfo earlier change later split _ untouched
          rcases concat_eq_split split with ⟨_, _, rfl⟩ | ⟨before, rfl, _⟩
          · exact TreeChange.eq_created_of_info? isInfo
          · exact absurd about (untouched last (by simp))
        · intro lastSays
          rw [lastSays changes last [] rfl about (List.forall_mem_nil _)]
          rfl
      · next other =>
        rw [ih]
        constructor
        · intro agrees earlier change later split same untouched
          rcases concat_eq_split split with ⟨_, _, rfl⟩ | ⟨before, rfl, rfl⟩
          · exact absurd same other
          · exact agrees earlier change before rfl same fun change mem =>
              untouched change (by simp [mem])
        · rintro agrees earlier change later rfl same untouched
          refine agrees earlier change (later ++ [last]) (by simp) same ?_
          simpa [or_imp, forall_and, other] using untouched

/-! ## What a lookup leaves behind -/

namespace ClientOccurrence

variable {occurrence : ClientOccurrence} {number : Nat} {info : PropertyInfo}

/-- Only an answer that carries a property is taken as one that was looked up. -/
theorem eq_of_reply {question : Question} {outcome : Except ClientError Message}
    (replied : outcome.bind question.reply = .ok (.info (some info))) :
    outcome = .ok (.getSpecificMetaResponse info) ∧ info.uuid ≠ noUuid := by
  cases outcome with
  | error error => cases replied
  | ok message =>
      change question.reply message = _ at replied
      unfold Question.reply at replied
      split at replied <;> simp at replied
      rcases replied with ⟨named, rfl⟩
      exact ⟨rfl, named⟩

/-- A lookup takes up an answer and ends with what it carries. -/
theorem of_lookedUp? (found : occurrence.lookedUp? = some (number, info)) :
    occurrence.before.decided.find? number = some (.ok (.getSpecificMetaResponse info)) ∧
      info.uuid ≠ noUuid ∧ occurrence.step = .resumed number ∧
      occurrence.after.ended = occurrence.before.ended ++ [(number, .ok (.info (some info)))] := by
  rcases occurrence with ⟨before, step⟩
  unfold lookedUp? at found
  dsimp only at found
  split at found
  · next resumed =>
    split at found
    · next isOutcome =>
      cases found
      rcases Client.outcome?_eq_some isOutcome with ⟨_, request, outcome, _, decided, isReply⟩
      rcases eq_of_reply isReply.symm with ⟨rfl, named⟩
      rcases Client.takeUp_of_outcome isOutcome with ⟨directory, taken⟩
      refine ⟨decided, named, rfl, ?_⟩
      rw [after, Client.step, taken]
      rfl
    · cases found
  · cases found

end ClientOccurrence

open ClientOccurrence

/-- How the directory stands after a lookup, with what has been dispatched since its answer. -/
structure Recorded (number : Nat) (info : PropertyInfo) (since : List ClientOccurrence)
    (returned : ClientOccurrence) : Prop where
  ends : returned.after.ended = returned.before.ended ++ [(number, .ok (.info (some info)))]
  known : returned.after.directory.find? info.uuid = some info
  found : returned.after.directory.uuidOf? info.path = some info.uuid
  others : ∀ uuid ≠ info.uuid,
    returned.after.directory.find? uuid = returned.before.directory.find? uuid
  /-- The directory agrees with the stream exactly if the last announcement about the property
  since the answer says what the answer says. -/
  current : returned.after.directory.find? info.uuid =
      Directory.known? info.uuid (.created info :: since.flatMap announces) ↔
    ∀ earlier change later, since.flatMap announces = earlier ++ change :: later →
      change.uuid = info.uuid → (∀ other ∈ later, other.uuid ≠ info.uuid) →
      change = .created info

namespace ClientRuns

variable {config : ClientConfig} {log : List ClientOccurrence} {client : Client} {number : Nat}
  {message : Message}

/-- What the directory knows is what was announced and what was looked up, each taken when it came. -/
theorem directory_eq_replay (run : ClientRuns config log client) :
    client.directory = Directory.empty.replay (log.flatMap learned) := by
  induction run with
  | new => rfl
  | next before step ih =>
      rw [Client.directory_step, ih, List.flatMap_append, Directory.replay_append]
      simp

/-- An answer that is to be taken up came from the stream. -/
theorem answered_of_decided (run : ClientRuns config log client)
    (isDecided : client.decided.find? number = some (.ok message)) :
    ∃ earlier answered since, log = earlier ++ answered :: since ∧
      answered.Answers number message := by
  induction run with
  | new => cases isDecided
  | @next log client before step ih =>
      rcases Client.decided_step isDecided with sooner | now
      · rcases ih sooner with ⟨earlier, answered, since, rfl, answers⟩
        exact ⟨earlier, answered, since ++ [⟨client, step⟩], by simp, answers⟩
      · exact ⟨log, ⟨client, step⟩, [], rfl, now⟩

/-- A lookup leaves the property known as its answer says, whatever was announced since the answer. -/
theorem looked_up (run : ClientRuns config log client) :
    client.directory = Directory.empty.replay (log.flatMap learned) ∧
    ∀ past returned later number info, log = past ++ returned :: later →
      returned.lookedUp? = some (number, info) →
      ∃ earlier answered since, past = earlier ++ answered :: since ∧
        answered.Answers number (.getSpecificMetaResponse info) ∧
        Recorded number info since returned := by
  refine ⟨run.directory_eq_replay, ?_⟩
  rintro past returned later number info rfl found
  rcases of_lookedUp? found with ⟨isDecided, named, resumes, ends⟩
  rcases run.before_made.answered_of_decided isDecided with
    ⟨earlier, answered, since, rfl, answers⟩
  have learns : learned returned = [.created info] := by
    rw [learned, found, announces, resumes]
    rfl
  have recorded : returned.after.directory = returned.before.directory.take (.created info) := by
    rw [ClientOccurrence.after, Client.directory_step, learns]
    rfl
  have known : returned.after.directory.find? info.uuid = some info := by
    rw [recorded, Directory.find?_take]
    exact if_pos rfl
  refine ⟨earlier, answered, since, rfl, answers, ends, known, ?_, ?_, ?_⟩
  · rw [recorded, Directory.uuidOf?_take]
    exact if_pos rfl
  · intro uuid other
    rw [recorded, Directory.find?_take]
    exact if_neg other.symm
  · rw [known, eq_comm]
    exact Directory.known?_created_cons info _

theorem looked_up_moved :
    ∃ past returned client, ClientRuns {} (past ++ [returned]) client ∧
      returned.lookedUp? = some (0, ⟨100, .value, "/a"⟩) ∧
      past.flatMap announces = [.deleted 100, .created ⟨100, .node, "/b"⟩] ∧
      client.directory.uuidOf? "/b" = none ∧
      ∃ earlier answered since, past = earlier ++ answered :: since ∧
        answered.Answers 0 (.getSpecificMetaResponse ⟨100, .value, "/a"⟩) ∧
        Recorded 0 ⟨100, .value, "/a"⟩ since returned := by
  have arrive {log : List ClientOccurrence} {client : Client} {frame : Frame}
      (before : ClientRuns {} log client) (transaction : TransactionId) (message : Message)
      (_ : Frame.ofMessage message transaction = .ok frame) := before.next (.arrived frame)
  have run : ClientRuns {} [] (.new {}) := .new
  have run := run.next (.asked (.lookUp "/a"))
  have run := run.next (.written 0)
  have run := arrive run 0 (.getSpecificMetaResponse ⟨100, .value, "/a"⟩) rfl
  have run := arrive run unsolicited (.metaUpdateNotification [] [100]) rfl
  have run := arrive run unsolicited (.metaUpdateNotification [⟨100, .node, "/b"⟩] []) rfl
  have run := run.next (.resumed 0)
  refine ⟨_, _, _, run, rfl, rfl, rfl, ?_⟩
  exact run.looked_up.2 _ _ [] _ _ rfl rfl

/-- A property is looked up and found, its deletion is announced after the answer, and then the
request takes up the answer: the directory knows a property that is gone. -/
theorem resurrected :
    ∃ asked written answered deleted returned client,
      ClientRuns {} [asked, written, answered, deleted, returned] client ∧
      answered.Answers 0 (.getSpecificMetaResponse ⟨100, .value, "/a"⟩) ∧
      deleted.announces = [.deleted 100] ∧ returned.announces = [] ∧
      returned.lookedUp? = some (0, ⟨100, .value, "/a"⟩) ∧
      client.directory.find? 100 = some ⟨100, .value, "/a"⟩ ∧
      client.directory.uuidOf? "/a" = some 100 := by
  have arrive {log : List ClientOccurrence} {client : Client} {frame : Frame}
      (before : ClientRuns {} log client) (transaction : TransactionId) (message : Message)
      (_ : Frame.ofMessage message transaction = .ok frame) := before.next (.arrived frame)
  have run : ClientRuns {} [] (.new {}) := .new
  have run := run.next (.asked (.lookUp "/a"))
  have run := run.next (.written 0)
  have run := arrive run 0 (.getSpecificMetaResponse ⟨100, .value, "/a"⟩) rfl
  have run := arrive run unsolicited (.metaUpdateNotification [] [100]) rfl
  have run := run.next (.resumed 0)
  exact ⟨_, _, _, _, _, _, run, ⟨rfl, _, rfl, rfl, by decide, rfl⟩, rfl, rfl, rfl, rfl, rfl⟩

end ClientRuns

end SharedTree
