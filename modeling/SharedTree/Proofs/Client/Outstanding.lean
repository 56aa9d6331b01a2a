import SharedTree.Proofs.Client.Run
import SharedTree.Proofs.Client.Transactions
import SharedTree.Proofs.Places

/-!
# Outstanding requests

A request is outstanding from when it is asked until it is resolved: by an answer, by its deadline,
because its frame cannot be written, or because the reading ends. This is when its waiter is given
what it waits for; the request takes that up and ends when it goes on, which it cannot do as long as
its frame is on its way.

A transaction id comes round again after a cycle of all ids, so a client is expected to be unhurried:
no request is outstanding or on its way for a whole cycle. Under this assumption the table of a
client has exactly the outstanding requests (`ClientRuns.tracked`).
-/

namespace SharedTree

namespace Client

/-- The request that a step makes: its number and its transaction id. -/
def issue? (before : Client) (step : ClientStep) (after : Client) : Option (Nat × TransactionId) :=
  match step with
  | .asked _ =>
    (after.outgoing.find? before.nextRequest).map fun frame =>
      (before.nextRequest, frame.transaction)
  | _ => none

/-- How a request is resolved that waits and fails all the same. -/
def failure? (client : Client) :
    Nat × Except ClientError Reply → Option (Nat × Except ClientError Message)
  | (number, .error error) =>
    if number ∈ client.waiting.values then some (number, .error error) else none
  | _ => none

/-- The requests that a step resolves, and how. -/
def resolutions (before after : Client) : List (Nat × Except ClientError Message) :=
  (after.decided.entries.filter fun entry => !before.decided.contains entry.1) ++
    (after.ended.drop before.ended.length).filterMap before.failure?

end Client

namespace ClientOccurrence

variable (occurrence : ClientOccurrence)

def issue? : Option (Nat × TransactionId) :=
  occurrence.before.issue? occurrence.step occurrence.after

def resolutions : List (Nat × Except ClientError Message) :=
  occurrence.before.resolutions occurrence.after

/-- A transaction id is drawn. -/
def Draws : Prop := occurrence.after.counter ≠ occurrence.before.counter

instance : Decidable occurrence.Draws := inferInstanceAs (Decidable (_ ≠ _))

end ClientOccurrence

/-- How many transaction ids have been drawn. -/
def drawn (log : List ClientOccurrence) : Nat := log.countP fun occurrence => occurrence.Draws

/-- The requests that have been resolved, and how. -/
def resolved (log : List ClientOccurrence) : List (Nat × Except ClientError Message) :=
  log.flatMap ClientOccurrence.resolutions

/-- A request has been made with a transaction id and has not been resolved. -/
def Outstanding (log : List ClientOccurrence) (number : Nat) (transaction : TransactionId) : Prop :=
  (∃ issuing ∈ log, issuing.issue? = some (number, transaction)) ∧
    number ∉ (resolved log).map Prod.fst

/-- While a request is outstanding or its frame is on its way, less than a cycle of ids is drawn. -/
def Unhurried (log : List ClientOccurrence) : Prop :=
  ∀ earlier issuing between drawing later number transaction,
    log = earlier ++ issuing :: (between ++ drawing :: later) →
    issuing.issue? = some (number, transaction) →
    (Outstanding (earlier ++ issuing :: between) number transaction ∨
      drawing.before.outgoing.contains number = true) →
    drawn (between ++ [drawing]) < transactionCount

/-! ## What each step resolves -/

namespace Client

variable {client before after : Client} {step : ClientStep} {number : Nat}
  {result : Except ClientError Reply}

theorem resolutions_of_append {results : List (Nat × Except ClientError Reply)}
    (decided : after.decided.entries.filter (fun entry => !before.decided.contains entry.1) = [])
    (ended : after.ended = before.ended ++ results) :
    before.resolutions after = results.filterMap before.failure? := by
  rw [resolutions, decided, ended, List.drop_left, List.nil_append]

/-- What has been decided before is not decided now. -/
theorem filter_decided_of_subset
    (subset : ∀ entry ∈ after.decided.entries, before.decided.contains entry.1 = true) :
    after.decided.entries.filter (fun entry => !before.decided.contains entry.1) = [] := by
  rw [List.filter_eq_nil_iff]
  intro entry mem
  simp [subset entry mem]

theorem filter_decided_of_same (same : after.decided = before.decided) :
    after.decided.entries.filter (fun entry => !before.decided.contains entry.1) = [] := by
  refine filter_decided_of_subset fun entry mem => ?_
  rw [same, Table.mem_entries_iff] at mem
  exact (Table.contains_iff _ _).mpr ⟨_, mem⟩

theorem resolutions_of_kept (decided : after.decided = before.decided)
    (ended : after.ended = before.ended) : before.resolutions after = [] :=
  resolutions_of_append (filter_decided_of_same decided) (ended.trans (List.append_nil _).symm)

/-- Decisions on requests of which nothing was known are the resolutions of a step that ends
nothing. -/
theorem resolutions_of_decisions {decisions : List (Nat × Except ClientError Message)}
    (entries : after.decided.entries = before.decided.entries ++ decisions)
    (undecided : ∀ decision ∈ decisions, before.decided.find? decision.1 = none)
    (ended : after.ended = before.ended) : before.resolutions after = decisions := by
  have old : before.decided.entries.filter (fun entry => !before.decided.contains entry.1) = [] :=
    @filter_decided_of_same before before rfl
  have new : decisions.filter (fun entry => !before.decided.contains entry.1) = decisions := by
    refine List.filter_eq_self.mpr fun decision mem => ?_
    simp [(Table.contains_eq_false_iff _ _).mpr (undecided decision mem)]
  rw [resolutions, entries, List.filter_append, old, new, ended, List.drop_length]
  simp

theorem resolutions_issue (question : Question) (frame : Frame) :
    client.resolutions (client.issue question frame) = [] :=
  resolutions_of_kept rfl rfl

theorem failure?_of_settled (settled : number ∉ client.waiting.values) :
    client.failure? (number, result) = none := by
  cases result with
  | ok reply => rfl
  | error error => exact if_neg settled

theorem failure?_eq_some {resolution : Nat × Except ClientError Message}
    (failure : client.failure? (number, result) = some resolution) :
    ∃ error, result = .error error ∧ resolution = (number, .error error) := by
  cases result with
  | ok reply => cases failure
  | error error =>
      simp only [failure?, Option.ite_none_right_eq_some, Option.some.injEq] at failure
      exact ⟨error, rfl, failure.2.symm⟩

theorem resolutions_of_endsAtOnce (tidy : before.Tidy) (ends : before.EndsAtOnce result after) :
    before.resolutions after = [] := by
  have settled : before.nextRequest ∉ before.waiting.values := by
    rw [Table.mem_values_iff]
    rintro ⟨transaction, waits⟩
    exact tidy.fresh_waiting transaction waits
  rw [resolutions_of_append (filter_decided_of_same ends.decided) ends.ended]
  simp [failure?_of_settled settled]

theorem resolutions_of_ends (ends : before.Ends number result after) :
    before.resolutions after = (before.failure? (number, result)).toList := by
  rw [resolutions_of_append (filter_decided_of_subset ?_) ends.ended]
  · cases failure : before.failure? (number, result) <;> simp [failure]
  · intro entry mem
    rw [ends.decided, Table.mem_entries_iff, Table.find?_erase] at mem
    split at mem
    · cases mem
    · exact (Table.contains_iff _ _).mpr ⟨_, mem⟩

/-- A request that waits is resolved as it ends. -/
theorem Ending.failure?_of_waits (tidy : before.Tidy) (ending : before.Ending step number result)
    (waits : number ∈ before.waiting.values) :
    ∃ error, result = .error error ∧
      before.failure? (number, result) = some (number, .error error) := by
  rcases tidy.mem_waiting_iff.mp waits with ⟨⟨request, found⟩, undecided⟩
  cases ending with
  | told _ unasked => cases unasked.symm.trans found
  | unwritable => exact ⟨_, rfl, if_pos waits⟩
  | takenUp _ decided => cases undecided.symm.trans decided
  | expired => exact ⟨_, rfl, if_pos waits⟩

theorem Ending.mem_resolutions_iff (tidy : before.Tidy)
    (ending : before.Ending step number result) (ends : before.Ends number result after)
    (other : Nat) : other ∈ (before.resolutions after).map Prod.fst ↔
      other = number ∧ number ∈ before.waiting.values := by
  rw [resolutions_of_ends ends]
  by_cases waits : number ∈ before.waiting.values
  · rcases ending.failure?_of_waits tidy waits with ⟨error, _, failure⟩
    simp [failure, waits]
  · simp [failure?_of_settled waits, waits]

theorem resolutions_answer (tidy : client.Tidy) {transaction : TransactionId}
    (waits : client.waiting.find? transaction = some number) (message : Message) :
    client.resolutions (client.answer transaction number message) = [(number, .ok message)] := by
  have undecided := ((tidy.waits _ _).mp waits).2
  refine resolutions_of_decisions (Table.entries_insert_of_absent _ undecided) ?_ rfl
  simpa using undecided

theorem resolutions_endReading (tidy : client.Tidy) (reads : client.reading = true) :
    client.resolutions client.endReading =
      client.waiting.values.map fun number => (number, .error .disconnected) := by
  have undecided : ∀ number ∈ client.waiting.values, client.decided.find? number = none :=
    fun number mem => (tidy.mem_waiting_iff.mp mem).2
  rw [endReading_of_reads reads]
  refine resolutions_of_decisions (Table.entries_foldl_insert _ tidy.values_nodup undecided) ?_ rfl
  rintro _ mem
  rcases List.mem_map.mp mem with ⟨number, isWaiting, rfl⟩
  exact undecided number isWaiting

theorem issue?_of_not_asked (unasked : ∀ question, step ≠ .asked question) :
    before.issue? step after = none := by
  cases step with
  | asked question => exact absurd rfl (unasked question)
  | _ => rfl

theorem issue?_of_kept (tidy : before.Tidy) (outgoing : after.outgoing = before.outgoing) :
    before.issue? step after = none := by
  have unsent := (Table.contains_eq_false_iff _ _).mp tidy.fresh_outgoing
  cases step with
  | asked question => simp [issue?, outgoing, unsent]
  | _ => rfl

theorem issue?_issue {question : Question} {frame : Frame}
    (made : Frame.ofMessage (question.message client.config)
      (drawTransaction client.counter).1 = .ok frame) :
    client.issue? (.asked question) (client.issue question frame) =
      some (client.nextRequest, (drawTransaction client.counter).1) := by
  simp [issue?, issue, Frame.transaction_ofMessage made]

theorem Ending.not_asked (ending : before.Ending step number result) (question : Question) :
    step ≠ .asked question := by
  rintro rfl
  cases ending

/-- The table of waiting requests gains what a step makes and loses what it resolves. -/
theorem Moves.waiting (tidy : before.Tidy) (moves : before.Moves step after)
    (transaction : TransactionId) (number : Nat) :
    after.waiting.find? transaction = some number ↔
      (before.waiting.find? transaction = some number ∨
        before.issue? step after = some (number, transaction)) ∧
      number ∉ (before.resolutions after).map Prod.fst := by
  cases moves with
  | goesOn unasked _ _ goes =>
      simp [issue?_of_not_asked unasked, goes.waiting,
        resolutions_of_kept goes.decided goes.ended]
  | endedAtOnce _ ends =>
      simp [issue?_of_kept tidy ends.outgoing, ends.waiting, resolutions_of_endsAtOnce tidy ends]
  | issued isOpen made free =>
      rw [resolutions_issue, issue?_issue made, issue, Table.find?_insert]
      by_cases same : transaction = (drawTransaction before.counter).1
      · simp [same, free.unawaited]
      · simp [same, eq_comm]
  | answered _ _ _ waits =>
      rw [resolutions_answer tidy waits, answer, Client.decide, strike,
        tidy.find?_waiting_erase waits]
      simp [issue?]
  | @ended _ ending _ _ isEnding ends =>
      rw [ends.waiting, issue?_of_not_asked isEnding.not_asked,
        isEnding.mem_resolutions_iff tidy ends]
      simp only [reduceCtorEq, or_false, not_and]
      refine and_congr_right fun waits => ⟨fun differs same => absurd same differs, ?_⟩
      rintro unresolved rfl
      exact unresolved rfl ((Table.mem_values_iff _ _).mpr ⟨transaction, waits⟩)
  | readingEnded reads =>
      rw [resolutions_endReading tidy reads, endReading_of_reads reads]
      simp only [issue?, Table.find?_empty, List.map_map, Function.comp_def, List.map_id',
        Table.mem_values_iff, reduceCtorEq, or_false, false_iff, not_and, not_not]
      exact fun waits => ⟨transaction, waits⟩

/-- What is made is made under the next number and the next id, which is free. -/
theorem Moves.of_issue? (tidy : before.Tidy) (moves : before.Moves step after)
    {transaction : TransactionId} (issue : before.issue? step after = some (number, transaction)) :
    ∃ question, step = .asked question ∧ number = before.nextRequest ∧
      transaction = (drawTransaction before.counter).1 ∧
      after.counter = (drawTransaction before.counter).2 ∧ before.Free transaction := by
  cases moves with
  | goesOn unasked =>
      rw [issue?_of_not_asked unasked] at issue
      cases issue
  | endedAtOnce _ ends =>
      rw [issue?_of_kept tidy ends.outgoing] at issue
      cases issue
  | issued _ made free =>
      rw [issue?_issue made] at issue
      cases issue
      exact ⟨_, rfl, rfl, rfl, rfl, free⟩
  | answered => cases issue
  | ended ending =>
      rw [issue?_of_not_asked ending.not_asked] at issue
      cases issue
  | readingEnded => cases issue

/-- How a step resolves a request that waits. -/
inductive Resolves (before : Client) : ClientStep → Nat → Except ClientError Message → Prop where
  | answered {frame : Frame} {message : Message} {number : Nat}
      (carries : frame.message = .ok message) (solicited : frame.transaction ≠ unsolicited)
      (waits : before.waiting.find? frame.transaction = some number) :
      Resolves before (.arrived frame) number (.ok message)
  | unwritable {number : Nat} {transaction : TransactionId} {reason : String}
      (waits : before.waiting.find? transaction = some number) :
      Resolves before (.unwritable number reason) number (.error (.transport reason))
  | timedOut {number : Nat} {transaction : TransactionId}
      (waits : before.waiting.find? transaction = some number) :
      Resolves before (.expired number) number (.error .timedOut)
  | disconnected {number : Nat} {transaction : TransactionId}
      (waits : before.waiting.find? transaction = some number) :
      Resolves before .readingEnded number (.error .disconnected)

theorem Resolves.waits {outcome : Except ClientError Message}
    (resolves : before.Resolves step number outcome) :
    ∃ transaction, before.waiting.find? transaction = some number := by
  cases resolves with
  | answered _ _ waits => exact ⟨_, waits⟩
  | unwritable waits => exact ⟨_, waits⟩
  | timedOut waits => exact ⟨_, waits⟩
  | disconnected waits => exact ⟨_, waits⟩

theorem Ending.resolves (tidy : before.Tidy) (ending : before.Ending step number result)
    (waits : number ∈ before.waiting.values) {error : ClientError} (failed : result = .error error) :
    before.Resolves step number (.error error) := by
  rcases tidy.mem_waiting_iff.mp waits with ⟨⟨request, found⟩, undecided⟩
  rcases (Table.mem_values_iff _ _).mp waits with ⟨transaction, isWaiting⟩
  cases ending with
  | told => cases failed
  | unwritable =>
      cases failed
      exact .unwritable isWaiting
  | takenUp _ decided => cases undecided.symm.trans decided
  | expired =>
      cases failed
      exact .timedOut isWaiting

theorem Moves.resolves (tidy : before.Tidy) (moves : before.Moves step after)
    {outcome : Except ClientError Message} (mem : (number, outcome) ∈ before.resolutions after) :
    before.Resolves step number outcome := by
  cases moves with
  | goesOn _ _ _ goes =>
      rw [resolutions_of_kept goes.decided goes.ended] at mem
      cases mem
  | endedAtOnce _ ends =>
      rw [resolutions_of_endsAtOnce tidy ends] at mem
      cases mem
  | issued =>
      rw [resolutions_issue] at mem
      cases mem
  | answered _ carries solicited waits =>
      rw [resolutions_answer tidy waits, List.mem_singleton] at mem
      cases mem
      exact .answered carries solicited waits
  | @ended _ ending _ _ isEnding ends =>
      have waits := ((isEnding.mem_resolutions_iff tidy ends number).mp
        (List.mem_map_of_mem mem)).2
      rcases isEnding.failure?_of_waits tidy waits with ⟨error, failed, failure⟩
      rw [resolutions_of_ends ends, failure, Option.toList_some, List.mem_singleton] at mem
      cases mem
      exact isEnding.resolves tidy waits failed
  | readingEnded reads =>
      rw [resolutions_endReading tidy reads, List.mem_map] at mem
      rcases mem with ⟨_, waiting, same⟩
      cases same
      rcases (Table.mem_values_iff _ _).mp waiting with ⟨transaction, waits⟩
      exact .disconnected waits

theorem Moves.nextRequest_le (moves : before.Moves step after) :
    before.nextRequest ≤ after.nextRequest := by
  cases moves with
  | goesOn _ _ _ goes => exact goes.nextRequest
  | endedAtOnce _ ends => exact Nat.le_of_lt (ends.nextRequest ▸ Nat.lt_succ_self _)
  | issued => exact Nat.le_succ _
  | answered => exact Nat.le_refl _
  | ended _ ends => exact Nat.le_of_eq ends.nextRequest.symm
  | readingEnded reads => exact Nat.le_of_eq (by rw [endReading_of_reads reads])

/-- A request has been going on, or it has just been made. -/
theorem Moves.request_origin {request : Request} (moves : before.Moves step after)
    (found : after.requests.find? number = some request) :
    (∃ earlier, before.requests.find? number = some earlier ∧
        earlier.question = request.question ∧ earlier.transaction = request.transaction) ∨
      step = .asked request.question ∧ number = before.nextRequest ∧
        before.issue? step after = some (number, request.transaction) := by
  have erased (other : Nat) (isThere : (before.requests.erase other).find? number = some request) :
      ∃ earlier, before.requests.find? number = some earlier ∧
        earlier.question = request.question ∧ earlier.transaction = request.transaction := by
    rw [Table.find?_erase] at isThere
    split at isThere
    · cases isThere
    · exact ⟨request, isThere, rfl, rfl⟩
  cases moves with
  | goesOn _ _ _ goes => exact .inl (goes.find?_requests found)
  | endedAtOnce _ ends => exact .inl (erased _ (ends.requests ▸ found))
  | issued _ made =>
      simp only [issue, Table.find?_insert] at found
      split at found
      · next isNext =>
        cases found
        exact .inr ⟨rfl, isNext, isNext ▸ issue?_issue made⟩
      · exact .inl ⟨request, found, rfl, rfl⟩
  | answered => exact .inl ⟨request, found, rfl, rfl⟩
  | ended _ ends => exact .inl (erased _ (ends.requests ▸ found))
  | readingEnded reads =>
      rw [endReading_of_reads reads] at found
      exact .inl ⟨request, found, rfl, rfl⟩

end Client

/-! ## Runs -/

section Log

variable {log earlier later : List ClientOccurrence} {made issuing : ClientOccurrence}
  {number : Nat} {transaction : TransactionId}

theorem resolved_concat (log : List ClientOccurrence) (made : ClientOccurrence) :
    resolved (log ++ [made]) = resolved log ++ made.resolutions := by
  simp [resolved]

theorem drawn_concat (log : List ClientOccurrence) (made : ClientOccurrence) :
    drawn (log ++ [made]) = drawn log + if made.Draws then 1 else 0 := by
  simp [drawn, List.countP_cons]

theorem drawn_split (draws : issuing.Draws) (earlier later : List ClientOccurrence) :
    drawn (earlier ++ issuing :: later) = drawn earlier + 1 + drawn later := by
  simp only [drawn, List.countP_append, List.countP_cons, draws, decide_true, if_true]
  omega

theorem outstanding_concat : Outstanding (log ++ [made]) number transaction ↔
    ((∃ issuing ∈ log, issuing.issue? = some (number, transaction)) ∨
      made.issue? = some (number, transaction)) ∧
    number ∉ (resolved log).map Prod.fst ∧ number ∉ made.resolutions.map Prod.fst := by
  simp only [Outstanding, resolved_concat, List.map_append, List.mem_append, List.mem_singleton,
    or_and_right, exists_or, exists_eq_left, not_or]

theorem Outstanding.of_append (outstanding : Outstanding (earlier ++ later) number transaction)
    (issued : ∃ issuing ∈ earlier, issuing.issue? = some (number, transaction)) :
    Outstanding earlier number transaction := by
  refine ⟨issued, fun past => outstanding.2 ?_⟩
  rw [resolved, List.flatMap_append, List.map_append]
  exact List.mem_append_left _ past

theorem Unhurried.of_append (unhurried : Unhurried (earlier ++ later)) : Unhurried earlier := by
  intro past issuing between drawing rest number transaction split
  apply unhurried past issuing between drawing (rest ++ later)
  simp [split]

end Log

/-- What a log says about the requests and the counter of the client at its end. -/
structure Tracked (log : List ClientOccurrence) (client : Client) : Prop where
  tidy : client.Tidy
  table : ∀ transaction number, client.waiting.find? transaction = some number ↔
    Outstanding log number transaction
  issued : ∀ number request, client.requests.find? number = some request →
    ∃ issuing ∈ log, issuing.issue? = some (number, request.transaction)
  older : ∀ number ∈ (resolved log).map Prod.fst, number < client.nextRequest
  place : (drawTransaction client.counter).1 = nthTransaction (drawn log)
  numbered : ∀ earlier issuing later number transaction, log = earlier ++ issuing :: later →
    issuing.issue? = some (number, transaction) →
    transaction = nthTransaction (drawn earlier) ∧ issuing.Draws

namespace Tracked

variable {log : List ClientOccurrence} {client : Client} {step : ClientStep}

theorem new (config : ClientConfig) : Tracked [] (.new config) where
  tidy := .new config
  table := by simp [Client.new, Outstanding]
  issued := by simp [Client.new]
  older := by simp [resolved]
  place := rfl
  numbered := by simp

/-- A request that is outstanding or on its way has another id than the one that is drawn next. -/
theorem ne_drawn (tracked : Tracked log client) {question : Question}
    (unhurried : Unhurried (log ++ [⟨client, .asked question⟩])) {number : Nat}
    {transaction : TransactionId}
    (issued : ∃ issuing ∈ log, issuing.issue? = some (number, transaction))
    (underWay : Outstanding log number transaction ∨ client.outgoing.contains number = true) :
    transaction ≠ (drawTransaction client.counter).1 := by
  rcases issued with ⟨issuing, mem, issue⟩
  rcases List.append_of_mem mem with ⟨earlier, between, rfl⟩
  have draws : ClientOccurrence.Draws ⟨client, .asked question⟩ := by
    intro same
    rw [ClientOccurrence.after, Client.step, Client.counter_ask] at same
    exact drawTransaction_ne _ same
  rcases tracked.numbered earlier issuing between _ _ rfl issue with ⟨isPlace, issuingDraws⟩
  have near := unhurried earlier issuing between ⟨client, .asked question⟩ [] number transaction
    (by simp) issue underWay
  rw [drawn_concat, if_pos draws] at near
  have places := drawn_split issuingDraws earlier between
  rw [isPlace, tracked.place]
  exact nthTransaction_ne (by omega) (by omega)

theorem free (tracked : Tracked log client) {question : Question}
    (unhurried : Unhurried (log ++ [⟨client, .asked question⟩])) :
    client.Free (drawTransaction client.counter).1 where
  unawaited := by
    cases waits : client.waiting.find? (drawTransaction client.counter).1 with
    | none => rfl
    | some number =>
        have outstanding := (tracked.table _ _).mp waits
        exact absurd rfl (tracked.ne_drawn unhurried outstanding.1 (.inl outstanding))
  unsent number request found leaves :=
    tracked.ne_drawn unhurried (tracked.issued number request found) (.inr leaves)

theorem moves (tracked : Tracked log client)
    (unhurried : Unhurried (log ++ [⟨client, step⟩])) : client.Moves step (client.step step) := by
  apply Client.moves_step tracked.tidy
  rintro question rfl
  exact tracked.free unhurried

theorem table_next (tracked : Tracked log client)
    (moves : client.Moves step (client.step step)) (transaction : TransactionId) (number : Nat) :
    (client.step step).waiting.find? transaction = some number ↔
      Outstanding (log ++ [⟨client, step⟩]) number transaction := by
  have unresolved : client.issue? step (client.step step) = some (number, transaction) →
      number ∉ (resolved log).map Prod.fst := by
    intro issue mem
    rcases moves.of_issue? tracked.tidy issue with ⟨question, _, isNext, _⟩
    exact absurd (tracked.older number mem) (isNext ▸ Nat.lt_irrefl _)
  rw [moves.waiting tracked.tidy, tracked.table, outstanding_concat, Outstanding]
  change (_ ∧ _ ∨ client.issue? step (client.step step) = some (number, transaction)) ∧ _ ↔
    (_ ∨ client.issue? step (client.step step) = some (number, transaction)) ∧ _ ∧ _
  constructor
  · rintro ⟨⟨issued, past⟩ | issue, now⟩
    · exact ⟨.inl issued, past, now⟩
    · exact ⟨.inr issue, unresolved issue, now⟩
  · rintro ⟨issued | issue, past, now⟩
    · exact ⟨.inl ⟨issued, past⟩, now⟩
    · exact ⟨.inr issue, now⟩

theorem next (tracked : Tracked log client) (moves : client.Moves step (client.step step)) :
    Tracked (log ++ [⟨client, step⟩]) (client.step step) where
  tidy := tracked.tidy.next moves
  table := tracked.table_next moves
  issued := by
    intro number request found
    rcases moves.request_origin found with ⟨earlier, isThere, _, same⟩ | ⟨_, _, issue⟩
    · rcases tracked.issued number earlier isThere with ⟨issuing, mem, issue⟩
      exact ⟨issuing, List.mem_append_left _ mem, same ▸ issue⟩
    · exact ⟨⟨client, step⟩, by simp, issue⟩
  older := by
    intro number mem
    rw [resolved_concat, List.map_append, List.mem_append] at mem
    apply Nat.lt_of_lt_of_le _ moves.nextRequest_le
    rcases mem with past | now
    · exact tracked.older number past
    · rcases List.mem_map.mp now with ⟨⟨_, outcome⟩, resolution, rfl⟩
      rcases (moves.resolves tracked.tidy resolution).waits with ⟨transaction, waits⟩
      rcases tracked.tidy.requested waits with ⟨request, found⟩
      exact tracked.tidy.begun _ request found
  place := by
    rw [drawn_concat]
    rcases moves.counter with kept | draws
    · have none : ¬ClientOccurrence.Draws ⟨client, step⟩ := fun draws => draws kept
      rw [if_neg none, kept]
      exact tracked.place
    · have one : ClientOccurrence.Draws ⟨client, step⟩ := fun same =>
        drawTransaction_ne client.counter (draws.symm.trans same)
      rw [if_pos one, draws]
      exact drawTransaction_next tracked.place
  numbered := by
    intro earlier issuing later number transaction split issue
    rcases concat_eq_split split with ⟨_, rfl, rfl⟩ | ⟨rest, rfl, rfl⟩
    · rcases moves.of_issue? tracked.tidy issue with ⟨question, _, _, isDrawn, draws, _⟩
      refine ⟨isDrawn.trans tracked.place, fun same => ?_⟩
      exact drawTransaction_ne client.counter (draws.symm.trans same)
    · exact tracked.numbered earlier issuing rest number transaction rfl issue

end Tracked

namespace ClientRuns

variable {config : ClientConfig} {log : List ClientOccurrence} {client : Client}

/-- In an unhurried run, exactly the outstanding requests wait. -/
theorem tracked (run : ClientRuns config log client) (unhurried : Unhurried log) :
    Tracked log client := by
  induction run with
  | new => exact .new config
  | next before step ih =>
      have tracked := ih unhurried.of_append
      exact tracked.next (tracked.moves unhurried)

/-- What holds at first and is kept by every move holds in every unhurried run. -/
theorem induction_moves {motive : List ClientOccurrence → Client → Prop}
    (run : ClientRuns config log client) (unhurried : Unhurried log)
    (new : motive [] (.new config))
    (next : ∀ log client step, Tracked log client → client.Moves step (client.step step) →
      motive log client → motive (log ++ [⟨client, step⟩]) (client.step step)) :
    motive log client := by
  induction run with
  | new => exact new
  | next before step ih =>
      have tracked := before.tracked unhurried.of_append
      exact next _ _ _ tracked (tracked.moves unhurried) (ih unhurried.of_append)

end ClientRuns

end SharedTree
