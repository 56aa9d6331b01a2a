import SharedTree.Proofs.Client.Outstanding

/-!
# How requests end

A request that has been resolved ends accordingly when it goes on. It cannot go on as long as its
frame is on its way; when its frame cannot be written, it ends with this failure whatever it has been
resolved with. Nothing else ends but what has been told and what has been refused at once
(`ClientRuns.accounted`).
-/

namespace SharedTree

namespace Client

variable {client before after : Client} {step : ClientStep} {number : Nat}
  {question : Question} {outcome : Except ClientError Message}

/-! ## Events -/

/-- As long as a client reads it has not been told that the connection is closed. Afterwards it has
been told once, and of nothing since. -/
def Heard (client : Client) : Prop :=
  if client.reading then .disconnected ∉ client.events
  else ∃ heard, client.events = heard ++ [.disconnected] ∧ .disconnected ∉ heard

theorem Heard.of_same (heard : before.Heard) (events : after.events = before.events)
    (reading : after.reading = before.reading) : after.Heard := by
  rw [Heard, events, reading]
  exact heard

theorem Heard.next (heard : before.Heard) (moves : before.Moves step after) : after.Heard := by
  cases moves with
  | goesOn _ _ _ goes =>
      rcases goes.heard with ⟨more, events, ordinary, deaf⟩
      cases reads : before.reading with
      | true =>
          rw [Heard, if_pos reads] at heard
          rw [Heard, goes.reading, if_pos reads, events, List.mem_append, not_or]
          exact ⟨heard, ordinary⟩
      | false =>
          rw [deaf reads, List.append_nil] at events
          exact heard.of_same events goes.reading
  | endedAtOnce _ ends => exact heard.of_same ends.events ends.reading
  | issued => exact heard.of_same rfl rfl
  | answered => exact heard.of_same rfl rfl
  | ended _ ends => exact heard.of_same ends.events ends.reading
  | readingEnded reads =>
      rw [Heard, if_pos reads] at heard
      rw [Heard, endReading_of_reads reads]
      exact ⟨before.events, rfl, heard⟩

/-! ## How requests are decided -/

/-- It is known before a step how a request is to end, or the step resolves it. -/
def Decides (before after : Client) (number : Nat) (outcome : Except ClientError Message) : Prop :=
  before.decided.find? number = some outcome ∨ (number, outcome) ∈ before.resolutions after

theorem Moves.resolutions_nodup (tidy : before.Tidy) (moves : before.Moves step after) :
    ((before.resolutions after).map Prod.fst).Nodup := by
  cases moves with
  | goesOn _ _ _ goes => simp [resolutions_of_kept goes.decided goes.ended]
  | endedAtOnce _ ends => simp [resolutions_of_endsAtOnce tidy ends]
  | issued => simp [resolutions_issue]
  | answered _ _ _ waits => simp [resolutions_answer tidy waits]
  | @ended _ ending result _ _ ends =>
      rw [resolutions_of_ends ends]
      cases before.failure? (ending, result) with
      | none => exact .nil
      | some resolution => exact List.nodup_singleton _
  | readingEnded reads =>
      simpa [resolutions_endReading tidy reads, Function.comp_def] using tidy.values_nodup

theorem Moves.decided_origin (tidy : before.Tidy) (moves : before.Moves step after)
    (decided : after.decided.find? number = some outcome) : before.Decides after number outcome := by
  cases moves with
  | goesOn _ _ _ goes => exact .inl (goes.decided ▸ decided)
  | endedAtOnce _ ends => exact .inl (ends.decided ▸ decided)
  | issued => exact .inl decided
  | answered _ _ _ waits =>
      rw [Decides, resolutions_answer tidy waits]
      rw [answer, Client.decide, Table.find?_insert] at decided
      split at decided
      · next same =>
        cases decided
        exact .inr (by simp [same])
      · exact .inl decided
  | ended _ ends =>
      rw [ends.decided, Table.find?_erase] at decided
      split at decided
      · cases decided
      · exact .inl decided
  | readingEnded reads =>
      rw [Decides, resolutions_endReading tidy reads]
      rw [endReading_of_reads reads] at decided
      dsimp only at decided
      rw [Table.find?_foldl_insert] at decided
      split at decided
      · next waits =>
        cases decided
        exact .inr (List.mem_map_of_mem waits)
      · exact .inl decided

/-! ## How requests end -/

/-- What has ended now has ended at once, or it was under way. -/
theorem Moves.ended_origin {result : Except ClientError Reply} (tidy : before.Tidy)
    (moves : before.Moves step after) (mem : (number, result) ∈ after.ended) :
    (number, result) ∈ before.ended ∨
      (step.Begins ∧ number = before.nextRequest ∧ before.issue? step after = none) ∨
      before.Ending step number result ∧ before.Ends number result after := by
  cases moves with
  | goesOn _ _ _ goes => exact .inl (goes.ended ▸ mem)
  | endedAtOnce begins ends =>
      rw [ends.ended, List.mem_append, List.mem_singleton] at mem
      rcases mem with old | same
      · exact .inl old
      · cases same
        exact .inr (.inl ⟨begins, rfl, issue?_of_kept tidy ends.outgoing⟩)
  | issued => exact .inl mem
  | answered => exact .inl mem
  | ended ending ends =>
      rw [ends.ended, List.mem_append, List.mem_singleton] at mem
      rcases mem with old | same
      · exact .inl old
      · cases same
        exact .inr (.inr ⟨ending, ends⟩)
  | readingEnded reads =>
      rw [endReading_of_reads reads] at mem
      exact .inl mem

theorem Moves.ended_subset (moves : before.Moves step after) : before.ended ⊆ after.ended := by
  cases moves with
  | goesOn _ _ _ goes => exact goes.ended ▸ List.Subset.refl _
  | endedAtOnce _ ends => exact ends.ended ▸ List.subset_append_left _ _
  | issued => exact List.Subset.refl _
  | answered => exact List.Subset.refl _
  | ended _ ends => exact ends.ended ▸ List.subset_append_left _ _
  | readingEnded reads =>
      rw [endReading_of_reads reads]
      exact List.Subset.refl _

/-- What is on its way but no request has been so before, or it has just been told. -/
theorem Moves.told_origin (tidy : before.Tidy) (moves : before.Moves step after)
    (leaves : after.outgoing.contains number = true)
    (unasked : after.requests.find? number = none) :
    before.outgoing.contains number = true ∧ before.requests.find? number = none ∨
      (∃ statement, step = .told statement) ∧ number = before.nextRequest := by
  cases moves with
  | goesOn notAsked _ numbered goes =>
      rcases goes.outgoing number leaves with old | ⟨isNext, begun⟩
      · refine .inl ⟨old, ?_⟩
        cases found : before.requests.find? number with
        | none => rfl
        | some request =>
            rcases goes.find?_requests_before found with ⟨later, isThere, _⟩
            cases unasked.symm.trans isThere
      · refine .inr ⟨?_, isNext⟩
        cases step with
        | asked question => exact absurd rfl (notAsked question)
        | told statement => exact ⟨statement, rfl⟩
        | _ => exact absurd (numbered id) (Nat.ne_of_gt (isNext ▸ begun))
  | endedAtOnce _ ends =>
      rw [ends.outgoing] at leaves
      have older : number ≠ before.nextRequest := Nat.ne_of_lt (tidy.sending number leaves)
      rw [ends.requests, Table.find?_erase, if_neg older] at unasked
      exact .inl ⟨leaves, unasked⟩
  | issued =>
      simp only [issue, Table.find?_insert] at unasked
      split at unasked
      · cases unasked
      · next older =>
        exact .inl ⟨((Table.contains_insert _ _ _ _).mp leaves).resolve_right older, unasked⟩
  | answered => exact .inl ⟨leaves, unasked⟩
  | ended _ ends =>
      rw [ends.outgoing, Table.contains_erase] at leaves
      rw [ends.requests, Table.find?_erase, if_neg leaves.2] at unasked
      exact .inl ⟨leaves.1, unasked⟩
  | readingEnded reads =>
      rw [endReading_of_reads reads] at leaves unasked
      exact .inl ⟨leaves, unasked⟩

/-- It is known how a request is to end, or it has ended so. -/
def Settles (client : Client) (number : Nat) (question : Question)
    (outcome : Except ClientError Message) : Prop :=
  (∃ request, client.requests.find? number = some request ∧ request.question = question ∧
      client.decided.find? number = some outcome) ∨
    (number, outcome.bind question.reply) ∈ client.ended

/-- The frame of a request cannot be written, and it ends so. -/
def Loses (step : ClientStep) (number : Nat) (after : Client) : Prop :=
  ∃ reason, step = .unwritable number reason ∧ (number, .error (.transport reason)) ∈ after.ended

/-- A request ends as it is to end, unless its frame cannot be written. -/
theorem Ending.settles {result : Except ClientError Reply} {ending : Nat} {request : Request}
    (isEnding : before.Ending step ending result) (ends : before.Ends ending result after)
    (found : before.requests.find? number = some request)
    (decided : before.decided.find? number = some outcome) :
    after.Settles number request.question outcome ∨ Loses step number after := by
  have isLast : (ending, result) ∈ after.ended := by simp [ends.ended]
  by_cases same : number = ending
  · subst same
    cases isEnding with
    | told _ unasked => cases unasked.symm.trans found
    | unwritable => exact .inr ⟨_, rfl, isLast⟩
    | takenUp foundToo decidedToo =>
        cases found.symm.trans foundToo
        cases decided.symm.trans decidedToo
        exact .inl (.inr isLast)
    | expired _ _ undecided => cases undecided.symm.trans decided
  · refine .inl (.inl ⟨request, ?_, rfl, ?_⟩)
    · rw [ends.requests, Table.find?_erase, if_neg same, found]
    · rw [ends.decided, Table.find?_erase, if_neg same, decided]

theorem Moves.settles {request : Request} (tidy : before.Tidy) (moves : before.Moves step after)
    (found : before.requests.find? number = some request)
    (decides : before.Decides after number outcome) :
    after.Settles number request.question outcome ∨ Loses step number after := by
  have older : number ≠ before.nextRequest := Nat.ne_of_lt (tidy.begun _ _ found)
  cases moves with
  | goesOn _ _ _ goes =>
      rw [Decides, resolutions_of_kept goes.decided goes.ended, ← goes.decided] at decides
      rcases goes.find?_requests_before found with ⟨later, isThere, same, _⟩
      exact .inl (.inl ⟨later, isThere, same, decides.resolve_right List.not_mem_nil⟩)
  | endedAtOnce _ ends =>
      rw [Decides, resolutions_of_endsAtOnce tidy ends, ← ends.decided] at decides
      refine .inl (.inl ⟨request, ?_, rfl, decides.resolve_right List.not_mem_nil⟩)
      simpa [ends.requests, older] using found
  | issued =>
      rw [Decides, resolutions_issue] at decides
      refine .inl (.inl ⟨request, ?_, rfl, decides.resolve_right List.not_mem_nil⟩)
      simpa [issue, older] using found
  | answered _ _ _ waits =>
      rw [Decides, resolutions_answer tidy waits, List.mem_singleton] at decides
      refine .inl (.inl ⟨request, found, rfl, ?_⟩)
      rw [answer, Client.decide, Table.find?_insert]
      rcases decides with decided | same
      · rw [if_neg, strike, decided]
        rintro rfl
        cases ((tidy.waits _ _).mp waits).2.symm.trans decided
      · cases same
        exact if_pos rfl
  | ended ending ends =>
      rcases decides with decided | now
      · exact ending.settles ends found decided
      · rw [resolutions_of_ends ends, Option.mem_toList] at now
        rcases failure?_eq_some now with ⟨error, rfl, same⟩
        cases same
        exact .inl (.inr (by simp [ends.ended, Except.bind]))
  | readingEnded reads =>
      rw [Decides, resolutions_endReading tidy reads, List.mem_map] at decides
      refine .inl (.inl ⟨request, ?_, rfl, ?_⟩)
      · rw [endReading_of_reads reads]
        exact found
      · rw [endReading_of_reads reads]
        dsimp only
        rw [Table.find?_foldl_insert]
        rcases decides with decided | ⟨_, waits, same⟩
        · rw [if_neg, decided]
          intro waits
          cases (tidy.mem_waiting_iff.mp waits).2.symm.trans decided
        · cases same
          exact if_pos waits

theorem Settles.next (settles : before.Settles number question outcome) (tidy : before.Tidy)
    (moves : before.Moves step after) :
    after.Settles number question outcome ∨ Loses step number after := by
  rcases settles with ⟨request, found, rfl, decided⟩ | ended
  · exact moves.settles tidy found (.inl decided)
  · exact .inl (.inr (moves.ended_subset ended))

/-! ## Settling -/

/-- What holds at first and is kept by every step that begins nothing and loses no frame holds
after any number of them. -/
theorem Leads.induction {motive : Client → Prop} (leads : before.Leads after)
    (tidy : before.Tidy) (start : motive before)
    (next : ∀ client step, step.Continues → client.Tidy → client.Moves step (client.step step) →
      motive client → motive (client.step step)) : after.Tidy ∧ motive after := by
  induction leads with
  | refl => exact ⟨tidy, start⟩
  | tail _ stepped ih =>
      rcases ih with ⟨tidyNow, holds⟩
      rcases stepped with ⟨step, continues, rfl⟩
      have moves := moves_step tidyNow step fun _ asked => by
        rw [asked] at continues
        exact continues.elim
      exact ⟨tidyNow.next moves, next _ _ continues tidyNow moves holds⟩

theorem Leads.tidy (leads : before.Leads after) (tidy : before.Tidy) : after.Tidy :=
  (leads.induction (motive := fun _ => True) tidy trivial fun _ _ _ _ _ _ => trivial).1

theorem Settles.leads (settles : before.Settles number question outcome) (tidy : before.Tidy)
    (leads : before.Leads after) : after.Tidy ∧ after.Settles number question outcome := by
  refine leads.induction (motive := fun client => client.Settles number question outcome) tidy
    settles fun client step continues tidyNow moves settlesNow => ?_
  rcases settlesNow.next tidyNow moves with stillSettles | ⟨reason, rfl, _⟩
  · exact stillSettles
  · exact continues.elim

theorem Leads.ended_subset (leads : before.Leads after) (tidy : before.Tidy)
    {result : Except ClientError Reply} (ended : (number, result) ∈ before.ended) :
    (number, result) ∈ after.ended :=
  (leads.induction (motive := fun client => (number, result) ∈ client.ended) tidy ended
    fun _ _ _ _ moves isEnded => moves.ended_subset isEnded).2

theorem Moves.outgoing_subset (continues : ¬step.Begins) (moves : before.Moves step after)
    (leaves : after.outgoing.contains number = true) : before.outgoing.contains number = true := by
  cases moves with
  | goesOn _ _ numbered goes =>
      refine (goes.outgoing number leaves).resolve_right fun ⟨isNext, begun⟩ => ?_
      rw [numbered continues, isNext] at begun
      exact Nat.lt_irrefl _ begun
  | endedAtOnce begins => exact absurd begins continues
  | issued => exact absurd trivial continues
  | answered => exact leaves
  | ended _ ends =>
      rw [ends.outgoing, Table.contains_erase] at leaves
      exact leaves.1
  | readingEnded reads =>
      rw [endReading_of_reads reads] at leaves
      exact leaves

/-- What has been written is not sent again. -/
theorem Leads.written (leads : before.Leads after) (tidy : before.Tidy)
    (written : before.outgoing.contains number = false) :
    after.outgoing.contains number = false := by
  refine (leads.induction (motive := fun client => client.outgoing.contains number = false) tidy
    written fun client step continues _ moves writtenNow => ?_).2
  rw [← Bool.not_eq_true] at writtenNow ⊢
  exact fun leaves => writtenNow (moves.outgoing_subset continues.not_begins leaves)

theorem Leads.find?_requests (leads : before.Leads after) (tidy : before.Tidy)
    (absent : before.requests.find? number = none) : after.requests.find? number = none := by
  refine (leads.induction (motive := fun client => client.requests.find? number = none) tidy
    absent fun client step continues _ moves absentNow => ?_).2
  cases found : (client.step step).requests.find? number with
  | none => rfl
  | some request =>
      rcases moves.request_origin found with ⟨earlier, isThere, _⟩ | ⟨rfl, _⟩
      · cases absentNow.symm.trans isThere
      · exact continues.elim

end Client

/-! ## What a log says of how requests end -/

/-- A question has been asked under a number. -/
def Asked (log : List ClientOccurrence) (number : Nat) (question : Question) : Prop :=
  ∃ asking ∈ log, asking.step = .asked question ∧ asking.before.nextRequest = number

/-- Something has been told under a number. -/
def Told (log : List ClientOccurrence) (number : Nat) : Prop :=
  ∃ telling ∈ log, (∃ statement, telling.step = .told statement) ∧
    telling.before.nextRequest = number

/-- A frame could not be written. -/
def Lost (log : List ClientOccurrence) (number : Nat) (reason : String) : Prop :=
  ∃ losing ∈ log, losing.step = .unwritable number reason

/-- Something has been asked or told under a number, has not been waited for and has ended at
once. -/
def EndedAtOnce (log : List ClientOccurrence) (number : Nat) (result : Except ClientError Reply) :
    Prop :=
  ∃ beginning ∈ log, beginning.step.Begins ∧ beginning.before.nextRequest = number ∧
    beginning.issue? = none ∧ (number, result) ∈ beginning.after.ended

/-- Every request that is resolved ends accordingly unless its frame is lost, and nothing else ends
but what has ended at once and what has been told. -/
structure Accounted (log : List ClientOccurrence) (client : Client) : Prop where
  asked : ∀ number request, client.requests.find? number = some request →
    Asked log number request.question
  told : ∀ number, client.outgoing.contains number = true →
    client.requests.find? number = none → Told log number
  decided : ∀ number outcome, client.decided.find? number = some outcome →
    (number, outcome) ∈ resolved log
  settles : ∀ number outcome, (number, outcome) ∈ resolved log →
    ∃ question, Asked log number question ∧ (client.Settles number question outcome ∨
      ∃ reason, Lost log number reason ∧ (number, .error (.transport reason)) ∈ client.ended)
  ended : ∀ number result, (number, result) ∈ client.ended →
    EndedAtOnce log number result ∨ (Told log number ∧ result = .ok .nothing) ∨
      (∃ question outcome, Asked log number question ∧ (number, outcome) ∈ resolved log ∧
        result = outcome.bind question.reply) ∨
      ∃ reason, Lost log number reason ∧ result = .error (.transport reason)
  once : ((resolved log).map Prod.fst).Nodup
  heard : client.Heard

theorem Asked.concat {log : List ClientOccurrence} {number : Nat} {question : Question}
    (asked : Asked log number question) (made : ClientOccurrence) :
    Asked (log ++ [made]) number question := by
  rcases asked with ⟨asking, mem, isAsking⟩
  exact ⟨asking, List.mem_append_left _ mem, isAsking⟩

theorem Told.concat {log : List ClientOccurrence} {number : Nat} (told : Told log number)
    (made : ClientOccurrence) : Told (log ++ [made]) number := by
  rcases told with ⟨telling, mem, isTelling⟩
  exact ⟨telling, List.mem_append_left _ mem, isTelling⟩

theorem Lost.concat {log : List ClientOccurrence} {number : Nat} {reason : String}
    (lost : Lost log number reason) (made : ClientOccurrence) :
    Lost (log ++ [made]) number reason := by
  rcases lost with ⟨losing, mem, isLosing⟩
  exact ⟨losing, List.mem_append_left _ mem, isLosing⟩

namespace Accounted

variable {log : List ClientOccurrence} {client : Client} {step : ClientStep} {number : Nat}
  {outcome : Except ClientError Message}

theorem new (config : ClientConfig) : Accounted [] (.new config) where
  asked := by simp [Client.new]
  told := by simp [Client.new, Table.contains]
  decided := by simp [Client.new]
  settles := by simp [resolved]
  ended := by simp [Client.new]
  once := .nil
  heard := by simp [Client.Heard, Client.new]

theorem mem_resolved_concat (accounted : Accounted log client)
    (decides : client.Decides (client.step step) number outcome) :
    (number, outcome) ∈ resolved (log ++ [⟨client, step⟩]) := by
  rw [resolved_concat, List.mem_append]
  rcases decides with past | now
  · exact .inl (accounted.decided number outcome past)
  · exact .inr now

theorem settles_next (accounted : Accounted log client) (tracked : Tracked log client)
    (moves : client.Moves step (client.step step))
    (mem : (number, outcome) ∈ resolved (log ++ [⟨client, step⟩])) :
    ∃ question, Asked (log ++ [⟨client, step⟩]) number question ∧
      ((client.step step).Settles number question outcome ∨
        ∃ reason, Lost (log ++ [⟨client, step⟩]) number reason ∧
          (number, .error (.transport reason)) ∈ (client.step step).ended) := by
  have losing : Client.Loses step number (client.step step) →
      ∃ reason, Lost (log ++ [⟨client, step⟩]) number reason ∧
        (number, .error (.transport reason)) ∈ (client.step step).ended := by
    rintro ⟨reason, isLosing, ended⟩
    exact ⟨reason, ⟨⟨client, step⟩, by simp, isLosing⟩, ended⟩
  rw [resolved_concat, List.mem_append] at mem
  rcases mem with past | now
  · rcases accounted.settles number outcome past with ⟨question, asked, settles | lost⟩
    · exact ⟨question, asked.concat _, (settles.next tracked.tidy moves).imp_right losing⟩
    · rcases lost with ⟨reason, lost, ended⟩
      exact ⟨question, asked.concat _, .inr ⟨reason, lost.concat _, moves.ended_subset ended⟩⟩
  · rcases (moves.resolves tracked.tidy now).waits with ⟨transaction, waits⟩
    rcases tracked.tidy.requested waits with ⟨request, found⟩
    exact ⟨request.question, (accounted.asked number request found).concat _,
      (moves.settles tracked.tidy found (.inr now)).imp_right losing⟩

theorem ended_next (accounted : Accounted log client) (tracked : Tracked log client)
    (moves : client.Moves step (client.step step)) {result : Except ClientError Reply}
    (mem : (number, result) ∈ (client.step step).ended) :
    EndedAtOnce (log ++ [⟨client, step⟩]) number result ∨
      (Told (log ++ [⟨client, step⟩]) number ∧ result = .ok .nothing) ∨
      (∃ question outcome, Asked (log ++ [⟨client, step⟩]) number question ∧
        (number, outcome) ∈ resolved (log ++ [⟨client, step⟩]) ∧
        result = outcome.bind question.reply) ∨
      ∃ reason, Lost (log ++ [⟨client, step⟩]) number reason ∧
        result = .error (.transport reason) := by
  rcases moves.ended_origin tracked.tidy mem with
    past | ⟨begins, isNext, silent⟩ | ⟨ending, ends⟩
  · rcases accounted.ended number result past with
      atOnce | ⟨told, isNothing⟩ | ⟨question, outcome, asked, isResolved, isReply⟩ | lost
    · rcases atOnce with ⟨beginning, old, isBeginning⟩
      exact .inl ⟨beginning, List.mem_append_left _ old, isBeginning⟩
    · exact .inr (.inl ⟨told.concat _, isNothing⟩)
    · refine .inr (.inr (.inl ⟨question, outcome, asked.concat _, ?_, isReply⟩))
      rw [resolved_concat]
      exact List.mem_append_left _ isResolved
    · rcases lost with ⟨reason, lost, isLost⟩
      exact .inr (.inr (.inr ⟨reason, lost.concat _, isLost⟩))
  · exact .inl ⟨⟨client, step⟩, by simp, begins, isNext.symm, silent, mem⟩
  · cases ending with
    | told leaves unasked =>
        exact .inr (.inl ⟨(accounted.told number leaves unasked).concat _, rfl⟩)
    | @unwritable _ reason leaves =>
        have lost : Lost (log ++ [⟨client, .unwritable number reason⟩]) number reason :=
          ⟨⟨client, .unwritable number reason⟩, by simp, rfl⟩
        exact .inr (.inr (.inr ⟨reason, lost, rfl⟩))
    | takenUp found decided =>
        exact .inr (.inr (.inl ⟨_, _, (accounted.asked number _ found).concat _,
          accounted.mem_resolved_concat (.inl decided), rfl⟩))
    | @expired _ request found due undecided =>
        have waits := tracked.tidy.mem_waiting_iff.mpr ⟨⟨request, found⟩, undecided⟩
        have now : (number, .error .timedOut) ∈
            client.resolutions (client.step (.expired number)) := by
          rw [Client.resolutions_of_ends ends]
          simp [Client.failure?, waits]
        exact .inr (.inr (.inl ⟨_, .error .timedOut,
          (accounted.asked number request found).concat _,
          accounted.mem_resolved_concat (.inr now), rfl⟩))

theorem once_next (accounted : Accounted log client) (tracked : Tracked log client)
    (moves : client.Moves step (client.step step)) :
    ((resolved (log ++ [⟨client, step⟩])).map Prod.fst).Nodup := by
  rw [resolved_concat, List.map_append, List.nodup_append]
  refine ⟨accounted.once, moves.resolutions_nodup tracked.tidy, ?_⟩
  rintro number past _ now rfl
  rcases List.mem_map.mp now with ⟨⟨_, outcome⟩, resolution, rfl⟩
  rcases (moves.resolves tracked.tidy resolution).waits with ⟨transaction, waits⟩
  exact ((tracked.table _ _).mp waits).2 past

theorem next (accounted : Accounted log client) (tracked : Tracked log client)
    (moves : client.Moves step (client.step step)) :
    Accounted (log ++ [⟨client, step⟩]) (client.step step) where
  asked := by
    intro number request found
    rcases moves.request_origin found with ⟨earlier, past, same, _⟩ | ⟨asked, isNext, _⟩
    · exact same ▸ (accounted.asked number earlier past).concat _
    · exact ⟨⟨client, step⟩, by simp, asked, isNext.symm⟩
  told := by
    intro number leaves unasked
    rcases moves.told_origin tracked.tidy leaves unasked with ⟨past, before⟩ | ⟨told, isNext⟩
    · exact (accounted.told number past before).concat _
    · exact ⟨⟨client, step⟩, by simp, told, isNext.symm⟩
  decided _ _ decided := accounted.mem_resolved_concat (moves.decided_origin tracked.tidy decided)
  settles _ _ mem := accounted.settles_next tracked moves mem
  ended _ _ mem := accounted.ended_next tracked moves mem
  once := accounted.once_next tracked moves
  heard := accounted.heard.next moves

end Accounted

/-- In an unhurried run every request ends as it has been resolved, unless its frame is lost. -/
theorem ClientRuns.accounted {config : ClientConfig} {log : List ClientOccurrence}
    {client : Client} (run : ClientRuns config log client) (unhurried : Unhurried log) :
    Accounted log client :=
  run.induction_moves unhurried (.new config) fun _ _ _ tracked moves accounted =>
    accounted.next tracked moves

end SharedTree
