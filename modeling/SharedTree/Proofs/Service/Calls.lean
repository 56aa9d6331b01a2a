import SharedTree.Proofs.Service.Events
import SharedTree.Proofs.Service.Settling

/-!
# Calls

A call is asked for by a frame of its caller. It is passed on when somebody can answer it:
the caller has it pending from then on, and the request is pushed to the session that is to
answer. Events may later settle it.

For each call this file says what events do: which of them settle it, which of them queue a
request on its behalf, and what passing it on makes of the caller and of the handler.
-/

namespace SharedTree

/-- A call that a session asks for. -/
structure Call where
  caller : SessionId
  transaction : TransactionId
  uuid : Uuid
  parameter : Bytes

namespace ServiceEvent

/-- The call that an event asks for. -/
def call? : ServiceEvent → Option Call
  | .frame _ sender whole =>
    match whole.message with
    | .ok (.rpcRequest uuid parameter) =>
      some { caller := sender, transaction := whole.transaction, uuid, parameter }
    | _ => none
  | _ => none

/-- The event asks for a call of the same caller under the same transaction id. -/
def Uses (event : ServiceEvent) (call : Call) : Prop :=
  ∃ other ∈ event.call?, other.caller = call.caller ∧ other.transaction = call.transaction

instance (event : ServiceEvent) (call : Call) : Decidable (event.Uses call) :=
  inferInstanceAs (Decidable (∃ other ∈ event.call?,
    other.caller = call.caller ∧ other.transaction = call.transaction))

theorem uses_of_message {order : VisitOrder} {sender : SessionId} {asking : Frame} {uuid : Uuid}
    {parameter : Bytes} {call : Call} (asked : asking.message = .ok (.rpcRequest uuid parameter))
    (sameCaller : sender = call.caller) (sameTransaction : asking.transaction = call.transaction) :
    (ServiceEvent.frame order sender asking).Uses call :=
  ⟨⟨sender, asking.transaction, uuid, parameter⟩, by simp only [call?, asked, Option.mem_def],
    sameCaller, sameTransaction⟩

/-- What a handler returns to a call: the value that it answers with, or nothing when it leaves. -/
def reply? (handler : SessionId) (call : Call) : ServiceEvent → Option Bytes
  | .frame _ sender whole =>
    match whole.message with
    | .ok (.handleRpcResponse caller transaction returnValue) =>
      if sender = handler ∧ caller = call.caller ∧ transaction = call.transaction then
        some returnValue
      else none
    | _ => none
  | .unlisted _ id | .closed _ id => if id = handler then some [] else none
  | _ => none

/-- The size field of a frame that is handed in counts the bytes of its body. -/
def Sized : ServiceEvent → Prop
  | .frame _ _ whole => whole.body.length + Header.length < UInt32.size
  | _ => True

instance (event : ServiceEvent) : Decidable event.Sized :=
  match event with
  | .frame _ _ _ => inferInstanceAs (Decidable (_ < _))
  | .opened .. | .stopped _ | .unlisted .. | .closed .. | .drained _ => .isTrue trivial

end ServiceEvent

namespace Call

variable (call : Call)

/-- The values that are returned to a call, in order. -/
def returned (log : List Occurrence) : List Bytes :=
  (log.flatMap (·.queued call.caller)).filterMap (·.returned? call.transaction)

/-- What a session is asked to answer on behalf of a call, in order. -/
def requested (id : SessionId) (log : List Occurrence) : List (Uuid × Bytes) :=
  (log.flatMap (·.queued id)).filterMap (·.requested? call.caller call.transaction)

theorem returned_concat (log : List Occurrence) (occurrence : Occurrence) :
    call.returned (log ++ [occurrence]) = call.returned log ++
      (occurrence.queued call.caller).filterMap (·.returned? call.transaction) := by
  rw [returned, List.flatMap_append, List.flatMap_singleton, List.filterMap_append]
  rfl

theorem requested_append (id : SessionId) (log more : List Occurrence) :
    call.requested id (log ++ more) = call.requested id log ++ call.requested id more := by
  rw [requested, List.flatMap_append, List.filterMap_append]
  rfl

end Call

/-! ## What an event queues -/

namespace Service

variable {service : Service} {event : ServiceEvent} {id : SessionId} {session later : Session}
  {call : Call}

theorem waiting_of_found (found : service.session? id = some session) :
    service.waiting id = session.backlog.entries := by
  rw [waiting, found]

theorem waiting_of_absent (absent : service.session? id = none) : service.waiting id = [] := by
  rw [waiting, absent]

/-- What is queued on a session is some of what is pushed, and all of it if the session goes on. -/
theorem queued_of_pushed {entries : List BacklogEntry} (found : service.session? id = some session)
    (laterFound : (service.next event).session? id = some later)
    (pushed : session.Pushed later entries) :
    (Occurrence.queued id ⟨service, event⟩).Sublist entries ∧
      (later.stopped = false → Occurrence.queued id ⟨service, event⟩ = entries) := by
  rw [Occurrence.queued, Occurrence.after, waiting_of_found found, waiting_of_found laterFound]
  refine ⟨?_, ?_⟩
  · rcases pushed.kept with ⟨kept, sub, same⟩
    rw [same, List.drop_left]
    exact sub
  · intro going
    rw [(pushed.going going).2, List.drop_left]

theorem queued_of_waiting_nil (empty : (service.next event).waiting id = []) :
    Occurrence.queued id ⟨service, event⟩ = [] := by
  rw [Occurrence.queued, Occurrence.after, empty, List.drop_nil]

theorem queued_drained (found : service.session? id = some session) :
    Occurrence.queued id ⟨service, .drained id⟩ = [] := by
  apply queued_of_waiting_nil
  rw [waiting, next, session?_drain, if_pos rfl, found]
  rfl

theorem queued_of_absent (absent : service.session? id = none) :
    Occurrence.queued id ⟨service, event⟩ = [] := by
  apply queued_of_waiting_nil
  cases laterFound : (service.next event).session? id with
  | none => exact waiting_of_absent laterFound
  | some later =>
      rcases opened_of_absent absent laterFound with ⟨_, _, _, _, rfl⟩
      exact waiting_of_found laterFound

/-- Whatever is queued on a session, the event queues. -/
theorem Coherent.queues_of_mem (coherent : service.Coherent) {event : ServiceEvent}
    {id : SessionId} {entry : BacklogEntry} (mem : entry ∈ Occurrence.queued id ⟨service, event⟩) :
    service.Queues event entry := by
  cases found : service.session? id with
  | none =>
      rw [queued_of_absent found] at mem
      cases mem
  | some session =>
      by_cases isDrained : event = .drained id
      · rw [isDrained, queued_drained found] at mem
        cases mem
      · by_cases isClosed : event.Closes id
        · rcases isClosed with ⟨order, rfl⟩
          rw [queued_of_waiting_nil] at mem
          · cases mem
          · rw [Service.next]
            exact waiting_of_absent (by rw [session?_close, if_pos rfl])
        · rcases coherent.served_next found isDrained isClosed with
            ⟨later, laterFound, entries, pushed, queues⟩
          exact queues entry ((queued_of_pushed found laterFound pushed).1.subset mem)

/-! ## Steps that settle a call, and steps that do not -/

theorem Coherent.settles_next (coherent : service.Coherent)
    (found : service.session? call.caller = some session)
    (notDrained : event ≠ .drained call.caller) (notClosed : ¬event.Closes call.caller)
    (unused : ¬event.Uses call)
    (unanswered : ∀ handler, session.Awaits call.transaction handler →
      event.reply? handler call = none) :
    ∃ later, (service.next event).session? call.caller = some later ∧
      session.Settles call.transaction none later := by
  cases event with
  | opened maxEntries transport =>
      have different : call.caller ≠ service.nextSession := by
        intro same
        have born := (coherent.numbered _ _ found).2
        rw [same] at born
        exact Nat.lt_irrefl _ born
      rw [Service.next, session?_openSession, if_neg different]
      exact ⟨session, found, .refl session⟩
  | frame order sender frame =>
      refine (handled_handle service order sender frame).settles found ?_ ?_
      · rintro asker uuid parameter askerFound asked ⟨isCaller, sameTransaction⟩
        apply unused
        rw [(coherent.numbered _ _ askerFound).1] at isCaller
        exact ServiceEvent.uses_of_message asked isCaller sameTransaction
      · intro answerer returnValue answererFound asked awaits
        have silent := unanswered _ awaits
        simp [ServiceEvent.reply?, asked, (coherent.numbered _ _ answererFound).1] at silent
  | stopped other =>
      exact (Carried.modify Session.Settles.refl service other (fun session =>
        .of_pushed (.stop session) (by simp) rfl) call.caller).present session found
  | unlisted order other =>
      refine settles_unlist _ found fun awaits => ?_
      have silent := unanswered _ awaits
      simp [ServiceEvent.reply?] at silent
  | closed order other =>
      have different : call.caller ≠ other := by
        rintro rfl
        exact notClosed ⟨order, rfl⟩
      rw [Service.next, session?_close, if_neg different]
      refine settles_unlist _ found fun awaits => ?_
      have silent := unanswered _ awaits
      simp [ServiceEvent.reply?] at silent
  | drained other =>
      have different : call.caller ≠ other := by
        rintro rfl
        exact notDrained rfl
      rw [Service.next, session?_drain, if_neg different]
      exact ⟨session, found, .refl session⟩

theorem Coherent.settles_reply (coherent : service.Coherent) {handler : SessionId}
    {answerer : Session} {returnValue : Bytes}
    (listed : service.listed? call.caller = some session)
    (notUnlisted : ¬event.Unlists call.caller) (notClosed : ¬event.Closes call.caller)
    (handlerListed : service.listed? handler = some answerer)
    (signedIn : answerer.signedIn = true) (awaits : session.Awaits call.transaction handler)
    (replied : event.reply? handler call = some returnValue) (sized : event.Sized) :
    ∃ later, (service.next event).session? call.caller = some later ∧
      session.Settles call.transaction (some returnValue) later := by
  cases event with
  | frame order sender frame =>
      have handlerFound := session?_of_listed? handlerListed
      simp only [ServiceEvent.reply?] at replied
      split at replied
      · next caller transaction value asked =>
        split at replied
        · next mine =>
          rcases mine with ⟨rfl, rfl, rfl⟩
          cases replied
          have body := Frame.size_le_of_message asked
          have total : frame.body.length + Header.length < UInt32.size := sized
          rw [Message.size_handleRpcResponse] at body
          rw [Service.next, handle_handleRpcResponse handlerFound signedIn asked,
            (coherent.numbered _ _ handlerFound).1]
          refine settles_answerCall listed awaits ?_
          rw [Message.size_rpcResponse]
          omega
        · cases replied
      · cases replied
  | unlisted order other =>
      simp only [ServiceEvent.reply?] at replied
      split at replied
      · next same =>
        cases replied
        subst same
        refine settles_unlist_of_awaits listed handlerListed ?_ awaits
        rintro rfl
        exact notUnlisted ⟨order, rfl⟩
      · cases replied
  | closed order other =>
      simp only [ServiceEvent.reply?] at replied
      split at replied
      · next same =>
        cases replied
        subst same
        have different : call.caller ≠ other := by
          rintro rfl
          exact notClosed ⟨order, rfl⟩
        rw [Service.next, session?_close, if_neg different]
        exact settles_unlist_of_awaits listed handlerListed different awaits
      · cases replied
  | opened maxEntries transport => cases replied
  | stopped other => cases replied
  | drained other => cases replied

end Service

/-! ## Passing a call on -/

namespace ServiceEvent

theorem eq_frame_of_call? {event : ServiceEvent} {call : Call} (asks : event.call? = some call) :
    ∃ order frame, event = .frame order call.caller frame ∧
      frame.message = .ok (.rpcRequest call.uuid call.parameter) ∧
      frame.transaction = call.transaction := by
  cases event with
  | frame order sender frame =>
      simp only [call?] at asks
      split at asks
      · next uuid parameter asked =>
        cases asks
        exact ⟨order, frame, rfl, asked, rfl⟩
      · cases asks
  | opened _ _ | stopped _ | unlisted _ _ | closed _ _ | drained _ => cases asks

end ServiceEvent

namespace Service

variable {service : Service} {event : ServiceEvent} {id : SessionId} {session : Session}
  {call : Call} {endpoint : Handle} {handler : SessionId}

theorem callee?_eq_some {uuid : Uuid} (callee : service.callee? uuid = some (endpoint, handler)) :
    service.tree.findUuid uuid = .ok endpoint ∧
      (∃ property, service.tree.property? endpoint = some property ∧
        property.handler? = some handler) ∧
      ∃ answerer, service.listed? handler = some answerer ∧ answerer.stopped = false := by
  simp only [callee?, Option.bind_eq_bind, Option.bind_eq_some_iff] at callee
  rcases callee with ⟨found, isFound, owner, answers, answerer, listed, goes⟩
  split at goes
  · cases goes
  · next going =>
    cases goes
    refine ⟨?_, answers, answerer, listed, by simpa using going⟩
    cases outcome : service.tree.findUuid uuid with
    | error error =>
        rw [outcome] at isFound
        cases isFound
    | ok same =>
        rw [outcome] at isFound
        cases isFound
        rfl

/-- The service after a call has been recorded and its request pushed. -/
def passOn (service : Service) (caller : SessionId) (transaction : TransactionId)
    (endpoint : Handle) (handler : SessionId) (request : Frame) : Service :=
  (service.addCall caller transaction endpoint).modifySession handler (·.push (.frame request))

theorem session?_passOn (caller : SessionId) (transaction : TransactionId) (request : Frame) :
    (service.passOn caller transaction endpoint handler request).session? id =
      (service.session? id).map fun session =>
        let recorded := if id = caller then (session.addCall transaction
          ⟨endpoint, (service.tree.property? endpoint).bind (·.handler?)⟩).2 else session
        if id = handler then recorded.push (.frame request) else recorded := by
  rw [passOn, session?_modifySession, session?_addCall]
  cases service.session? id with
  | none => simp only [Option.map_none, ite_self]
  | some session =>
      simp only [Option.map_some]
      split <;> split <;> rfl

/-- A session that does not answer a call is sent nothing when the call is passed on. -/
theorem waiting_passOn (service : Service) (caller : SessionId) (transaction : TransactionId)
    (endpoint : Handle) (request : Frame) (different : id ≠ handler) :
    (service.passOn caller transaction endpoint handler request).waiting id =
      service.waiting id := by
  simp only [waiting, session?_passOn, if_neg different]
  cases service.session? id with
  | none => rfl
  | some session =>
      simp only [Option.map_some]
      split <;> rfl

/-- A handler that goes on is sent the request, or it stops because its backlog is full. -/
theorem passOn_handler (caller : SessionId) (transaction : TransactionId) (endpoint : Handle)
    (request : Frame) {answerer : Session} (found : service.session? handler = some answerer)
    (going : answerer.stopped = false) :
    ∃ later,
      (service.passOn caller transaction endpoint handler request).session? handler = some later ∧
      (answerer.backlog.maxEntries ≤ answerer.backlog.size ∧ later.stopped = true ∧
          later.backlog.entries = answerer.backlog.entries ∨
        later.backlog.entries = answerer.backlog.entries ++ [.frame request]) := by
  rw [session?_passOn, found, Option.map_some, if_pos rfl]
  refine ⟨_, rfl, ?_⟩
  generalize recordedEq : (if handler = caller then (answerer.addCall transaction
    ⟨endpoint, (service.tree.property? endpoint).bind (·.handler?)⟩).2 else answerer) = recorded
  have sameBacklog : recorded.backlog = answerer.backlog ∧ recorded.stopped = answerer.stopped := by
    rw [← recordedEq]
    split <;> exact ⟨rfl, rfl⟩
  rcases recorded.push_cases (.frame request) with ⟨stopped, _⟩ | ⟨_, full, same⟩ | ⟨_, _, same⟩
  · rw [sameBacklog.2, going] at stopped
    cases stopped
  · refine Or.inl ⟨by rwa [sameBacklog.1] at full, ?_, ?_⟩
    · rw [same]
      rfl
    · rw [same, ← sameBacklog.1]
      rfl
  · refine Or.inr ?_
    rw [same, ← sameBacklog.1]

/-- The caller has a call pending that has been passed on, and nothing is returned to it. -/
theorem passOn_caller {caller asker : SessionId} {asked other : TransactionId} {uuid : Uuid}
    {parameter : Bytes} {request : Frame} (transaction : TransactionId) (endpoint : Handle)
    (handler : SessionId)
    (made : Frame.ofMessage (.handleRpcRequest asker asked uuid parameter) other = .ok request)
    (found : service.session? caller = some session) :
    ∃ later entries,
      (service.passOn caller transaction endpoint handler request).session? caller = some later ∧
      later.pending.find? transaction =
        some ⟨endpoint, (service.tree.property? endpoint).bind (·.handler?)⟩ ∧
      session.Pushed later entries ∧
      ∀ entry ∈ entries, entry.returned? transaction = none := by
  rw [session?_passOn, found, Option.map_some, if_pos rfl]
  have recorded := Session.Pushed.addCall transaction
    ⟨endpoint, (service.tree.property? endpoint).bind (·.handler?)⟩ session
  by_cases isHandler : caller = handler
  · refine ⟨_, [.frame request], rfl, ?_, ?_, ?_⟩
    · simp only [if_pos isHandler, Session.pending_push, Session.addCall, Table.find?_insert,
        if_pos]
    · rw [if_pos isHandler]
      exact recorded.trans (.push (.frame request) _)
    · intro entry mem
      rw [List.mem_singleton.mp mem]
      exact BacklogEntry.returned?_request made
  · refine ⟨_, [], rfl, ?_, ?_, by simp⟩
    · simp only [if_neg isHandler, Session.addCall, Table.find?_insert, if_pos]
    · rw [if_neg isHandler]
      exact recorded

variable {asker : Session}

/-- A call that nobody can answer changes nothing and is answered at once. -/
theorem next_of_callee?_eq_none (asks : event.call? = some call)
    (found : service.session? call.caller = some asker)
    (signedIn : asker.signedIn = true) (nobody : service.callee? call.uuid = none) :
    service.next event = service ∧ ∃ frame,
      Frame.ofMessage (.rpcResponse []) call.transaction = .ok frame ∧
      Occurrence.answer? ⟨service, event⟩ = some frame := by
  rcases ServiceEvent.eq_frame_of_call? asks with ⟨order, frame, rfl, asked, sameTransaction⟩
  rcases Frame.exists_ofMessage (show (Message.rpcResponse []).size + Header.length < UInt32.size by
    decide) call.transaction with ⟨answer, answerMade⟩
  have handled : service.handle order call.caller frame = (service, some answer) := by
    rw [handle_rpcRequest found signedIn asked, Service.call, nobody, sameTransaction]
    dsimp only [Option.bind_some]
    rw [answerMade]
    rfl
  refine ⟨?_, answer, answerMade, ?_⟩
  · rw [Service.next, handled]
  · rw [Occurrence.answer?]
    dsimp only
    rw [handled]

/-- A call that somebody can answer is passed on, and not answered at once. -/
theorem Coherent.next_of_callee? (coherent : service.Coherent) (asks : event.call? = some call)
    (found : service.session? call.caller = some asker) (signedIn : asker.signedIn = true)
    (callee : service.callee? call.uuid = some (endpoint, handler)) {request : Frame}
    (made : Frame.ofMessage (.handleRpcRequest call.caller call.transaction call.uuid
      call.parameter) unsolicited = .ok request) :
    service.next event =
        service.passOn call.caller call.transaction endpoint handler request ∧
      Occurrence.answer? ⟨service, event⟩ = none := by
  rcases ServiceEvent.eq_frame_of_call? asks with ⟨order, frame, rfl, asked, sameTransaction⟩
  have handled : service.handle order call.caller frame =
      (service.passOn call.caller call.transaction endpoint handler request, none) := by
    rw [handle_rpcRequest found signedIn asked, Service.call, callee,
      (coherent.numbered _ _ found).1, sameTransaction]
    dsimp only
    rw [made]
    rfl
  refine ⟨?_, ?_⟩
  · rw [Service.next, handled]
  · rw [Occurrence.answer?]
    dsimp only
    rw [handled]

end Service

/-! ## Requests -/

/-- Only an event that asks for a call queues a request on behalf of it. -/
theorem Service.Coherent.requested_next {service : Service} (coherent : service.Coherent)
    {event : ServiceEvent} {call : Call} (unused : ¬event.Uses call) (id : SessionId) :
    (Occurrence.queued id ⟨service, event⟩).filterMap
      (·.requested? call.caller call.transaction) = [] := by
  rw [List.filterMap_eq_nil_iff]
  intro entry mem
  have answers {transaction : TransactionId} {returnValue : Bytes}
      (isAnswer : entry ∈ Session.answerEntries transaction returnValue) :
      entry.requested? call.caller call.transaction = none := by
    rcases Session.frame_of_mem_answerEntries isAnswer with ⟨frame, made, rfl⟩
    exact BacklogEntry.requested?_answer made
  cases coherent.queues_of_mem mem with
  | sent sends =>
      cases sends with
      | creation fits success => rfl
      | deletion success => rfl
      | update found allowed asked fits success uuid => rfl
      | request found forwards =>
          rcases forwards with ⟨uuid, parameter, asked, made⟩
          rw [(coherent.numbered _ _ found).1] at made
          rw [BacklogEntry.requested?_request made, if_neg]
          rintro ⟨sameCaller, sameTransaction⟩
          exact unused (ServiceEvent.uses_of_message asked sameCaller sameTransaction)
      | answer asked made => exact BacklogEntry.requested?_answer made
  | unlisted isAnswer => exact answers isAnswer
  | closed isAnswer => exact answers isAnswer

end SharedTree
