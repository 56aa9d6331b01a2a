import SharedTree.Proofs.Service.Calls
import SharedTree.Proofs.Service.Oversized
import SharedTree.Proofs.Service.Run
import SharedTree.Proofs.Service.Watching

/-!
# The balance of calls

Every call that a session asks for is answered at once, answered later or pending, with one
exception: a call that is passed on while another one is pending under the same transaction
id takes its place, and the one whose place was taken is never answered.

`Runs.balance` counts them, for every session that is listed and was never told to stop,
whatever transaction ids it picks. `Runs.overtaken_call_lost` is a run in which a call gets lost.
-/

namespace SharedTree

namespace BacklogEntry

/-- Whether an entry answers a call. -/
def isReturn : BacklogEntry → Bool
  | .frame whole =>
    match whole.message with
    | .ok (.rpcResponse _) => true
    | _ => false
  | _ => false

theorem isReturn_request {asker : SessionId} {asked carried : TransactionId} {uuid : Uuid}
    {parameter : Bytes} {frame : Frame}
    (made : Frame.ofMessage (.handleRpcRequest asker asked uuid parameter) carried = .ok frame) :
    (BacklogEntry.frame frame).isReturn = false := by
  simp only [isReturn, Frame.message_ofMessage made]

end BacklogEntry

namespace Session

variable {before middle after session : Session} {entries : List BacklogEntry}
  {transaction : TransactionId} {returnValue : Bytes}

theorem countP_answerEntries
    (fits : (Message.rpcResponse returnValue).size + Header.length < UInt32.size) :
    (answerEntries transaction returnValue).countP BacklogEntry.isReturn = 1 := by
  rcases Frame.exists_ofMessage fits transaction with ⟨frame, made⟩
  have isReturn : (BacklogEntry.frame frame).isReturn = true := by
    simp only [BacklogEntry.isReturn, Frame.message_ofMessage made]
  rw [answerEntries, made]
  exact List.countP_eq_length.mpr (by simp [Except.toOption, isReturn])

/-- A step keeps the number of calls that are pending or answered. -/
def Balances (before after : Session) : Prop :=
  ∃ entries, before.Pushed after entries ∧
    after.pending.size + entries.countP BacklogEntry.isReturn = before.pending.size

namespace Balances

theorem of_pushed (pushed : before.Pushed after entries)
    (silent : ∀ entry ∈ entries, entry.isReturn = false)
    (pending : after.pending = before.pending) : before.Balances after := by
  refine ⟨entries, pushed, ?_⟩
  rw [List.countP_eq_zero.mpr (by simpa using silent), pending, Nat.add_zero]

theorem refl (session : Session) : session.Balances session := of_pushed (.refl session) nofun rfl

theorem push {entry : BacklogEntry} (silent : entry.isReturn = false) (session : Session) :
    session.Balances (session.push entry) :=
  of_pushed (.push entry session) (by simpa using silent) (session.pending_push entry)

/-- Calls are removed, and as many answers are pushed. -/
theorem answered {pending : Table TransactionId PendingCall}
    (count : pending.size + entries.countP BacklogEntry.isReturn = session.pending.size) :
    session.Balances (({ session with pending } : Session).pushAll entries) := by
  refine ⟨entries, (Pushed.withPending pending session).trans (.pushAll entries _), ?_⟩
  rw [pending_pushAll]
  exact count

theorem abandonCalls (order : VisitOrder) (handler : SessionId) (session : Session) :
    session.Balances (session.abandonCalls order handler).2 := by
  have returned (calls : List (TransactionId × PendingCall)) :
      (calls.flatMap fun call => answerEntries call.1 []).countP BacklogEntry.isReturn =
        calls.length := by
    induction calls with
    | nil => rfl
    | cons call calls ih =>
        rw [List.flatMap_cons, List.countP_append, ih, countP_answerEntries (by decide),
          List.length_cons, Nat.add_comm]
  rw [abandonCalls_snd]
  apply answered
  rw [returned, (session.callsTo_perm order handler).length_eq, Table.size, Table.size,
    Table.filter, ← List.countP_eq_length_filter, ← List.countP_eq_length_filter,
    List.length_eq_countP_add_countP (fun entry => entry.2.handler = some handler), Nat.add_comm]
  simp

end Balances

end Session

namespace Service

variable {service after : Service} {order : VisitOrder} {sender id : SessionId} {frame : Frame}
  {session later : Session} {event : ServiceEvent}

/-- A frame keeps the balance of every session that does not ask for a call with it. -/
theorem Handled.balances (handled : Handled service order sender frame after)
    (found : service.session? id = some session)
    (unasked : ∀ asker uuid parameter, service.session? sender = some asker →
      asker.signedIn = true → frame.message = .ok (.rpcRequest uuid parameter) → asker.id ≠ id)
    (sized : frame.body.length + Header.length < UInt32.size) :
    ∃ later, after.session? id = some later ∧ session.Balances later := by
  have announced (tree : Tree) (change : TreeChange) :
      ∃ later, (({ service with tree } : Service).broadcast order change).session? id =
        some later ∧ session.Balances later :=
    (carried_broadcast Session.Balances.refl (Session.Balances.push rfl) service tree order
      id).present session found
  cases handled with
  | nothing => exact ⟨session, found, .refl session⟩
  | signedIn asker asked =>
      exact (Carried.modify Session.Balances.refl service _ (fun session =>
        .of_pushed (.signIn _ _ session) nofun rfl) id).present session found
  | created asker allowed success => exact announced _ _
  | deleted success => exact announced _ _
  | written success =>
      refine (carried_setValue (fun entries are session => .of_pushed (.pushAll entries session) ?_
        (session.pending_pushAll entries)) success id).present session found
      intro entry isUpdate
      rcases are entry isUpdate with ⟨uuid, rfl⟩
      rfl
  | watched watches asker => exact ⟨session, found, .refl session⟩
  | called asker allowed asked callee made =>
      have other := unasked _ _ _ asker allowed asked
      rw [session?_modifySession, session?_addCall, if_neg (Ne.symm other), found]
      split
      · exact ⟨_, rfl, .push (BacklogEntry.isReturn_request made) session⟩
      · exact ⟨session, rfl, .refl session⟩
  | @answered answerer answeredTo caller replied returnValue call answererFound asked listed
      recorded mine =>
      have body := Frame.size_le_of_message asked
      rw [Message.size_handleRpcResponse] at body
      rw [session?_modifySession, session?_releaseCalls, session?_modifySession]
      by_cases same : id = caller
      · have isThere := session?_of_listed? listed
        rw [← same, found] at isThere
        cases isThere
        simp only [if_pos same, found, Option.map_some, Session.pushAnswer_eq]
        refine ⟨_, rfl, .answered ?_⟩
        rw [Session.countP_answerEntries, Table.size_erase_of_found recorded]
        rw [Message.size_rpcResponse]
        omega
      · rw [if_neg same, if_neg same, found]
        exact ⟨session, rfl, .refl session⟩

theorem balances_unlist (found : service.session? id = some session) (order : LeaveOrder)
    (other : SessionId) :
    ∃ later, (service.unlist order other).2.session? id = some later ∧ session.Balances later := by
  cases listed : service.listed? other with
  | none =>
      rw [unlist_of_unlisted listed]
      exact ⟨session, found, .refl session⟩
  | some leaving =>
      rw [session?_unlist listed, found]
      split
      · exact ⟨_, rfl, .of_pushed (.unlist session) (by simp) rfl⟩
      · refine ⟨_, rfl, ?_⟩
        unfold bereft
        split
        · exact .abandonCalls _ other session
        · exact .refl session

end Service

/-! ## Counting calls -/

namespace Occurrence

/-- A session that has signed in asks for a call. -/
def asks (id : SessionId) (occurrence : Occurrence) : Bool :=
  occurrence.event.call?.any (·.caller = id) &&
    (occurrence.before.session? id).any (·.signedIn)

/-- A session is answered at once that a call returns nothing. -/
def refuses (id : SessionId) (occurrence : Occurrence) : Bool :=
  occurrence.event.sender? = some id && occurrence.answers (.rpcResponse [])

/-- A call of a session is passed on while it has another one pending under the same transaction
id. -/
def overtakes (id : SessionId) (occurrence : Occurrence) : Bool :=
  occurrence.asks id && occurrence.event.call?.any fun call =>
    (occurrence.before.callee? call.uuid).isSome &&
      (occurrence.before.session? id).any (·.pending.contains call.transaction)

end Occurrence

namespace Call

/-- The request that a call is passed on with fits in a frame. -/
def Fits (call : Call) : Prop :=
  (Message.handleRpcRequest call.caller call.transaction call.uuid call.parameter).size +
    Header.length < UInt32.size

instance (call : Call) : Decidable call.Fits := inferInstanceAs (Decidable (_ < _))

end Call

namespace Service

variable {service : Service} {order : VisitOrder} {id : SessionId} {session later : Session}
  {event : ServiceEvent}

theorem asks_iff : Occurrence.asks id ⟨service, event⟩ = true ↔
    ∃ call session, event.call? = some call ∧ call.caller = id ∧
      service.session? id = some session ∧ session.signedIn = true := by
  simp only [Occurrence.asks, Bool.and_eq_true, Option.any_eq_true, decide_eq_true_eq]
  constructor
  · rintro ⟨⟨call, asks, isCaller⟩, session, found, signedIn⟩
    exact ⟨call, session, asks, isCaller, found, signedIn⟩
  · rintro ⟨call, session, asks, isCaller, found, signedIn⟩
    exact ⟨⟨call, asks, isCaller⟩, session, found, signedIn⟩

/-- Only a call is answered as calls are. -/
theorem exists_rpcRequest_of_handleMessage {asker : Session} {transaction : TransactionId}
    {message : Message} {returnValue : Bytes}
    (answered : (service.handleMessage order asker transaction message).2 =
      some (.rpcResponse returnValue)) :
    asker.signedIn = true ∧ ∃ uuid parameter, message = .rpcRequest uuid parameter := by
  cases signedIn : asker.signedIn with
  | false => cases message <;> simp [handleMessage, signedIn, signIn] at answered
  | true =>
      cases message <;> simp only [handleMessage, signedIn] at answered
      case rpcRequest uuid parameter => exact ⟨rfl, uuid, parameter, rfl⟩
      case createRequest kind data path =>
        rcases service.exists_createResponse order asker.id kind data path with ⟨_, _, created⟩
        rw [created] at answered
        cases answered
      case deleteRequest path =>
        rcases service.exists_deleteResponse order path with ⟨_, deleted⟩
        rw [deleted] at answered
        cases answered
      case subscribeRequest uuid =>
        rcases service.exists_subscribeResponse asker uuid with ⟨_, subscribed⟩
        rw [subscribed] at answered
        cases answered
      case unsubscribeRequest uuid =>
        rcases service.exists_unsubscribeResponse asker uuid with ⟨_, unsubscribed⟩
        rw [unsubscribed] at answered
        cases answered
      case getSpecificMetaRequest path =>
        unfold lookUp at answered
        split at answered <;> cases answered
      all_goals cases answered

theorem refuses_iff : Occurrence.refuses id ⟨service, event⟩ = true ↔
    ∃ answer, event.sender? = some id ∧ Occurrence.answer? ⟨service, event⟩ = some answer ∧
      answer.message = .ok (.rpcResponse []) := by
  simp only [Occurrence.refuses, Bool.and_eq_true, decide_eq_true_eq, Occurrence.answers,
    Option.any_eq_true]
  constructor
  · rintro ⟨isSender, answer, answered, carries⟩
    exact ⟨answer, isSender, answered, carries⟩
  · rintro ⟨answer, isSender, answered, carries⟩
    exact ⟨isSender, answer, answered, carries⟩

theorem asks_of_refuses (refuses : Occurrence.refuses id ⟨service, event⟩ = true) :
    Occurrence.asks id ⟨service, event⟩ = true := by
  rcases refuses_iff.mp refuses with ⟨answer, isSender, answered, carries⟩
  cases event with
  | frame order sender frame =>
      cases isSender
      rcases handle_answer answered with ⟨asker, message, reply, found, asked, replied, made⟩
      rw [Frame.message_ofMessage made] at carries
      cases carries
      rcases exists_rpcRequest_of_handleMessage replied with ⟨signedIn, uuid, parameter, rfl⟩
      refine asks_iff.mpr ⟨⟨id, frame.transaction, uuid, parameter⟩, asker, ?_, rfl, found, signedIn⟩
      simp only [ServiceEvent.call?, asked]
  | opened _ _ | stopped _ | unlisted _ _ | closed _ _ | drained _ => cases isSender

/-! ## One event -/

/-- An event with which a session does not ask for a call keeps its balance, unless it is drained or
closed. -/
theorem Coherent.balances_next (coherent : service.Coherent)
    (found : service.session? id = some session) (notDrained : event ≠ .drained id)
    (notClosed : ¬event.Closes id)
    (unasked : Occurrence.asks id ⟨service, event⟩ = false) (sized : event.Sized) :
    ∃ later, (service.next event).session? id = some later ∧ session.Balances later := by
  cases event with
  | opened maxEntries transport =>
      have different : id ≠ service.nextSession := by
        rintro rfl
        exact Nat.lt_irrefl _ (coherent.numbered _ _ found).2
      rw [Service.next, session?_openSession, if_neg different]
      exact ⟨session, found, .refl session⟩
  | frame order sender frame =>
      refine (handled_handle service order sender frame).balances found ?_ sized
      intro asker uuid parameter askerFound signedIn asked isAsker
      have isSender : sender = id := (coherent.numbered _ _ askerFound).1.symm.trans isAsker
      rw [← Bool.not_eq_true, asks_iff] at unasked
      apply unasked
      refine ⟨⟨sender, frame.transaction, uuid, parameter⟩, asker, ?_, isSender, ?_, signedIn⟩
      · simp only [ServiceEvent.call?, asked]
      · rw [← isSender, askerFound]
  | stopped other =>
      exact (Carried.modify Session.Balances.refl service other (fun session =>
        .of_pushed (.stop session) (by simp) rfl) id).present session found
  | unlisted order other => exact balances_unlist found order other
  | closed order other =>
      have different : id ≠ other := by
        rintro rfl
        exact notClosed ⟨order, rfl⟩
      rw [Service.next, session?_close, if_neg different]
      exact balances_unlist found order other
  | drained other =>
      have different : id ≠ other := by
        rintro rfl
        exact notDrained rfl
      rw [Service.next, session?_drain, if_neg different]
      exact ⟨session, found, .refl session⟩

theorem overtakes_of_asks {call : Call} (asks : event.call? = some call)
    (isCaller : call.caller = id) (found : service.session? id = some session)
    (signedIn : session.signedIn = true) :
    Occurrence.overtakes id ⟨service, event⟩ =
      ((service.callee? call.uuid).isSome && session.pending.contains call.transaction) := by
  have asking : Occurrence.asks id ⟨service, event⟩ = true :=
    asks_iff.mpr ⟨call, session, asks, isCaller, found, signedIn⟩
  simp [Occurrence.overtakes, asking, asks, found]

/-- A call that nobody can answer is answered at once. -/
theorem tally_refused {call : Call} (asks : event.call? = some call) (isCaller : call.caller = id)
    (found : service.session? id = some session) (signedIn : session.signedIn = true)
    (nobody : service.callee? call.uuid = none) :
    service.next event = service ∧ Occurrence.refuses id ⟨service, event⟩ = true ∧
      Occurrence.queued id ⟨service, event⟩ = [] := by
  subst isCaller
  rcases next_of_callee?_eq_none asks found signedIn nobody with ⟨same, answer, made, answered⟩
  rcases ServiceEvent.eq_frame_of_call? asks with ⟨_, _, isFrame, _⟩
  refine ⟨same, refuses_iff.mpr ⟨answer, ?_, answered, Frame.message_ofMessage made⟩, ?_⟩
  · rw [isFrame]
    rfl
  · rw [Occurrence.queued, Occurrence.after, same, List.drop_length]

/-- A call that somebody can answer is pending afterwards, and nothing is returned. -/
theorem Coherent.tally_passedOn (coherent : service.Coherent) {call : Call}
    (asks : event.call? = some call) (isCaller : call.caller = id)
    (found : service.session? id = some session) (signedIn : session.signedIn = true)
    {endpoint : Handle} {handler : SessionId}
    (callee : service.callee? call.uuid = some (endpoint, handler)) (fits : call.Fits)
    (laterFound : (service.next event).session? id = some later) (going : later.stopped = false) :
    Occurrence.refuses id ⟨service, event⟩ = false ∧
      (Occurrence.queued id ⟨service, event⟩).countP BacklogEntry.isReturn = 0 ∧
      later.pending.size = if session.pending.contains call.transaction then session.pending.size
        else session.pending.size + 1 := by
  subst isCaller
  rcases Frame.exists_ofMessage fits unsolicited with ⟨request, made⟩
  rcases coherent.next_of_callee? asks found signedIn callee made with ⟨passed, unanswered⟩
  have recorded := Session.Pushed.addCall call.transaction
    ⟨endpoint, (service.tree.property? endpoint).bind (·.handler?)⟩ session
  have pushed : ∃ entries, session.Pushed later entries ∧
      (∀ entry ∈ entries, entry.isReturn = false) ∧
      later.pending = session.pending.insert call.transaction
        ⟨endpoint, (service.tree.property? endpoint).bind (·.handler?)⟩ := by
    rw [passed, session?_passOn, found, Option.map_some, if_pos rfl] at laterFound
    by_cases isHandler : call.caller = handler
    · rw [if_pos isHandler] at laterFound
      cases laterFound
      refine ⟨[.frame request], recorded.trans (.push _ _), ?_, Session.pending_push _ _⟩
      simpa using BacklogEntry.isReturn_request made
    · rw [if_neg isHandler] at laterFound
      cases laterFound
      exact ⟨[], recorded, nofun, rfl⟩
  rcases pushed with ⟨entries, pushed, silent, pending⟩
  refine ⟨?_, ?_, ?_⟩
  · rw [← Bool.not_eq_true, refuses_iff, unanswered]
    rintro ⟨_, _, impossible, _⟩
    cases impossible
  · rw [(queued_of_pushed found laterFound pushed).2 going]
    simpa using silent
  · rw [pending, Table.size_insert]

/-- An event with which a session does not ask for a call keeps its balance. -/
theorem Coherent.tally_unasked (coherent : service.Coherent)
    (found : service.session? id = some session)
    (laterFound : (service.next event).session? id = some later) (going : later.stopped = false)
    (unasked : Occurrence.asks id ⟨service, event⟩ = false) (sized : event.Sized) :
    later.pending.size +
        (Occurrence.queued id ⟨service, event⟩).countP BacklogEntry.isReturn =
      session.pending.size := by
  by_cases isDrained : event = .drained id
  · subst isDrained
    rw [queued_drained found]
    rw [Service.next, session?_drain, if_pos rfl, found] at laterFound
    cases laterFound
    rfl
  · have notClosed : ¬event.Closes id := by
      rintro ⟨order, rfl⟩
      rw [Service.next, session?_close, if_pos rfl] at laterFound
      cases laterFound
    rcases coherent.balances_next found isDrained notClosed unasked sized with
      ⟨same, sameFound, entries, pushed, count⟩
    rw [laterFound] at sameFound
    cases sameFound
    rw [(queued_of_pushed found laterFound pushed).2 going]
    exact count

/-- The balance of one event. -/
theorem Coherent.tally_next (coherent : service.Coherent)
    (found : service.session? id = some session)
    (laterFound : (service.next event).session? id = some later) (going : later.stopped = false)
    (fits : ∀ call ∈ event.call?, call.caller = id → call.Fits) (sized : event.Sized) :
    session.pending.size + [(⟨service, event⟩ : Occurrence)].countP (·.asks id) =
      [(⟨service, event⟩ : Occurrence)].countP (·.refuses id) +
        (Occurrence.queued id ⟨service, event⟩).countP BacklogEntry.isReturn +
        later.pending.size + [(⟨service, event⟩ : Occurrence)].countP (·.overtakes id) := by
  simp only [List.countP_singleton]
  cases asking : Occurrence.asks id ⟨service, event⟩ with
  | false =>
      have notRefused : Occurrence.refuses id ⟨service, event⟩ = false := by
        rw [← Bool.not_eq_true]
        intro refuses
        rw [asks_of_refuses refuses] at asking
        cases asking
      have count := coherent.tally_unasked found laterFound going asking sized
      simp only [notRefused, Occurrence.overtakes, asking, Bool.false_and, Bool.false_eq_true,
        if_false]
      omega
  | true =>
      rcases asks_iff.mp asking with ⟨call, asker, asks, isCaller, isThere, signedIn⟩
      rw [found] at isThere
      cases isThere
      rw [overtakes_of_asks asks isCaller found signedIn]
      cases callee : service.callee? call.uuid with
      | none =>
          rcases tally_refused asks isCaller found signedIn callee with ⟨same, refused, nothing⟩
          rw [same, found] at laterFound
          cases laterFound
          simp only [refused, nothing, List.countP_nil, Option.isSome_none, Bool.false_and,
            Bool.false_eq_true, if_true, if_false]
          omega
      | some answering =>
          rcases coherent.tally_passedOn asks isCaller found signedIn callee
            (fits call asks isCaller) laterFound going with ⟨notRefused, silent, size⟩
          rw [notRefused, silent, size]
          cases session.pending.contains call.transaction <;> simp

end Service

namespace Runs

variable {maxBody : Nat} {log : List Occurrence} {service : Service} {id : SessionId}
  {session : Session}

theorem balance_unborn (run : Runs maxBody log service)
    (unborn : service.nextSession.toNat ≤ id.toNat) :
    log.countP (·.asks id) = 0 ∧ log.countP (·.refuses id) = 0 ∧
      log.flatMap (·.queued id) = [] ∧ log.countP (·.overtakes id) = 0 := by
  have absent := run.unborn unborn
  have unasked : ∀ occurrence ∈ log, occurrence.asks id = false := by
    intro occurrence mem
    rw [Occurrence.asks, (absent occurrence mem).1, Option.any_none, Bool.and_false]
  refine ⟨?_, ?_, ?_, ?_⟩
  · simpa using unasked
  · rw [List.countP_eq_zero]
    intro occurrence mem refuses
    have asks : occurrence.asks id = true := Service.asks_of_refuses refuses
    rw [unasked occurrence mem] at asks
    cases asks
  · exact run.flatMap_unborn unborn fun _ _ => Service.queued_of_absent
  · rw [List.countP_eq_zero]
    intro occurrence mem
    rw [Occurrence.overtakes, unasked occurrence mem, Bool.false_and]
    exact Bool.false_ne_true

/-- The calls that a session has asked for are those refused at once, those answered, those pending
and those whose place another call of the session took under the same transaction id. -/
theorem balance (run : Runs maxBody log service) (listed : service.listed? id = some session)
    (going : session.stopped = false)
    (fits : ∀ occurrence ∈ log, ∀ call ∈ occurrence.event.call?, call.caller = id → call.Fits)
    (sized : ∀ occurrence ∈ log, occurrence.event.Sized) :
    log.countP (·.asks id) =
      log.countP (·.refuses id) + (log.flatMap (·.queued id)).countP BacklogEntry.isReturn +
        session.pending.size + log.countP (·.overtakes id) := by
  induction run generalizing session with
  | new => cases listed
  | @next log service before event allowed ih =>
      have found := Service.session?_of_listed? listed
      simp only [List.countP_append, List.flatMap_append, List.flatMap_singleton]
      cases wasFound : service.session? id with
      | none =>
          rcases Service.opened_of_absent wasFound found with ⟨_, _, rfl, rfl, rfl⟩
          rcases before.balance_unborn (Nat.le_refl _) with ⟨asked, refused, nothing, overtaken⟩
          rw [asked, refused, nothing, overtaken, Service.queued_of_absent wasFound]
          simp [Occurrence.asks, Occurrence.refuses, Occurrence.overtakes, ServiceEvent.call?,
            ServiceEvent.sender?]
      | some wasThere =>
          rcases before.coherent.going_of_next (before.coherent.numbered _ _ wasFound).2 listed
            going with ⟨earlier, wasListed, wasGoing, _⟩
          have sooner := ih wasListed wasGoing (fun occurrence mem => fits occurrence (by simp [mem]))
            fun occurrence mem => sized occurrence (by simp [mem])
          have last := before.coherent.tally_next (Service.session?_of_listed? wasListed) found going
            (fits ⟨service, event⟩ (by simp)) (sized ⟨service, event⟩ (by simp))
          omega

theorem balance_mixed :
    ∃ log service session, Runs 64 log service ∧ service.listed? 1 = some session ∧
      session.stopped = false ∧ log.countP (·.asks 1) = 4 ∧ log.countP (·.refuses 1) = 1 ∧
      session.pending.size = 1 ∧ log.countP (·.overtakes 1) = 1 ∧
      (log.flatMap (·.queued 1)).countP BacklogEntry.isReturn = 1 := by
  have serve {log : List Occurrence} {service : Service} {frame : Frame}
      (before : Runs 64 log service) (sender : SessionId) (transaction : TransactionId)
      (message : Message) (_ : Frame.ofMessage message transaction = .ok frame) :=
    before.next (.frame .stored sender frame) trivial
  have run : Runs 64 [] (.new 64) := .new
  have run := run.next (.opened 8 .sink) (by decide)
  have run := run.next (.opened 8 .sink) (by decide)
  have run := serve run 1 7 (.signinRequest protocolVersion 0 ⟨0⟩) rfl
  have run := serve run 2 7 (.signinRequest protocolVersion 0 ⟨0⟩) rfl
  have run := serve run 2 7 (.createRequest .rpc [] "/sum") rfl
  have run := serve run 1 7 (.rpcRequest 100 [5]) rfl
  have run := serve run 1 7 (.rpcRequest 100 [6]) rfl
  have run := serve run 1 7 (.rpcRequest 9 []) rfl
  have run := serve run 1 8 (.rpcRequest 100 [7]) rfl
  have run := run.next (.drained 1) trivial
  have run := serve run 2 7 (.handleRpcResponse 1 7 [6]) rfl
  refine ⟨_, _, _, run, rfl, rfl, rfl, rfl, rfl, rfl, ?_⟩
  have counted := @balance 64 _ _ 1 _ run rfl rfl (by decide +kernel) (by decide +kernel)
  exact Nat.add_left_cancel (Nat.add_right_cancel (Nat.add_right_cancel counted)).symm

/-- A session makes two calls under one transaction id while the first is pending. The handler
answers twice, but only one answer is returned, and nothing is pending. -/
theorem overtaken_call_lost :
    ∃ log service session, Runs 64 log service ∧ service.listed? 1 = some session ∧
      session.stopped = false ∧
      (∀ occurrence ∈ log, ∀ call ∈ occurrence.event.call?, call.caller = 1 → call.Fits) ∧
      (∀ occurrence ∈ log, occurrence.event.Sized) ∧
      log.countP (·.asks 1) = 2 ∧ log.countP (·.refuses 1) = 0 ∧
      (log.flatMap (·.queued 1)).countP BacklogEntry.isReturn = 1 ∧ session.pending.size = 0 := by
  have serve {log : List Occurrence} {service : Service} {frame : Frame}
      (before : Runs 64 log service) (sender : SessionId) (message : Message)
      (_ : Frame.ofMessage message 7 = .ok frame) :=
    before.next (.frame .stored sender frame) trivial
  have run : Runs 64 [] (.new 64) := .new
  have run := run.next (.opened 8 .sink) (by decide)
  have run := run.next (.opened 8 .sink) (by decide)
  have run := serve run 1 (.signinRequest protocolVersion 0 ⟨0⟩) rfl
  have run := serve run 2 (.signinRequest protocolVersion 0 ⟨0⟩) rfl
  have run := serve run 2 (.createRequest .rpc [] "/sum") rfl
  have run := serve run 1 (.rpcRequest 100 [5]) rfl
  have run := serve run 1 (.rpcRequest 100 [6]) rfl
  have run := serve run 2 (.handleRpcResponse 1 7 [5]) rfl
  have run := serve run 2 (.handleRpcResponse 1 7 [6]) rfl
  exact ⟨_, _, _, run, rfl, rfl, by decide +kernel, by decide +kernel, rfl, rfl, rfl, rfl⟩

end Runs

end SharedTree
