import SharedTree.Proofs.Service.Carried

/-!
# Settling calls

A call is settled when its answer is put into the backlog of the caller. `Session.Settles`
says for one transaction whether a step of the service settles it: then exactly one answer
is pushed and the call is no longer pending; otherwise nothing that answers it is pushed,
and it is pending as before.
-/

namespace SharedTree

namespace BacklogEntry

/-- What an entry returns to a call. -/
def returned? (transaction : TransactionId) : BacklogEntry → Option Bytes
  | .frame whole =>
    match whole.message with
    | .ok (.rpcResponse returnValue) =>
      if whole.transaction = transaction then some returnValue else none
    | _ => none
  | _ => none

/-- What an entry asks of a handler on behalf of a call. -/
def requested? (caller : SessionId) (transaction : TransactionId) :
    BacklogEntry → Option (Uuid × Bytes)
  | .frame whole =>
    match whole.message with
    | .ok (.handleRpcRequest asker asked uuid parameter) =>
      if asker = caller ∧ asked = transaction then some (uuid, parameter) else none
    | _ => none
  | _ => none

variable {transaction other : TransactionId} {caller asker : SessionId} {uuid : Uuid}
  {parameter returnValue : Bytes} {frame : Frame}

theorem returned?_answer (made : Frame.ofMessage (.rpcResponse returnValue) other = .ok frame) :
    (BacklogEntry.frame frame).returned? transaction =
      if other = transaction then some returnValue else none := by
  simp only [returned?, Frame.message_ofMessage made, Frame.transaction_ofMessage made]

theorem returned?_request {carried : TransactionId}
    (made : Frame.ofMessage (.handleRpcRequest asker other uuid parameter) carried = .ok frame) :
    (BacklogEntry.frame frame).returned? transaction = none := by
  simp only [returned?, Frame.message_ofMessage made]

theorem requested?_answer (made : Frame.ofMessage (.rpcResponse returnValue) other = .ok frame) :
    (BacklogEntry.frame frame).requested? caller transaction = none := by
  simp only [requested?, Frame.message_ofMessage made]

theorem requested?_request {carried : TransactionId}
    (made : Frame.ofMessage (.handleRpcRequest asker other uuid parameter) carried = .ok frame) :
    (BacklogEntry.frame frame).requested? caller transaction =
      if asker = caller ∧ other = transaction then some (uuid, parameter) else none := by
  simp only [requested?, Frame.message_ofMessage made]

end BacklogEntry

namespace Session

variable {transaction other : TransactionId} {returnValue : Bytes} {before middle after : Session}
  {entries : List BacklogEntry}

theorem returned?_answerEntries_of_ne (different : other ≠ transaction) :
    ∀ entry ∈ answerEntries other returnValue, entry.returned? transaction = none := by
  intro entry isAnswer
  rcases frame_of_mem_answerEntries isAnswer with ⟨frame, made, rfl⟩
  rw [BacklogEntry.returned?_answer made, if_neg different]

theorem filterMap_returned?_answerEntries
    (fits : (Message.rpcResponse returnValue).size + Header.length < UInt32.size) :
    (answerEntries transaction returnValue).filterMap (·.returned? transaction) =
      [returnValue] := by
  rcases Frame.exists_ofMessage fits transaction with ⟨frame, made⟩
  have returned : (BacklogEntry.frame frame).returned? transaction = some returnValue := by
    rw [BacklogEntry.returned?_answer made, if_pos rfl]
  rw [answerEntries, made]
  exact List.filterMap_cons_some returned

/-- Whether a step settles the call of a transaction, and with what. -/
def Settles (transaction : TransactionId) (outcome : Option Bytes) (before after : Session) :
    Prop :=
  ∃ entries, before.Pushed after entries ∧
    entries.filterMap (·.returned? transaction) = outcome.toList ∧
    after.pending.find? transaction =
      if outcome = none then before.pending.find? transaction else none

namespace Settles

theorem of_pushed (pushed : before.Pushed after entries)
    (silent : ∀ entry ∈ entries, entry.returned? transaction = none)
    (pending : after.pending.find? transaction = before.pending.find? transaction) :
    before.Settles transaction none after :=
  ⟨entries, pushed, List.filterMap_eq_nil_iff.mpr silent, pending⟩

theorem refl (session : Session) : session.Settles transaction none session :=
  of_pushed (.refl session) (by simp) rfl

theorem trans (first : before.Settles transaction none middle)
    (second : middle.Settles transaction none after) : before.Settles transaction none after := by
  rcases first with ⟨entries, firstPushed, silent, firstPending⟩
  rcases second with ⟨more, secondPushed, moreSilent, secondPending⟩
  refine ⟨entries ++ more, firstPushed.trans secondPushed, ?_, secondPending.trans firstPending⟩
  rw [List.filterMap_append, silent, moreSilent]
  rfl

theorem push {entry : BacklogEntry} (silent : entry.returned? transaction = none)
    (session : Session) : session.Settles transaction none (session.push entry) :=
  of_pushed (.push entry session) (by simpa using silent) (by rw [pending_push])

theorem pushAll (silent : ∀ entry ∈ entries, entry.returned? transaction = none)
    (session : Session) : session.Settles transaction none (session.pushAll entries) :=
  of_pushed (.pushAll entries session) silent (by rw [pending_pushAll])

/-- Changing the pending calls of other transactions settles nothing. -/
theorem withPending {pending : Table TransactionId PendingCall} {session : Session}
    (same : pending.find? transaction = session.pending.find? transaction) :
    session.Settles transaction none { session with pending } :=
  of_pushed (.withPending pending session) (by simp) same

/-- Removing other calls and pushing their answers settles nothing. -/
theorem unanswered {pending : Table TransactionId PendingCall} {session : Session}
    (same : pending.find? transaction = session.pending.find? transaction)
    (silent : ∀ entry ∈ entries, entry.returned? transaction = none) :
    session.Settles transaction none (({ session with pending } : Session).pushAll entries) :=
  (Settles.withPending same).trans (.pushAll silent _)

/-- A call is settled when it is removed and its answer is pushed. -/
theorem answered {pending : Table TransactionId PendingCall} {session : Session}
    (removed : pending.find? transaction = none)
    (returns : entries.filterMap (·.returned? transaction) = [returnValue]) :
    session.Settles transaction (some returnValue)
      (({ session with pending } : Session).pushAll entries) :=
  ⟨entries, (Pushed.withPending pending session).trans (.pushAll entries _), returns,
    by rw [pending_pushAll, removed, if_neg (by simp)]⟩

end Settles

/-! ## Abandoned calls -/

theorem filterMap_returned?_callsTo (session : Session) (order : VisitOrder)
    (handler : SessionId) (transaction : TransactionId) :
    ((session.callsTo order handler).flatMap fun call => answerEntries call.1 []).filterMap
      (·.returned? transaction) =
        (((session.pending.find? transaction).filter fun call => call.handler = some handler).map
          fun _ => []).toList := by
  have answered (calls : List (TransactionId × PendingCall)) :
      (calls.flatMap fun call => answerEntries call.1 []).filterMap (·.returned? transaction) =
        (calls.filter fun call => call.1 = transaction).map fun _ => [] := by
    induction calls with
    | nil => rfl
    | cons call calls ih =>
        rw [List.flatMap_cons, List.filterMap_append, ih]
        by_cases same : call.1 = transaction
        · rw [same, filterMap_returned?_answerEntries (by decide)]
          simp [same]
        · rw [List.filterMap_eq_nil_iff.mpr (returned?_answerEntries_of_ne same)]
          simp [same]
  rw [answered, callsTo, List.filter_comm, Table.filter_arrange_entries]
  cases session.pending.find? transaction with
  | none => rfl
  | some call => by_cases mine : call.handler = some handler <;> simp [mine, Option.filter]

/-- Whether a handler is to answer the call of a transaction. -/
def Awaits (session : Session) (transaction : TransactionId) (handler : SessionId) : Prop :=
  ∃ call, session.pending.find? transaction = some call ∧ call.handler = some handler

theorem settles_abandonCalls_of_awaits {session : Session} {handler : SessionId}
    (awaits : session.Awaits transaction handler) (order : VisitOrder) :
    session.Settles transaction (some []) (session.abandonCalls order handler).2 := by
  rcases awaits with ⟨call, pending, mine⟩
  rw [abandonCalls_snd]
  apply Settles.answered
  · rw [Table.find?_filter, pending]
    simp [mine]
  · rw [filterMap_returned?_callsTo, pending]
    simp [mine]

theorem settles_abandonCalls {session : Session} {handler : SessionId}
    (foreign : ¬session.Awaits transaction handler) (order : VisitOrder) :
    session.Settles transaction none (session.abandonCalls order handler).2 := by
  have others : ∀ call, session.pending.find? transaction = some call →
      call.handler ≠ some handler := fun call pending mine => foreign ⟨call, pending, mine⟩
  rw [abandonCalls_snd]
  refine .unanswered ?_ ?_
  · rw [Table.find?_filter]
    cases pending : session.pending.find? transaction with
    | none => rfl
    | some call => simp [others call pending]
  · rw [← List.filterMap_eq_nil_iff, filterMap_returned?_callsTo]
    cases pending : session.pending.find? transaction with
    | none => rfl
    | some call => simp [others call pending]

end Session

namespace Service

variable {service after : Service} {order : VisitOrder} {sender caller : SessionId} {frame : Frame}
  {transaction : TransactionId} {session : Session}

/-- A frame settles no call that it does not answer. -/
theorem Handled.settles (handled : Handled service order sender frame after)
    (found : service.session? caller = some session)
    (unused : ∀ asker uuid parameter, service.session? sender = some asker →
      frame.message = .ok (.rpcRequest uuid parameter) →
        ¬(asker.id = caller ∧ frame.transaction = transaction))
    (unanswered : ∀ answerer returnValue, service.session? sender = some answerer →
      frame.message = .ok (.handleRpcResponse caller transaction returnValue) →
        ¬session.Awaits transaction answerer.id) :
    ∃ later, after.session? caller = some later ∧ session.Settles transaction none later := by
  have transitive : ∀ before middle after : Session, before.Settles transaction none middle →
      middle.Settles transaction none after → before.Settles transaction none after :=
    fun _ _ _ => Session.Settles.trans
  have announced (tree : Tree) (change : TreeChange) :
      ∃ later, (({ service with tree } : Service).broadcast order change).session? caller =
        some later ∧ session.Settles transaction none later :=
    (carried_broadcast Session.Settles.refl (Session.Settles.push rfl) service tree order
      caller).present session found
  cases handled with
  | nothing => exact ⟨session, found, .refl session⟩
  | signedIn asker asked =>
      exact (Carried.modify Session.Settles.refl service _ (fun session =>
        .of_pushed (.signIn _ _ session) (by simp) rfl) caller).present session found
  | created asker allowed success => exact announced _ _
  | deleted success => exact announced _ _
  | written success =>
      refine (carried_setValue (fun entries are session => .pushAll ?_ session) success
        caller).present session found
      intro entry isUpdate
      rcases are entry isUpdate with ⟨uuid, rfl⟩
      rfl
  | watched watches asker => exact ⟨session, found, .refl session⟩
  | called asker allowed asked callee made =>
      refine (Carried.trans transitive ?_ (Carried.modify Session.Settles.refl _ _ (fun session =>
        .push (BacklogEntry.returned?_request made) session) caller)).present session found
      rw [session?_addCall]
      split
      · next same =>
        have other := unused _ _ _ asker asked
        refine .map (fun session => .withPending ?_) _
        rw [Table.find?_insert, if_neg]
        rintro rfl
        exact other ⟨same.symm, rfl⟩
      · exact .refl Session.Settles.refl _
  | @answered answerer answeredTo target replied returnValue call answererFound asked listed
      recorded mine =>
      by_cases same : target = caller
      · subst same
        have isThere := session?_of_listed? listed
        rw [found] at isThere
        cases isThere
        have other : replied ≠ transaction := by
          rintro rfl
          exact unanswered _ _ answererFound asked ⟨call, recorded, mine⟩
        rw [session?_modifySession, if_pos rfl, session?_releaseCalls, session?_modifySession,
          if_pos rfl, found]
        simp only [Option.map_some, Session.pushAnswer_eq]
        refine ⟨_, rfl, .unanswered ?_ (Session.returned?_answerEntries_of_ne other)⟩
        rw [Table.find?_erase, if_neg other.symm]
      · rw [session?_modifySession, if_neg (Ne.symm same), session?_releaseCalls,
          session?_modifySession, if_neg (Ne.symm same)]
        exact ⟨session, found, .refl session⟩

/-- The answer of the handler settles a call. -/
theorem settles_answerCall {handler : SessionId} {returnValue : Bytes}
    (listed : service.listed? caller = some session)
    (awaits : session.Awaits transaction handler)
    (fits : (Message.rpcResponse returnValue).size + Header.length < UInt32.size) :
    ∃ later, (service.answerCall handler caller transaction returnValue).session? caller =
      some later ∧ session.Settles transaction (some returnValue) later := by
  have found := session?_of_listed? listed
  rcases awaits with ⟨call, recorded, mine⟩
  simp only [answerCall, listed, completeCall_eq found recorded mine, session?_modifySession,
    session?_releaseCalls, if_pos, found, Option.map_some, Session.pushAnswer_eq]
  refine ⟨_, rfl, .answered ?_ (Session.filterMap_returned?_answerEntries fits)⟩
  rw [Table.find?_erase, if_pos rfl]

theorem settles_unlist (order : LeaveOrder) {id : SessionId}
    (found : service.session? caller = some session) (foreign : ¬session.Awaits transaction id) :
    ∃ later, (service.unlist order id).2.session? caller = some later ∧
      session.Settles transaction none later := by
  cases listed : service.listed? id with
  | none =>
      rw [unlist_of_unlisted listed]
      exact ⟨session, found, .refl session⟩
  | some answerer =>
      rw [session?_unlist listed, found]
      split
      · exact ⟨_, rfl, .of_pushed (.unlist session) (by simp) rfl⟩
      · refine ⟨_, rfl, ?_⟩
        unfold bereft
        split
        · exact Session.settles_abandonCalls foreign _
        · exact .refl session

/-- When the handler leaves the list, an empty answer settles a call. -/
theorem settles_unlist_of_awaits {order : LeaveOrder} {id : SessionId} {answerer : Session}
    (listed : service.listed? caller = some session)
    (handlerListed : service.listed? id = some answerer) (different : caller ≠ id)
    (awaits : session.Awaits transaction id) :
    ∃ later, (service.unlist order id).2.session? caller = some later ∧
      session.Settles transaction (some []) later := by
  rcases (service.listed?_eq_some_iff _ _).mp listed with ⟨found, isListed⟩
  rw [session?_unlist handlerListed, found, if_neg different]
  refine ⟨_, rfl, ?_⟩
  rw [bereft, if_pos isListed]
  exact Session.settles_abandonCalls_of_awaits awaits _

end Service

end SharedTree
