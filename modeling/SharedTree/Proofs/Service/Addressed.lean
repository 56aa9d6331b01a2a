import SharedTree.Proofs.Service.Rejected
import SharedTree.Proofs.Service.Updates

/-!
# What is addressed to a session

Events address entries to sessions: the change that a request makes of the tree, to every
listed session that has signed in; an accepted write, to every session that watches the
value; a call, to the session that can answer it; and an answer, or nothing in its place, to
the session that called. What is addressed depends on the event and on the service before it,
and not on the backlog of the session.

`Service.Coherent.receives_next` says that an event does nothing else to the backlog of a
session, unless it drains the session, closes it or tells it to stop.
-/

namespace SharedTree

namespace Service

/-- The property that a request to create one makes, if it is accepted. -/
def creation? (service : Service) (owner : SessionId) (kind : PropertyKind) (data : Bytes)
    (path : String) : Option PropertyInfo :=
  if service.creationFits kind path ∧ service.updateFits data then
    (service.tree.create path kind data owner).1.toOption
  else none

/-- The uuid of the property that a request to delete one removes, if it is accepted. -/
def deletion? (service : Service) (path : String) : Option Uuid :=
  (service.tree.delete path).1.toOption

end Service

namespace Occurrence

/-- The change of the tree that a request makes. -/
def change? (occurrence : Occurrence) : Option TreeChange :=
  match occurrence.event with
  | .frame _ sender frame =>
    match occurrence.before.session? sender, frame.message with
    | some session, .ok (.createRequest kind data path) =>
      if session.signedIn then (occurrence.before.creation? sender kind data path).map .created
      else none
    | some session, .ok (.deleteRequest path) =>
      if session.signedIn then (occurrence.before.deletion? path).map .deleted else none
    | _, _ => none
  | _ => none

/-- The request that a call is passed on with, and the session that is to answer it. -/
def request? (occurrence : Occurrence) : Option (SessionId × Frame) :=
  match occurrence.event.call? with
  | some call =>
    if (occurrence.before.session? call.caller).any (·.signedIn) then
      match occurrence.before.callee? call.uuid, Frame.ofMessage
        (.handleRpcRequest call.caller call.transaction call.uuid call.parameter) unsolicited with
      | some (_, handler), .ok request => some (handler, request)
      | _, _ => none
    else none
  | none => none

/-- The change that is announced to a session. -/
def announced (id : SessionId) (occurrence : Occurrence) : List BacklogEntry :=
  if (occurrence.before.listed? id).any (·.signedIn) then
    (occurrence.change?.map .change).toList
  else []

/-- The update of a value that a session watches. -/
def updated (id : SessionId) (occurrence : Occurrence) : List BacklogEntry :=
  match occurrence.write? with
  | some (handle, update) =>
    if (occurrence.before.session? id).isSome ∧
        (occurrence.before.tree.value? handle).any (·.2.contains id) then [.update update] else []
  | none => []

/-- The call that is passed on to a session. -/
def called (id : SessionId) (occurrence : Occurrence) : List BacklogEntry :=
  match occurrence.request? with
  | some (handler, request) => if handler = id then [.frame request] else []
  | none => []

/-- The answers to the pending calls of a listed session: the one that the handler gives, or nothing
for every call to a handler that leaves. -/
def returned (id : SessionId) (occurrence : Occurrence) : List BacklogEntry :=
  match occurrence.before.listed? id with
  | none => []
  | some caller =>
    match occurrence.event with
    | .frame _ sender frame =>
      match occurrence.before.session? sender, frame.message with
      | some session, .ok (.handleRpcResponse asker transaction returnValue) =>
        if session.signedIn ∧ asker = id ∧
            (caller.pending.find? transaction).any (·.handler = some sender) then
          Session.answerEntries transaction returnValue
        else []
      | _, _ => []
    | .unlisted order other | .closed order other =>
      if other ≠ id ∧ (occurrence.before.listed? other).isSome then
        (caller.callsTo (order.calls id) other).flatMap fun call => Session.answerEntries call.1 []
      else []
    | _ => []

/-- The entries that an event addresses to a session. -/
def addressed (id : SessionId) (occurrence : Occurrence) : List BacklogEntry :=
  occurrence.announced id ++ occurrence.updated id ++ occurrence.called id ++
    occurrence.returned id

theorem callee?_of_request? {occurrence : Occurrence} {handler : SessionId} {request : Frame}
    (passed : occurrence.request? = some (handler, request)) :
    ∃ uuid endpoint, occurrence.before.callee? uuid = some (endpoint, handler) := by
  unfold request? at passed
  split at passed
  · split at passed
    · split at passed
      · next callee _ =>
        cases passed
        exact ⟨_, _, callee⟩
      · cases passed
    · cases passed
  · cases passed

end Occurrence

namespace Service

variable {service : Service} {event : ServiceEvent} {order : VisitOrder}
  {id sender : SessionId} {session asker later : Session} {frame : Frame} {message : Message}

open Occurrence (addressed)

theorem listed?_eq_none (absent : service.session? id = none) : service.listed? id = none := by
  rw [listed?, absent]
  rfl

theorem addressed_of_absent (absent : service.session? id = none) :
    addressed id ⟨service, event⟩ = [] := by
  have unlisted := listed?_eq_none absent
  have uncalled : Occurrence.called id ⟨service, event⟩ = [] := by
    unfold Occurrence.called
    split
    · next handler request passed =>
      refine if_neg ?_
      rintro rfl
      rcases Occurrence.callee?_of_request? passed with ⟨uuid, endpoint, callee⟩
      rcases (callee?_eq_some callee).2.2 with ⟨answerer, listed, _⟩
      rw [unlisted] at listed
      cases listed
    · rfl
  have unwatched : Occurrence.updated id ⟨service, event⟩ = [] := by
    unfold Occurrence.updated
    split
    · exact if_neg (by simp [absent])
    · rfl
  simp [addressed, Occurrence.announced, Occurrence.returned, unlisted, uncalled, unwatched]

/-! ## One frame -/

theorem next_frame (found : service.session? sender = some asker)
    (asked : frame.message = .ok message) :
    service.next (.frame order sender frame) =
      (service.handleMessage order asker frame.transaction message).1 := by
  rw [next, handle_of_message found asked]

/-- A frame that does not come from a session, carries no message or comes before signing in
addresses nothing. -/
theorem addressed_of_unheard
    (unheard : ∀ asker message, service.session? sender = some asker →
      frame.message = .ok message → asker.signedIn = false) :
    addressed id ⟨service, .frame order sender frame⟩ = [] := by
  have noChange : Occurrence.change? ⟨service, .frame order sender frame⟩ = none := by
    unfold Occurrence.change?
    dsimp only
    split
    · next found asked => simp [unheard _ _ found asked]
    · next found asked => simp [unheard _ _ found asked]
    · rfl
  have noWrite : Occurrence.write? ⟨service, .frame order sender frame⟩ = none := by
    unfold Occurrence.write?
    dsimp only
    split
    · next found asked => simp [unheard _ _ found asked]
    · rfl
  have noRequest : Occurrence.request? ⟨service, .frame order sender frame⟩ = none := by
    unfold Occurrence.request?
    split
    · next call asks =>
      rcases ServiceEvent.eq_frame_of_call? asks with ⟨_, _, isFrame, asked, _⟩
      cases isFrame
      refine if_neg ?_
      rw [Option.any_eq_true]
      rintro ⟨asker, found, signedIn⟩
      rw [unheard _ _ found asked] at signedIn
      cases signedIn
    · rfl
  have noAnswer : Occurrence.returned id ⟨service, .frame order sender frame⟩ = [] := by
    unfold Occurrence.returned
    split
    · rfl
    · dsimp only
      split
      · next found asked => simp [unheard _ _ found asked]
      · rfl
  simp [addressed, Occurrence.announced, Occurrence.updated, Occurrence.called, noChange, noWrite,
    noRequest, noAnswer]

section Parts

variable (asked : frame.message = .ok message)
include asked

theorem announced_eq_nil (noCreation : ∀ kind data path, message ≠ .createRequest kind data path)
    (noDeletion : ∀ path, message ≠ .deleteRequest path) :
    Occurrence.announced id ⟨service, .frame order sender frame⟩ = [] := by
  have noChange : Occurrence.change? ⟨service, .frame order sender frame⟩ = none := by
    unfold Occurrence.change?
    dsimp only
    split
    · next kind data path _ other =>
      rw [asked] at other
      exact absurd (Except.ok.inj other) (noCreation kind data path)
    · next path _ other =>
      rw [asked] at other
      exact absurd (Except.ok.inj other) (noDeletion path)
    · rfl
  simp [Occurrence.announced, noChange]

theorem updated_eq_nil (noWrite : ∀ update, message ≠ .setValueIndication update) :
    Occurrence.updated id ⟨service, .frame order sender frame⟩ = [] := by
  have unwritten : Occurrence.write? ⟨service, .frame order sender frame⟩ = none := by
    unfold Occurrence.write?
    dsimp only
    split
    · next update _ other =>
      rw [asked] at other
      exact absurd (Except.ok.inj other) (noWrite update)
    · rfl
  simp only [Occurrence.updated, unwritten]

theorem called_eq_nil (noCall : ∀ uuid parameter, message ≠ .rpcRequest uuid parameter) :
    Occurrence.called id ⟨service, .frame order sender frame⟩ = [] := by
  have uncalled : (ServiceEvent.frame order sender frame).call? = none := by
    unfold ServiceEvent.call?
    dsimp only
    split
    · next uuid parameter other =>
      rw [asked] at other
      exact absurd (Except.ok.inj other) (noCall uuid parameter)
    · rfl
  simp only [Occurrence.called, Occurrence.request?, uncalled]

theorem returned_eq_nil (noAnswer : ∀ caller transaction returnValue,
    message ≠ .handleRpcResponse caller transaction returnValue) :
    Occurrence.returned id ⟨service, .frame order sender frame⟩ = [] := by
  unfold Occurrence.returned
  split
  · rfl
  · dsimp only
    split
    · next asker transaction returnValue _ other =>
      rw [asked] at other
      exact absurd (Except.ok.inj other) (noAnswer asker transaction returnValue)
    · rfl

end Parts

theorem listed?_any_signedIn (found : service.session? id = some session) :
    (service.listed? id).any (·.signedIn) = (session.listed && session.signedIn) := by
  rw [listed?, found, Option.filter_some]
  cases session.listed <;> rfl

theorem receives_signIn (found : service.session? id = some session) (other : SessionId)
    (version refreshRate : UInt32) (features : FeatureFlags) :
    ∃ later, (service.signIn other version refreshRate features).1.session? id = some later ∧
      session.Receives [] later := by
  rw [signIn, session?_modifySession, found]
  split
  · exact ⟨_, rfl, rfl, rfl⟩
  · exact ⟨session, rfl, .nothing session⟩

theorem session?_subscribe (sender : Session) (uuid : Uuid) :
    (service.subscribe sender uuid).1.session? = service.session? := by
  rw [subscribe_outcome]
  split <;> rfl

theorem session?_unsubscribe (sender : Session) (uuid : Uuid) :
    (service.unsubscribe sender uuid).1.session? = service.session? := by
  rw [unsubscribe_outcome]
  split <;> rfl

theorem receives_broadcast (found : service.session? id = some session) (tree : Tree)
    (order : VisitOrder) (change : TreeChange) :
    ∃ later, (({ service with tree } : Service).broadcast order change).session? id = some later ∧
      session.Receives (if session.listed && session.signedIn then [.change change] else [])
        later := by
  have isThere : ({ service with tree } : Service).session? id = some session := found
  rw [session?_broadcast, isThere]
  refine ⟨_, rfl, ?_⟩
  dsimp only
  cases listed : session.listed with
  | false => exact .nothing session
  | true =>
      cases signedIn : session.signedIn with
      | false =>
          simp only [announcedTo, signedIn]
          exact .nothing session
      | true =>
          simp only [announcedTo, signedIn]
          exact .push _ session

theorem receives_create (found : service.session? id = some session) (order : VisitOrder)
    (owner : SessionId) (kind : PropertyKind) (data : Bytes) (path : String) :
    ∃ later, (service.create order owner kind data path).1.session? id = some later ∧
      session.Receives (if session.listed && session.signedIn then
        (((service.creation? owner kind data path).map .created).map .change).toList else [])
        later := by
  rw [create_outcome, creation?]
  cases pathFits : service.creationFits kind path with
  | false => exact ⟨session, found, by simpa using .nothing session⟩
  | true =>
      cases dataFits : service.updateFits data with
      | false => exact ⟨session, found, by simpa using .nothing session⟩
      | true =>
          rcases service.tree.create path kind data owner with ⟨error | info, tree⟩
          · exact ⟨session, found, by simpa [Except.toOption] using .nothing session⟩
          · rcases receives_broadcast found tree order (.created info) with
              ⟨later, laterFound, received⟩
            exact ⟨later, laterFound, by simpa [Except.toOption] using received⟩

theorem receives_delete (found : service.session? id = some session) (order : VisitOrder)
    (path : String) :
    ∃ later, (service.delete order path).1.session? id = some later ∧
      session.Receives (if session.listed && session.signedIn then
        (((service.deletion? path).map .deleted).map .change).toList else []) later := by
  rw [delete_outcome, deletion?]
  rcases service.tree.delete path with ⟨error | uuid, tree⟩
  · exact ⟨session, found, by simpa [Except.toOption] using .nothing session⟩
  · rcases receives_broadcast found tree order (.deleted uuid) with ⟨later, laterFound, received⟩
    exact ⟨later, laterFound, by simpa [Except.toOption] using received⟩

/-- An accepted write is addressed to those who watch the value. A write that is not accepted does
nothing. -/
theorem Coherent.receives_setValue (coherent : service.Coherent) {bound : Nat}
    (attended : Attended bound service.tree) (found : service.session? id = some session)
    (askerFound : service.session? sender = some asker) (signedIn : asker.signedIn = true)
    {update : ValueUpdate} (asked : frame.message = .ok (.setValueIndication update)) :
    ∃ later, (service.next (.frame order sender frame)).session? id = some later ∧
      session.Receives (Occurrence.updated id ⟨service, .frame order sender frame⟩) later := by
  cases written : Occurrence.write? ⟨service, .frame order sender frame⟩ with
  | some write =>
      rcases write with ⟨handle, sent⟩
      rcases write?_eq_some written with ⟨_, _, _, _, _, _, _, _, _, isLive⟩
      rcases ((service.tree.liveValue?_eq_some_iff _ _).mp isLive).2 with
        ⟨⟨payload, watchers⟩, isValue⟩
      rw [coherent.session?_of_write? written attended isValue, found]
      simp only [Occurrence.updated, written, found, isValue, Option.isSome_some, true_and,
        Option.any_some, Option.map_some]
      split
      · exact ⟨_, rfl, .push _ session⟩
      · exact ⟨session, rfl, .nothing session⟩
  | none =>
      have kept : service.setValue order update = service := by
        simp only [Occurrence.write?, askerFound, asked, signedIn, true_and] at written
        split at written
        · rw [Option.map_eq_none_iff] at written
          apply setValue_of_noValue
          intro handle inIndex
          rw [Option.eq_none_iff_forall_ne_some]
          intro value isValue
          rw [(service.tree.liveValue?_eq_some_iff _ _).mpr ⟨inIndex, value, isValue⟩] at written
          cases written
        · next tooLarge => simp [setValue, tooLarge]
      rw [next_frame askerFound asked, handleMessage_setValue kept]
      simp only [Occurrence.updated, written]
      exact ⟨session, found, .nothing session⟩

theorem Coherent.receives_call (coherent : service.Coherent)
    (found : service.session? id = some session)
    (askerFound : service.session? sender = some asker) (signedIn : asker.signedIn = true)
    {uuid : Uuid} {parameter : Bytes} (asked : frame.message = .ok (.rpcRequest uuid parameter)) :
    ∃ later,
      (service.call asker.id frame.transaction uuid parameter).1.session? id = some later ∧
      session.Receives (Occurrence.called id ⟨service, .frame order sender frame⟩) later := by
  have asks : (ServiceEvent.frame order sender frame).call? =
      some ⟨sender, frame.transaction, uuid, parameter⟩ := by
    simp only [ServiceEvent.call?, asked]
  simp only [Occurrence.called, Occurrence.request?, asks, askerFound, Option.any_some, signedIn,
    if_true, (coherent.numbered _ _ askerFound).1, call]
  cases service.callee? uuid with
  | none => exact ⟨session, found, .nothing session⟩
  | some answering =>
      rcases answering with ⟨endpoint, handler⟩
      dsimp only
      cases Frame.ofMessage (.handleRpcRequest sender frame.transaction uuid parameter)
        unsolicited with
      | error error => exact ⟨session, found, .nothing session⟩
      | ok request =>
          dsimp only
          refine ⟨_, (session?_passOn sender frame.transaction request).trans
            (by rw [found, Option.map_some]), ?_⟩
          dsimp only
          have recorded : ∃ pending, (if id = sender then (session.addCall frame.transaction
              ⟨endpoint, (service.tree.property? endpoint).bind (·.handler?)⟩).2 else session) =
                { session with pending := pending } := by
            split <;> exact ⟨_, rfl⟩
          rcases recorded with ⟨pending, recorded⟩
          rw [recorded]
          simp only [eq_comm]
          split
          · exact .withPending pending [.frame request] session
          · exact .withPending pending [] session

theorem session?_answerCall_of_ne {handler caller : SessionId} {transaction : TransactionId}
    {returnValue : Bytes} (different : id ≠ caller) :
    (service.answerCall handler caller transaction returnValue).session? id =
      service.session? id := by
  unfold answerCall
  split
  · rfl
  · next answeredTo listed =>
    by_cases awaits : answeredTo.Awaits transaction handler
    · rcases awaits with ⟨call, recorded, mine⟩
      rw [completeCall_eq (session?_of_listed? listed) recorded mine]
      simp only [if_true, session?_modifySession, session?_releaseCalls, if_neg different]
    · have foreign : ∀ call, answeredTo.pending.find? transaction = some call →
          call.handler ≠ some handler := fun call recorded mine => awaits ⟨call, recorded, mine⟩
      rw [completeCall_eq_false (session?_of_listed? listed) foreign]
      rfl

theorem listed?_of_found (found : service.session? id = some session) :
    service.listed? id = if session.listed then some session else none := by
  rw [listed?, found, Option.filter_some]

theorem Coherent.receives_answerCall (coherent : service.Coherent)
    (found : service.session? id = some session)
    (askerFound : service.session? sender = some asker) (signedIn : asker.signedIn = true)
    {caller : SessionId} {transaction : TransactionId} {returnValue : Bytes}
    (asked : frame.message = .ok (.handleRpcResponse caller transaction returnValue)) :
    ∃ later, (service.answerCall asker.id caller transaction returnValue).session? id =
        some later ∧
      session.Receives (Occurrence.returned id ⟨service, .frame order sender frame⟩) later := by
  simp only [Occurrence.returned, askerFound, asked, signedIn, true_and,
    (coherent.numbered _ _ askerFound).1]
  by_cases isCaller : caller = id
  · subst isCaller
    cases listed : service.listed? caller with
    | none =>
        rw [answerCall, listed]
        exact ⟨session, found, .nothing session⟩
    | some answeredTo =>
        have isThere := session?_of_listed? listed
        rw [found] at isThere
        cases isThere
        by_cases awaits : session.Awaits transaction sender
        · rcases awaits with ⟨call, recorded, mine⟩
          simp only [answerCall, listed, completeCall_eq found recorded mine,
            session?_modifySession, session?_releaseCalls, if_pos, found, Option.map_some,
            Session.pushAnswer_eq, recorded, Option.any_some, mine, decide_true, and_self]
          exact ⟨_, rfl, .withPending _ _ session⟩
        · rw [answerCall_of_unmatched fun answeredTo isListed => by
            rw [listed] at isListed
            cases isListed
            exact awaits]
          dsimp only
          rw [if_neg]
          · exact ⟨session, found, .nothing session⟩
          · rintro ⟨_, mine⟩
            rw [Option.any_eq_true] at mine
            rcases mine with ⟨call, recorded, mine⟩
            exact awaits ⟨call, recorded, of_decide_eq_true mine⟩
  · rw [session?_answerCall_of_ne (Ne.symm isCaller)]
    refine ⟨session, found, ?_⟩
    simp only [isCaller, false_and, if_false]
    split <;> exact .nothing session

theorem receives_unsigned (found : service.session? id = some session)
    (unheard : ∀ asker message, service.session? sender = some asker →
      frame.message = .ok message → asker.signedIn = false) :
    ∃ later, (service.next (.frame order sender frame)).session? id = some later ∧
      session.Receives [] later := by
  have untouched : ∃ later, service.session? id = some later ∧ session.Receives [] later :=
    ⟨session, found, .nothing session⟩
  cases askerFound : service.session? sender with
  | none => simpa only [next, handle, askerFound] using untouched
  | some asker =>
      cases asked : frame.message with
      | error error => simpa only [next, handle, askerFound, asked] using untouched
      | ok message =>
          have unsigned := unheard asker message askerFound asked
          rw [next_frame askerFound asked]
          cases message with
          | signinRequest version refreshRate features =>
              exact receives_signIn found asker.id version refreshRate features
          | _ => simpa only [handleMessage, unsigned] using untouched

/-- A frame does nothing to the backlog of a session but push what it addresses to it. -/
theorem Coherent.receives_frame (coherent : service.Coherent) {bound : Nat}
    (attended : Attended bound service.tree) (found : service.session? id = some session) :
    ∃ later, (service.next (.frame order sender frame)).session? id = some later ∧
      session.Receives (addressed id ⟨service, .frame order sender frame⟩) later := by
  by_cases heard : ∃ asker message, service.session? sender = some asker ∧
      frame.message = .ok message ∧ asker.signedIn = true
  · rcases heard with ⟨asker, message, askerFound, asked, signedIn⟩
    have numbered := (coherent.numbered _ _ askerFound).1
    have reaches := listed?_any_signedIn found
    cases message with
    | createRequest kind data path =>
        rw [next_frame askerFound asked, addressed, updated_eq_nil asked (by simp),
          called_eq_nil asked (by simp), returned_eq_nil asked (by simp)]
        simp only [handleMessage, signedIn, numbered, Occurrence.announced, reaches,
          Occurrence.change?, askerFound, asked, if_true, List.append_nil]
        exact receives_create found order sender kind data path
    | deleteRequest path =>
        rw [next_frame askerFound asked, addressed, updated_eq_nil asked (by simp),
          called_eq_nil asked (by simp), returned_eq_nil asked (by simp)]
        simp only [handleMessage, signedIn, Occurrence.announced, reaches, Occurrence.change?,
          askerFound, asked, if_true, List.append_nil]
        exact receives_delete found order path
    | setValueIndication update =>
        rw [addressed, announced_eq_nil asked (by simp) (by simp), called_eq_nil asked (by simp),
          returned_eq_nil asked (by simp), List.nil_append, List.append_nil, List.append_nil]
        exact coherent.receives_setValue attended found askerFound signedIn asked
    | rpcRequest uuid parameter =>
        rw [next_frame askerFound asked, addressed, announced_eq_nil asked (by simp) (by simp),
          updated_eq_nil asked (by simp), returned_eq_nil asked (by simp), List.nil_append,
          List.nil_append, List.append_nil]
        simp only [handleMessage, signedIn]
        exact coherent.receives_call found askerFound signedIn asked
    | handleRpcResponse caller transaction returnValue =>
        rw [next_frame askerFound asked, addressed, announced_eq_nil asked (by simp) (by simp),
          updated_eq_nil asked (by simp), called_eq_nil asked (by simp), List.nil_append,
          List.nil_append, List.nil_append]
        simp only [handleMessage, signedIn]
        exact coherent.receives_answerCall found askerFound signedIn asked
    | signinRequest version refreshRate features =>
        rw [next_frame askerFound asked, addressed, announced_eq_nil asked (by simp) (by simp),
          updated_eq_nil asked (by simp), called_eq_nil asked (by simp),
          returned_eq_nil asked (by simp)]
        exact receives_signIn found asker.id version refreshRate features
    | _ =>
        rw [next_frame askerFound asked, addressed, announced_eq_nil asked (by simp) (by simp),
          updated_eq_nil asked (by simp), called_eq_nil asked (by simp),
          returned_eq_nil asked (by simp)]
        simp only [handleMessage, signedIn, session?_subscribe, session?_unsubscribe]
        exact ⟨session, found, .nothing session⟩
  · have unheard : ∀ asker message, service.session? sender = some asker →
        frame.message = .ok message → asker.signedIn = false := by
      intro asker message askerFound asked
      rw [← Bool.not_eq_true]
      exact fun signedIn => heard ⟨asker, message, askerFound, asked, signedIn⟩
    rw [addressed_of_unheard unheard]
    exact receives_unsigned found unheard

/-! ## One event -/

theorem receives_unlist (found : service.session? id = some session) (order : LeaveOrder)
    (other : SessionId) :
    ∃ later, (service.unlist order other).2.session? id = some later ∧
      session.Receives (Occurrence.returned id ⟨service, .unlisted order other⟩) later := by
  simp only [Occurrence.returned, listed?_of_found found]
  cases listed : service.listed? other with
  | none =>
      rw [unlist_of_unlisted listed]
      refine ⟨session, found, ?_⟩
      cases session.listed <;> simpa using .nothing session
  | some leaving =>
      rw [session?_unlist listed, found]
      by_cases same : id = other
      · rw [if_pos same]
        refine ⟨_, rfl, ?_⟩
        simp only [same, ne_eq, not_true, false_and, if_false]
        split <;> exact ⟨rfl, rfl⟩
      · rw [if_neg same]
        refine ⟨_, rfl, ?_⟩
        simp only [bereft]
        cases session.listed with
        | false => exact .nothing session
        | true =>
            simp only [if_true, ne_eq, Ne.symm same, not_false_eq_true, Option.isSome_some, and_self,
              Session.abandonCalls_snd]
            exact .withPending _ _ session

theorem addressed_eq_returned (noFrame : event.sender? = none) :
    addressed id ⟨service, event⟩ = Occurrence.returned id ⟨service, event⟩ := by
  cases event with
  | frame order sender frame => cases noFrame
  | opened _ _ | stopped _ | unlisted _ _ | closed _ _ | drained _ =>
      simp [addressed, Occurrence.announced, Occurrence.change?, Occurrence.updated,
        Occurrence.write?, Occurrence.called, Occurrence.request?, ServiceEvent.call?]

theorem addressed_stopped (other : SessionId) : addressed id ⟨service, .stopped other⟩ = [] := by
  rw [addressed_eq_returned rfl, Occurrence.returned]
  split <;> rfl

theorem addressed_drained (other : SessionId) : addressed id ⟨service, .drained other⟩ = [] := by
  rw [addressed_eq_returned rfl, Occurrence.returned]
  split <;> rfl

theorem addressed_opened (maxEntries : Nat) (transport : Transport) :
    addressed id ⟨service, .opened maxEntries transport⟩ = [] := by
  rw [addressed_eq_returned rfl, Occurrence.returned]
  split <;> rfl

theorem addressed_closed (order : LeaveOrder) : addressed id ⟨service, .closed order id⟩ = [] := by
  rw [addressed_eq_returned rfl, Occurrence.returned]
  split
  · rfl
  · exact if_neg fun leaving => leaving.1 rfl

/-- An event does nothing to the backlog of a session but push what it addresses to it, unless it
drains the session, closes it or tells it to stop. -/
theorem Coherent.receives_next (coherent : service.Coherent) {bound : Nat}
    (attended : Attended bound service.tree) (found : service.session? id = some session)
    (notDrained : event ≠ .drained id) (notClosed : ¬event.Closes id)
    (notStopped : event ≠ .stopped id) :
    ∃ later, (service.next event).session? id = some later ∧
      session.Receives (addressed id ⟨service, event⟩) later := by
  cases event with
  | opened maxEntries transport =>
      have different : id ≠ service.nextSession := by
        rintro rfl
        exact Nat.lt_irrefl _ (coherent.numbered _ _ found).2
      rw [Service.next, session?_openSession, if_neg different, addressed_opened]
      exact ⟨session, found, .nothing session⟩
  | frame order sender frame => exact coherent.receives_frame attended found
  | stopped other =>
      have different : id ≠ other := by
        rintro rfl
        exact notStopped rfl
      rw [Service.next, stop, session?_modifySession, if_neg different, addressed_stopped]
      exact ⟨session, found, .nothing session⟩
  | unlisted order other =>
      rw [addressed_eq_returned rfl]
      exact receives_unlist found order other
  | closed order other =>
      have different : id ≠ other := by
        rintro rfl
        exact notClosed ⟨order, rfl⟩
      rw [Service.next, session?_close, if_neg different, addressed_eq_returned rfl]
      exact receives_unlist found order other
  | drained other =>
      have different : id ≠ other := by
        rintro rfl
        exact notDrained rfl
      rw [Service.next, session?_drain, if_neg different, addressed_drained]
      exact ⟨session, found, .nothing session⟩

end Service

end SharedTree
