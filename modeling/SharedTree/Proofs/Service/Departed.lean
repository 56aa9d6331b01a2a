import SharedTree.Proofs.Service.Calls
import SharedTree.Proofs.Service.Run

/-!
# Calls on sessions that leave

A call is pending only while the session that is to answer it, the creator of the endpoint, is
listed. It is recorded when that session is found on the list, and when the session leaves the
list every listed caller is answered with nothing. It makes no difference what has become of the
endpoint by then.

The main result, `Runs.nobody_waits`, says so of every run, and says what leaving the list does to
the calls that are pending.
-/

namespace SharedTree

/-! ## Calls that are recorded -/

namespace Session

/-- Every call that is pending was pending before, or may be recorded. -/
def Recorded (allowed : PendingCall → Prop) (before after : Session) : Prop :=
  ∀ transaction call, after.pending.find? transaction = some call →
    before.pending.find? transaction = some call ∨ allowed call

namespace Recorded

variable {allowed : PendingCall → Prop} {before middle after : Session}

theorem of_same (same : after.pending = before.pending) : before.Recorded allowed after := by
  intro transaction call pending
  rw [same] at pending
  exact Or.inl pending

theorem refl (session : Session) : session.Recorded allowed session :=
  of_same rfl

theorem trans (first : before.Recorded allowed middle) (second : middle.Recorded allowed after) :
    before.Recorded allowed after := by
  intro transaction call pending
  rcases second transaction call pending with earlier | recorded
  · exact first transaction call earlier
  · exact Or.inr recorded

theorem signIn (refreshRate : UInt32) (features : FeatureFlags) (session : Session) :
    session.Recorded allowed (session.signIn refreshRate features) :=
  of_same rfl

theorem stop (session : Session) : session.Recorded allowed session.stop :=
  of_same rfl

theorem push (entry : BacklogEntry) (session : Session) :
    session.Recorded allowed (session.push entry) :=
  of_same (session.pending_push entry)

theorem pushAll (entries : List BacklogEntry) (session : Session) :
    session.Recorded allowed (session.pushAll entries) :=
  of_same (session.pending_pushAll entries)

theorem addCall {call : PendingCall} (allows : allowed call) (transaction : TransactionId)
    (session : Session) : session.Recorded allowed (session.addCall transaction call).2 := by
  intro other otherCall pending
  simp only [Session.addCall, Table.find?_insert] at pending
  split at pending
  · cases pending
    exact Or.inr allows
  · exact Or.inl pending

theorem erase (transaction : TransactionId) (session : Session) :
    session.Recorded allowed
      { session with pending := session.pending.erase transaction } := by
  intro other call pending
  rw [Table.find?_erase] at pending
  split at pending
  · cases pending
  · exact Or.inl pending

theorem abandonCalls (order : VisitOrder) (handler : SessionId) (session : Session) :
    session.Recorded allowed (session.abandonCalls order handler).2 := by
  rw [abandonCalls_snd]
  refine trans ?_ (pushAll _ _)
  intro transaction call pending
  rw [Table.find?_filter] at pending
  exact Or.inl (Option.filter_eq_some_iff.mp pending).1

end Recorded

end Session

namespace Service

variable {service after : Service} {event : ServiceEvent} {order : VisitOrder}
  {sender id : SessionId} {frame : Frame} {session later : Session}

/-- What an event records as pending. -/
inductive Records (service : Service) : ServiceEvent → PendingCall → Prop where
  | called {order : VisitOrder} {sender : SessionId} {frame : Frame} {uuid : Uuid}
      {endpoint : Handle} {handler : SessionId}
      (callee : service.callee? uuid = some (endpoint, handler)) :
      Records service (.frame order sender frame) ⟨endpoint, some handler⟩

theorem Handled.recorded (handled : Handled service order sender frame after) (id : SessionId) :
    Carried (Session.Recorded (service.Records (.frame order sender frame)))
      (service.session? id) (after.session? id) := by
  have transitive : ∀ before middle after : Session,
      before.Recorded (service.Records (.frame order sender frame)) middle →
      middle.Recorded (service.Records (.frame order sender frame)) after →
      before.Recorded (service.Records (.frame order sender frame)) after :=
    fun _ _ _ => Session.Recorded.trans
  cases handled with
  | nothing => exact .refl Session.Recorded.refl _
  | signedIn found asked =>
      exact .modify Session.Recorded.refl service _ (Session.Recorded.signIn _ _) id
  | created found allowed success asked pathFits dataFits =>
      exact carried_broadcast Session.Recorded.refl (fun session => .push _ session) service _ order
        id
  | deleted success =>
      exact carried_broadcast Session.Recorded.refl (fun session => .push _ session) service _ order
        id
  | written success found allowed asked fits =>
      exact carried_setValue (fun entries _ session => .pushAll entries session) success id
  | watched watches found allowed => exact .refl Session.Recorded.refl _
  | @called asker uuid parameter endpoint handler request found allowed asked callee made =>
      refine .trans transitive ?_
        (.modify Session.Recorded.refl _ _ (fun session => .push _ session) id)
      rcases (callee?_eq_some callee).2.1 with ⟨property, isThere, answers⟩
      rw [session?_addCall, isThere, Option.bind_some, answers]
      split
      · exact .map (fun session => .addCall (.called callee) _ session) _
      · exact .refl Session.Recorded.refl _
  | answered found asked listed recorded mine =>
      refine .trans transitive ?_
        (.modify Session.Recorded.refl _ _ (fun session => ?_) id)
      · rw [session?_releaseCalls, session?_modifySession]
        split
        · next same =>
          refine ⟨fun absent => by rw [absent, Option.map_none], ?_⟩
          intro session present
          rw [same, session?_of_listed? listed] at present
          cases present
          exact ⟨_, by rw [same, session?_of_listed? listed]; rfl, .erase _ _⟩
        · exact .refl Session.Recorded.refl _
      · rw [Session.pushAnswer_eq]
        exact .pushAll _ session

theorem recorded_unlist (service : Service) (order : LeaveOrder) (handler id : SessionId)
    (allowed : PendingCall → Prop) :
    Carried (Session.Recorded allowed) (service.session? id)
      ((service.unlist order handler).2.session? id) := by
  cases listed : service.listed? handler with
  | none =>
      rw [unlist_of_unlisted listed]
      exact .refl Session.Recorded.refl _
  | some answerer =>
      rw [session?_unlist listed]
      split
      · exact .map (fun session => .of_same rfl) _
      · refine .map (fun session => ?_) _
        unfold bereft
        split
        · exact .abandonCalls _ handler session
        · exact .refl session

/-- A call that a session has pending after an event was pending before, or the event records it. -/
theorem Coherent.recorded_next (coherent : service.Coherent)
    (found : service.session? id = some session)
    (laterFound : (service.next event).session? id = some later) :
    session.Recorded (service.Records event) later := by
  suffices carried : Carried (Session.Recorded (service.Records event)) (service.session? id)
      ((service.next event).session? id) by
    rcases carried.present session found with ⟨same, sameFound, recorded⟩
    rw [laterFound] at sameFound
    cases sameFound
    exact recorded
  cases event with
  | opened maxEntries transport =>
      have old : id ≠ service.nextSession := by
        rintro rfl
        exact Nat.lt_irrefl _ (coherent.numbered _ _ found).2
      rw [Service.next, session?_openSession, if_neg old]
      exact .refl Session.Recorded.refl _
  | frame order sender frame => exact (handled_handle service order sender frame).recorded id
  | stopped other =>
      exact .modify Session.Recorded.refl service other Session.Recorded.stop id
  | unlisted order other => exact recorded_unlist service order other id _
  | closed order other =>
      rw [Service.next, session?_close] at laterFound ⊢
      split
      · next same =>
        rw [if_pos same] at laterFound
        cases laterFound
      · exact recorded_unlist service order other id _
  | drained other =>
      rw [Service.next, session?_drain]
      split
      · exact .map (fun session => .of_same rfl) _
      · exact .refl Session.Recorded.refl _

end Service

/-! ## Leaving the list -/

/-- A session leaves the list, or is closed. -/
def ServiceEvent.Takes (id : SessionId) (event : ServiceEvent) : Prop :=
  event.Unlists id ∨ event.Closes id

namespace Session

variable {session later : Session} {entries : List BacklogEntry}

/-- A session goes on while entries are pushed, or it ends with a full backlog. -/
theorem full_of_stopped (going : session.stopped = false)
    (stopped : (session.pushAll entries).stopped = true) :
    (session.pushAll entries).backlog.maxEntries ≤ (session.pushAll entries).backlog.size := by
  induction entries generalizing session with
  | nil =>
      rw [show session.pushAll [] = session from rfl, going] at stopped
      cases stopped
  | cons entry entries ih =>
      have whole : session.pushAll (entry :: entries) = (session.push entry).pushAll entries := rfl
      rw [whole] at stopped ⊢
      rcases session.push_cases entry with ⟨wasStopped, _⟩ | ⟨_, full, same⟩ | ⟨_, _, same⟩
      · rw [going] at wasStopped
        cases wasStopped
      · rw [same, session.stop.pushAll_of_stopped rfl entries]
        exact full
      · apply ih
        · rw [same]
          exact going
        · exact stopped

theorem not_awaits_abandonCalls (session : Session) (order : VisitOrder) (handler : SessionId)
    (transaction : TransactionId) :
    ¬(session.abandonCalls order handler).2.Awaits transaction handler := by
  rintro ⟨call, pending, mine⟩
  rw [abandonCalls_snd, pending_pushAll, Table.find?_filter] at pending
  have others := (Option.filter_eq_some_iff.mp pending).2
  simp [mine] at others

end Session

namespace Service

variable {service : Service} {event : ServiceEvent} {id handler : SessionId}
  {session later answerer : Session} {transaction : TransactionId}

theorem session?_of_takes (service : Service) (takes : event.Takes handler)
    (different : id ≠ handler) :
    ∃ order, (service.next event).session? id = (service.unlist order handler).2.session? id := by
  rcases takes with ⟨order, rfl⟩ | ⟨order, rfl⟩
  · exact ⟨order, rfl⟩
  · exact ⟨order, by rw [next, session?_close, if_neg different]⟩

theorem not_listed_of_takes (takes : event.Takes handler) :
    (service.next event).listed? handler = none := by
  have unlisted (order : LeaveOrder) :
      (service.unlist order handler).2.listed? handler = none := by
    cases listed : service.listed? handler with
    | none => rwa [unlist_of_unlisted listed]
    | some answerer =>
        rw [listed?, session?_unlist listed, if_pos rfl]
        cases service.session? handler <;> rfl
  rcases takes with ⟨order, rfl⟩ | ⟨order, rfl⟩
  · exact unlisted order
  · rw [next, listed?, session?_close, if_pos rfl]
    rfl

/-- Nobody who is listed waits for a session that has left the list. -/
theorem not_awaits_of_takes (takes : event.Takes handler)
    (handlerListed : service.listed? handler = some answerer)
    (listed : (service.next event).listed? id = some later) :
    ¬later.Awaits transaction handler := by
  have different : id ≠ handler := by
    rintro rfl
    rw [not_listed_of_takes takes] at listed
    cases listed
  rcases (listed?_eq_some_iff _ _ _).mp listed with ⟨laterFound, isListed⟩
  rcases service.session?_of_takes takes different with ⟨order, same⟩
  rw [same, session?_unlist handlerListed, if_neg different] at laterFound
  rcases Option.map_eq_some_iff.mp laterFound with ⟨session, _, rfl⟩
  unfold bereft at isListed ⊢
  split
  · exact session.not_awaits_abandonCalls _ handler transaction
  · next unlisted =>
    rw [if_neg unlisted] at isListed
    exact absurd isListed unlisted

variable {event : ServiceEvent}

/-- A caller that waits for a session that leaves the list is answered once, with nothing, unless
its backlog fills up. -/
theorem answered_of_takes (takes : event.Takes handler)
    (handlerListed : service.listed? handler = some answerer)
    (listed : service.listed? id = some session) (different : id ≠ handler)
    (going : session.stopped = false) (awaits : session.Awaits transaction handler) :
    ∃ later, (service.next event).listed? id = some later ∧
      (later.stopped = true ∧ later.backlog.maxEntries ≤ later.backlog.size ∨
        (Occurrence.queued id ⟨service, event⟩).filterMap (·.returned? transaction) = [[]]) := by
  rcases (listed?_eq_some_iff _ _ _).mp listed with ⟨found, isListed⟩
  rcases service.session?_of_takes takes different with ⟨order, same⟩
  have laterFound : (service.next event).session? id =
      some (session.abandonCalls (order.calls id) handler).2 := by
    rw [same, session?_unlist handlerListed, if_neg different, found]
    simp [bereft, isListed]
  have laterListed : (service.next event).listed? id =
      some (session.abandonCalls (order.calls id) handler).2 := by
    refine (listed?_eq_some_iff _ _ _).mpr ⟨laterFound, ?_⟩
    exact (kept_sameListing.abandonCalls (fun _ _ _ => trivial) _ handler session).trans isListed
  refine ⟨_, laterListed, ?_⟩
  cases stopped : (session.abandonCalls (order.calls id) handler).2.stopped with
  | true =>
      rw [Session.abandonCalls_snd] at stopped ⊢
      exact Or.inl ⟨rfl, Session.full_of_stopped going stopped⟩
  | false =>
      rcases Session.settles_abandonCalls_of_awaits awaits (order.calls id) with ⟨entries, pushed, returned, _⟩
      rw [(queued_of_pushed found laterFound pushed).2 stopped]
      exact Or.inr returned

/-- A call on somebody else stays as it is when a session leaves the list. -/
theorem Coherent.untouched_of_takes (coherent : service.Coherent) (takes : event.Takes handler)
    (listed : service.listed? id = some session) (different : id ≠ handler)
    (foreign : ¬session.Awaits transaction handler) :
    ∃ later, (service.next event).listed? id = some later ∧
      later.pending.find? transaction = session.pending.find? transaction ∧
      (Occurrence.queued id ⟨service, event⟩).filterMap (·.returned? transaction) = [] := by
  have found := session?_of_listed? listed
  have stays : ¬event.Unlists id ∧ ¬event.Closes id := by
    rcases takes with ⟨order, rfl⟩ | ⟨order, rfl⟩ <;>
      simp [ServiceEvent.Unlists, ServiceEvent.Closes, different.symm]
  rcases coherent.listed_next listed stays.1 stays.2 with ⟨later, laterListed⟩
  have laterFound := session?_of_listed? laterListed
  rcases service.session?_of_takes takes different with ⟨order, isUnlisted⟩
  rcases settles_unlist order found foreign with
    ⟨same, sameFound, entries, pushed, silent, pending⟩
  rw [← isUnlisted, laterFound] at sameFound
  cases sameFound
  refine ⟨later, laterListed, pending, ?_⟩
  have nothing := List.filterMap_eq_nil_iff.mp silent
  apply List.filterMap_eq_nil_iff.mpr
  intro entry mem
  exact nothing entry ((queued_of_pushed found laterFound pushed).1.subset mem)

end Service

/-! ## Runs -/

/-- The session created the property with a handle. -/
def MadeBy (log : List Occurrence) (handle : Handle) (id : SessionId) : Prop :=
  ∃ creation ∈ log, creation.Creates handle ∧ creation.event.sender? = some id

theorem MadeBy.concat {log : List Occurrence} {handle : Handle} {id : SessionId}
    (made : MadeBy log handle id) (occurrence : Occurrence) :
    MadeBy (log ++ [occurrence]) handle id := by
  rcases made with ⟨creation, mem, creates, sender⟩
  exact ⟨creation, List.mem_append_left _ mem, creates, sender⟩

/-- What a session does to the pending calls of its endpoints when it leaves the list. -/
structure Occurrence.Abandons (log : List Occurrence) (handler : SessionId)
    (occurrence : Occurrence) : Prop where
  /-- Nobody who is listed waits for it any more. -/
  nobody : ∀ caller session transaction call,
    occurrence.after.listed? caller = some session →
      session.pending.find? transaction = some call → ¬MadeBy log call.endpoint handler
  /-- Whoever waited for it is answered once, with nothing, unless the backlog fills up. -/
  answered : ∀ caller session transaction call,
    occurrence.before.listed? caller = some session → caller ≠ handler →
      session.stopped = false → session.pending.find? transaction = some call →
      MadeBy log call.endpoint handler → ∃ later, occurrence.after.listed? caller = some later ∧
        (later.stopped = true ∧ later.backlog.maxEntries ≤ later.backlog.size ∨
          (occurrence.queued caller).filterMap (·.returned? transaction) = [[]])
  /-- Calls on others stay as they are. -/
  untouched : ∀ caller session transaction call,
    occurrence.before.listed? caller = some session → caller ≠ handler →
      session.pending.find? transaction = some call → ¬MadeBy log call.endpoint handler →
      ∃ later, occurrence.after.listed? caller = some later ∧
        later.pending.find? transaction = some call ∧
        (occurrence.queued caller).filterMap (·.returned? transaction) = []

namespace Runs

variable {maxBody : Nat} {log : List Occurrence} {service : Service} {handle : Handle}
  {id other handler : SessionId} {event : ServiceEvent}

/-- A property is created once. -/
theorem creates_unique (run : Runs maxBody log service) :
    ∀ creation ∈ log, ∀ other ∈ log, creation.Creates handle → other.Creates handle →
      creation = other := by
  have apart : log.Pairwise fun earlier later =>
      earlier.Creates handle → ¬later.Creates handle := by
    refine run.ordered.imp_of_mem ?_
    intro earlier later earlierMem laterMem ordered earlierCreates laterCreates
    have first := (run.creates_eq earlierMem earlierCreates).2
    have second := (run.creates_eq laterMem laterCreates).1
    rw [second] at first
    exact Nat.lt_irrefl _ (Nat.lt_of_lt_of_le first ordered)
  apply List.Pairwise.forall_of_forall_of_flip
  · intro creation _ _ _
    rfl
  · exact apart.imp fun apart creates otherCreates => absurd otherCreates (apart creates)
  · exact apart.imp fun apart otherCreates creates => absurd otherCreates (apart creates)

theorem madeBy_unique (run : Runs maxBody log service) (first : MadeBy log handle id)
    (second : MadeBy log handle other) : id = other := by
  rcases first with ⟨creation, mem, creates, sender⟩
  rcases second with ⟨otherCreation, otherMem, otherCreates, otherSender⟩
  obtain rfl := run.creates_unique creation mem otherCreation otherMem creates otherCreates
  rw [sender] at otherSender
  exact Option.some.inj otherSender

/-- Whoever is to answer a call that a listed session has pending created the endpoint, and is
listed. -/
theorem creator_listed (run : Runs maxBody log service) {caller : SessionId} {session : Session}
    {transaction : TransactionId} {call : PendingCall}
    (listed : service.listed? caller = some session)
    (pending : session.pending.find? transaction = some call) :
    ∃ handler, call.handler = some handler ∧ MadeBy log call.endpoint handler ∧
      ∃ answerer, service.listed? handler = some answerer := by
  induction run generalizing session with
  | new => cases Service.session?_of_listed? listed
  | @next log service before event allowed ih =>
      have coherent := before.coherent
      rcases (Service.listed?_eq_some_iff _ _ _).mp listed with ⟨laterFound, isListed⟩
      cases found : service.session? caller with
      | none =>
          rcases Service.opened_of_absent found laterFound with ⟨_, _, _, _, rfl⟩
          cases pending
      | some earlier =>
          rcases coherent.recorded_next found laterFound transaction call pending with
            wasPending | recorded
          · have wasListed : service.listed? caller = some earlier := by
              refine (Service.listed?_eq_some_iff _ _ _).mpr ⟨found, ?_⟩
              rcases coherent.drained_or_served found laterFound with rfl | ⟨entries, pushed, _⟩
              · exact isListed
              · exact pushed.listed isListed
            rcases ih wasListed wasPending with ⟨handler, mine, made, answerer, handlerListed⟩
            refine ⟨handler, mine, made.concat _, ?_⟩
            have stays : ¬event.Takes handler := fun takes =>
              Service.not_awaits_of_takes takes handlerListed listed ⟨call, pending, mine⟩
            exact coherent.listed_next handlerListed (fun same => stays (Or.inl same))
              (fun same => stays (Or.inr same))
          · cases recorded with
            | @called order sender frame uuid endpoint handler callee =>
                rcases Service.callee?_eq_some callee with
                  ⟨_, ⟨property, isThere, answers⟩, answerer, handlerListed, _⟩
                refine ⟨handler, rfl, MadeBy.concat (before.owned isThere answers).1 _, ?_⟩
                exact coherent.listed_next handlerListed (by simp [ServiceEvent.Unlists])
                  (by simp [ServiceEvent.Closes])

/-- The session that is to answer a pending call is the one that created the endpoint. -/
theorem handler_eq_iff (run : Runs maxBody log service) {caller : SessionId} {session : Session}
    {transaction : TransactionId} {call : PendingCall}
    (listed : service.listed? caller = some session)
    (pending : session.pending.find? transaction = some call) :
    call.handler = some handler ↔ MadeBy log call.endpoint handler := by
  rcases run.creator_listed listed pending with ⟨creator, mine, made, _⟩
  rw [mine]
  constructor
  · rintro ⟨rfl⟩
    exact made
  · intro madeByHandler
    rw [run.madeBy_unique made madeByHandler]

theorem abandons (run : Runs maxBody log service) (takes : event.Takes handler) :
    Occurrence.Abandons log handler ⟨service, event⟩ where
  nobody := by
    intro caller session transaction call listed pending made
    have allowed : service.Allows event := by
      rcases takes with ⟨order, rfl⟩ | ⟨order, rfl⟩ <;> exact trivial
    rcases (run.next event allowed).creator_listed listed pending with
      ⟨creator, mine, madeToo, answerer, handlerListed⟩
    obtain rfl := (run.next event allowed).madeBy_unique madeToo (made.concat _)
    rw [Service.not_listed_of_takes takes] at handlerListed
    cases handlerListed
  answered := by
    intro caller session transaction call listed different going pending made
    rcases run.creator_listed listed pending with ⟨creator, mine, madeToo, answerer, handlerListed⟩
    obtain rfl := run.madeBy_unique madeToo made
    exact Service.answered_of_takes takes handlerListed listed different going
      ⟨call, pending, mine⟩
  untouched := by
    intro caller session transaction call listed different pending foreign
    have others : ¬session.Awaits transaction handler := by
      rintro ⟨same, isPending, mine⟩
      rw [pending] at isPending
      cases isPending
      exact foreign ((run.handler_eq_iff listed pending).mp mine)
    have untouched := run.coherent.untouched_of_takes takes listed different others
    rwa [pending] at untouched

/-- The creator of an endpoint is listed as long as a listed session has a call of it pending. When
a session leaves the list, the calls of its endpoints are answered, and no others. -/
theorem nobody_waits (run : Runs maxBody log service) :
    (∀ caller session transaction call, service.listed? caller = some session →
      session.pending.find? transaction = some call →
      ∃ handler answerer, MadeBy log call.endpoint handler ∧
        service.listed? handler = some answerer) ∧
      ∀ handler event, ServiceEvent.Takes handler event →
        Occurrence.Abandons log handler ⟨service, event⟩ := by
  refine ⟨?_, fun _ _ takes => run.abandons takes⟩
  intro caller session transaction call listed pending
  rcases run.creator_listed listed pending with ⟨handler, _, made, answerer, handlerListed⟩
  exact ⟨handler, answerer, made, handlerListed⟩

theorem nobody_waits_deleted :
    ∃ log service session deleted other,
      Runs 64 log service ∧ service.listed? 1 = some session ∧
      session.pending.find? 7 = some deleted ∧ service.tree.isLive deleted.endpoint = false ∧
      session.pending.find? 8 = some other ∧ MadeBy log deleted.endpoint 2 ∧
      (Occurrence.queued 1 ⟨service, .unlisted .stored 2⟩).filterMap (·.returned? 7) = [[]] ∧
      ∃ later, (service.next (.unlisted .stored 2)).listed? 1 = some later ∧
        later.pending.find? 8 = some other := by
  have serve {log : List Occurrence} {service : Service} {frame : Frame}
      (before : Runs 64 log service) (sender : SessionId) (transaction : TransactionId)
      (message : Message) (_ : Frame.ofMessage message transaction = .ok frame) :=
    before.next (.frame .stored sender frame) trivial
  have run : Runs 64 [] (.new 64) := .new
  have run := run.next (.opened 8 .sink) (by decide)
  have run := run.next (.opened 8 .sink) (by decide)
  have run := run.next (.opened 8 .sink) (by decide)
  have run := serve run 1 0 (.signinRequest protocolVersion 0 ⟨0⟩) rfl
  have run := serve run 2 0 (.signinRequest protocolVersion 0 ⟨0⟩) rfl
  have run := serve run 3 0 (.signinRequest protocolVersion 0 ⟨0⟩) rfl
  have run := serve run 2 1 (.createRequest .rpc [] "/sum") rfl
  have run := serve run 3 1 (.createRequest .rpc [] "/neg") rfl
  have run := serve run 1 7 (.rpcRequest 100 [5]) rfl
  have run := serve run 1 8 (.rpcRequest 101 [5]) rfl
  have run := serve run 2 2 (.deleteRequest "/sum") rfl
  have abandons := run.nobody_waits.2 2 _ (.inl ⟨.stored, rfl⟩)
  have made := (@handler_eq_iff _ _ _ 2 run 1 _ 7 _ rfl rfl).mp rfl
  have foreign := mt (@handler_eq_iff _ _ _ 2 run 1 _ 8 _ rfl rfl).mpr (by decide)
  have untouched := abandons.untouched 1 _ 8 _ rfl (by decide) rfl foreign
  rcases untouched with ⟨later, laterListed, pending, _⟩
  refine ⟨_, _, _, _, _, run, rfl, rfl, by decide +kernel, rfl, made, ?_, later, laterListed,
    pending⟩
  rcases abandons.answered 1 _ 7 _ rfl (by decide) rfl rfl made with
    ⟨same, sameListed, ⟨stopped, _⟩ | returned⟩
  · cases sameListed
    cases stopped
  · exact returned

end Runs

end SharedTree
