import SharedTree.Proofs.Service.Calls
import SharedTree.Proofs.Service.Run

/-!
# The fate of calls

A session may call an endpoint under any transaction id. As long as the id is not used
again, the call has one of three fates. It is refused at once, when nobody can answer it.
Otherwise it is passed on to the session that created the endpoint, and is either pending
without an answer or answered exactly once, by the first reply of that session.

The main result, `Runs.exists_unique_fate`, says so of every moment of every run at which
the caller is listed and was never told to stop.
-/

namespace SharedTree

namespace Runs

variable {maxBody : Nat} {log : List Occurrence} {service : Service} {event : ServiceEvent}
  {call : Call} {values : List Bytes} {handler : SessionId}

theorem returned_of_unborn (run : Runs maxBody log service)
    (unborn : service.nextSession.toNat ≤ call.caller.toNat) : call.returned log = [] := by
  have absent := run.unborn unborn
  rw [Call.returned, List.flatMap_eq_nil_iff.mpr, List.filterMap_nil]
  intro occurrence mem
  exact Service.queued_of_absent (absent occurrence mem).1

end Runs

namespace Call

variable {maxBody : Nat} {log : List Occurrence} {service : Service} {event : ServiceEvent}
  {call : Call} {values : List Bytes} {handler : SessionId}

/-- No call is pending, and the given values were returned, as long as the caller goes on. -/
structure Rests (call : Call) (values : List Bytes) (log : List Occurrence) (service : Service) :
    Prop where
  born : values = [] ∨ call.caller.toNat < service.nextSession.toNat
  settled : ∀ session, service.listed? call.caller = some session → session.stopped = false →
    session.pending.find? call.transaction = none ∧ call.returned log = values

/-- The call is pending on a handler that is there, and nothing was returned, as long as the caller
goes on. -/
structure Waits (call : Call) (handler : SessionId) (log : List Occurrence) (service : Service) :
    Prop where
  born : call.caller.toNat < service.nextSession.toNat
  pending : ∀ session, service.listed? call.caller = some session → session.stopped = false →
    session.Awaits call.transaction handler ∧ call.returned log = []
  ready : ∃ answerer, service.listed? handler = some answerer ∧ answerer.signedIn = true

/-- The call waits until there is a reply, with which it then rests. -/
def Stands (call : Call) (handler : SessionId) (reply? : Option Bytes) (log : List Occurrence)
    (service : Service) : Prop :=
  match reply? with
  | none => call.Waits handler log service
  | some returnValue => call.Rests [returnValue] log service

/-- What a step that settles nothing returns, and what it leaves pending. -/
theorem unsettled_next (coherent : service.Coherent) (log : List Occurrence)
    {session later : Session}
    (found : service.session? call.caller = some session)
    (laterFound : (service.next event).session? call.caller = some later)
    (going : later.stopped = false) (notClosed : ¬event.Closes call.caller)
    (unused : ¬event.Uses call)
    (unanswered : ∀ handler, session.Awaits call.transaction handler →
      event.reply? handler call = none) :
    later.pending.find? call.transaction = session.pending.find? call.transaction ∧
      call.returned (log ++ [⟨service, event⟩]) = call.returned log := by
  rw [returned_concat]
  by_cases isDrained : event = .drained call.caller
  · subst isDrained
    rw [Service.queued_drained found, List.filterMap_nil, List.append_nil]
    rw [Service.next, Service.session?_drain, if_pos rfl, found] at laterFound
    cases laterFound
    exact ⟨rfl, rfl⟩
  · rcases coherent.settles_next found isDrained notClosed unused unanswered with
      ⟨same, sameFound, entries, pushed, silent, pending⟩
    rw [laterFound] at sameFound
    cases sameFound
    rw [(Service.queued_of_pushed found laterFound pushed).2 going, silent]
    exact ⟨pending, List.append_nil _⟩

namespace Rests

theorem next (rests : call.Rests values log service) (run : Runs maxBody log service)
    (allowed : service.Allows event) (unused : ¬event.Uses call) :
    call.Rests values (log ++ [⟨service, event⟩]) (service.next event) := by
  have grows := Service.nextSession_le_next allowed
  refine ⟨rests.born.imp_right fun born => Nat.lt_of_lt_of_le born grows, ?_⟩
  intro later listed going
  have laterFound := Service.session?_of_listed? listed
  cases found : service.session? call.caller with
  | none =>
      rcases Service.opened_of_absent found laterFound with ⟨_, _, _, same, rfl⟩
      refine ⟨rfl, ?_⟩
      rw [returned_concat, run.returned_of_unborn (by rw [same]),
        Service.queued_of_absent found]
      rcases rests.born with rfl | born
      · rfl
      · rw [same] at born
        exact absurd born (Nat.lt_irrefl _)
  | some before =>
      have born := (run.coherent.numbered _ _ found).2
      rcases run.coherent.going_of_next born listed going with
        ⟨session, wasListed, wasGoing, notClosed, _⟩
      rcases rests.settled session wasListed wasGoing with ⟨nothing, returned⟩
      have stays := unsettled_next run.coherent log (Service.session?_of_listed? wasListed)
        laterFound going notClosed unused
        fun handler awaits => by
          rcases awaits with ⟨pending, isPending, _⟩
          rw [nothing] at isPending
          cases isPending
      exact ⟨stays.1.trans nothing, stays.2.trans returned⟩

end Rests

namespace Waits

theorem next (waits : call.Waits handler log service) (run : Runs maxBody log service)
    (allowed : service.Allows event) (unused : ¬event.Uses call)
    (silent : event.reply? handler call = none) :
    call.Waits handler (log ++ [⟨service, event⟩]) (service.next event) := by
  have grows := Service.nextSession_le_next allowed
  refine ⟨Nat.lt_of_lt_of_le waits.born grows, ?_, ?_⟩
  · intro later listed going
    rcases run.coherent.going_of_next waits.born listed going with
      ⟨session, wasListed, wasGoing, notClosed, _⟩
    rcases waits.pending session wasListed wasGoing with ⟨⟨pending, isPending, mine⟩, returned⟩
    have stays := unsettled_next run.coherent log (Service.session?_of_listed? wasListed)
      (Service.session?_of_listed? listed) going notClosed unused
      fun other awaits => by
        rcases awaits with ⟨same, isSame, alsoMine⟩
        rw [isPending] at isSame
        cases isSame
        rw [mine] at alsoMine
        cases alsoMine
        exact silent
    exact ⟨⟨pending, stays.1.trans isPending, mine⟩, stays.2.trans returned⟩
  · rcases waits.ready with ⟨answerer, listed, signedIn⟩
    have notUnlisted : ¬event.Unlists handler := by
      rintro ⟨order, rfl⟩
      simp [ServiceEvent.reply?] at silent
    have notClosed : ¬event.Closes handler := by
      rintro ⟨order, rfl⟩
      simp [ServiceEvent.reply?] at silent
    rcases run.coherent.listed_next listed notUnlisted notClosed with ⟨later, laterListed⟩
    exact ⟨later, laterListed, run.coherent.signedIn_next (Service.session?_of_listed? listed)
      (Service.session?_of_listed? laterListed) signedIn⟩

/-- The first reply of the handler settles the call. -/
theorem reply (waits : call.Waits handler log service) (run : Runs maxBody log service)
    (allowed : service.Allows event) (sized : event.Sized) {returnValue : Bytes}
    (replied : event.reply? handler call = some returnValue) :
    call.Rests [returnValue] (log ++ [⟨service, event⟩]) (service.next event) := by
  have grows := Service.nextSession_le_next allowed
  refine ⟨Or.inr (Nat.lt_of_lt_of_le waits.born grows), ?_⟩
  intro later listed going
  rcases run.coherent.going_of_next waits.born listed going with
    ⟨session, wasListed, wasGoing, notClosed, notUnlisted⟩
  rcases waits.pending session wasListed wasGoing with ⟨awaits, returned⟩
  rcases waits.ready with ⟨answerer, handlerListed, signedIn⟩
  have found := Service.session?_of_listed? wasListed
  have laterFound := Service.session?_of_listed? listed
  rcases run.coherent.settles_reply wasListed notUnlisted notClosed handlerListed signedIn awaits
    replied sized with ⟨same, sameFound, entries, pushed, returns, pending⟩
  rw [laterFound] at sameFound
  cases sameFound
  rw [if_neg (by simp)] at pending
  rw [returned_concat, returned, (Service.queued_of_pushed found laterFound pushed).2 going,
    returns]
  exact ⟨pending, rfl⟩

end Waits

end Call

namespace Runs

variable {maxBody : Nat} {earlier later log : List Occurrence} {made : Occurrence}
  {service : Service} {call : Call} {id : SessionId}

theorem requested_of_unused (run : Runs maxBody log service) {part : List Occurrence}
    (inLog : ∀ occurrence ∈ part, occurrence ∈ log)
    (unused : ∀ occurrence ∈ part, ¬occurrence.event.Uses call) (id : SessionId) :
    call.requested id part = [] := by
  rw [Call.requested, List.filterMap_flatMap, List.flatMap_eq_nil_iff]
  intro occurrence mem
  exact (run.coherent_of_mem occurrence (inLog occurrence mem)).requested_next
    (unused occurrence mem) id

/-- Whatever is requested on behalf of a call that is made once is requested when it is made. -/
theorem requested_eq (run : Runs maxBody (earlier ++ made :: later) service)
    (once : ∀ occurrence ∈ earlier ++ later, ¬occurrence.event.Uses call) (id : SessionId) :
    call.requested id (earlier ++ made :: later) =
      (made.queued id).filterMap (·.requested? call.caller call.transaction) := by
  have before : call.requested id earlier = [] := run.requested_of_unused
    (fun occurrence mem => List.mem_append_left _ mem)
    (fun occurrence mem => once occurrence (List.mem_append_left _ mem)) id
  have after : call.requested id later = [] := run.requested_of_unused
    (fun occurrence mem => List.mem_append_right _ (List.mem_cons_of_mem _ mem))
    (fun occurrence mem => once occurrence (List.mem_append_right _ mem)) id
  rw [List.append_cons, Call.requested_append, Call.requested_append, before, after,
    List.append_nil, List.nil_append, Call.requested, List.flatMap_singleton]

end Runs

/-! ## The three fates -/

/-- What becomes of a call. -/
inductive CallFate where
  /-- Nobody could answer it. -/
  | refused
  /-- Its answer has not come yet. -/
  | awaiting
  /-- It has been answered. -/
  | answered

/-- A session stops because its backlog is full. -/
def Occurrence.Overflows (id : SessionId) (occurrence : Occurrence) : Prop :=
  ∃ session later, occurrence.before.session? id = some session ∧
    session.backlog.maxEntries ≤ session.backlog.size ∧
    occurrence.after.session? id = some later ∧ later.stopped = true

namespace Call

/-- The call was refused by an empty answer when it was made, and left no trace. -/
structure Refused (call : Call) (log : List Occurrence) (made : Occurrence) (caller : Session) :
    Prop where
  answer : ∃ frame, Frame.ofMessage (.rpcResponse []) call.transaction = .ok frame ∧
    made.answer? = some frame
  unchanged : made.after = made.before
  unrequested : ∀ id, call.requested id log = []
  unrecorded : caller.pending.find? call.transaction = none
  unreturned : call.returned log = []

/-- The call was passed on, once, to the session that created the endpoint, unless that stopped
because its backlog was full. -/
structure PassedOn (call : Call) (handler : SessionId) (earlier log : List Occurrence)
    (made : Occurrence) : Prop where
  unanswered : made.answer? = none
  created : ∃ endpoint, made.before.tree.findUuid call.uuid = .ok endpoint ∧
    ∃ creation ∈ earlier, creation.Creates endpoint ∧ creation.event.sender? = some handler
  elsewhere : ∀ id, id ≠ handler → call.requested id log = []
  requested : call.requested handler log = [(call.uuid, call.parameter)] ∨
    call.requested handler log = [] ∧ made.Overflows handler

/-- What a fate means for a call between an earlier and a later part of a log, at the end of which
the caller is as given. -/
def Meets (call : Call) (earlier : List Occurrence) (made : Occurrence)
    (later : List Occurrence) (caller : Session) : CallFate → Prop
  | .refused => call.Refused (earlier ++ made :: later) made caller
  | .awaiting => ∃ handler, call.PassedOn handler earlier (earlier ++ made :: later) made ∧
      (later.findSome? fun occurrence => occurrence.event.reply? handler call) = none ∧
      caller.pending.contains call.transaction = true ∧
      call.returned (earlier ++ made :: later) = []
  | .answered => ∃ handler returnValue,
      call.PassedOn handler earlier (earlier ++ made :: later) made ∧
      (later.findSome? fun occurrence => occurrence.event.reply? handler call) =
        some returnValue ∧
      caller.pending.contains call.transaction = false ∧
      call.returned (earlier ++ made :: later) = [returnValue]

/-- A call has at most one fate. -/
theorem Meets.unique {call : Call} {earlier : List Occurrence} {made : Occurrence}
    {later : List Occurrence} {caller : Session} {fate other : CallFate}
    (meets : call.Meets earlier made later caller fate)
    (alsoMeets : call.Meets earlier made later caller other) : fate = other := by
  have refusedOnly (refused : call.Refused (earlier ++ made :: later) made caller)
      {handler : SessionId}
      (passedOn : call.PassedOn handler earlier (earlier ++ made :: later) made) : False := by
    rcases refused.answer with ⟨frame, _, answered⟩
    rw [passedOn.unanswered] at answered
    cases answered
  cases fate <;> cases other
  case refused.refused | awaiting.awaiting | answered.answered => rfl
  case refused.awaiting =>
    rcases alsoMeets with ⟨_, passedOn, _⟩
    exact (refusedOnly meets passedOn).elim
  case refused.answered =>
    rcases alsoMeets with ⟨_, _, passedOn, _⟩
    exact (refusedOnly meets passedOn).elim
  case awaiting.refused =>
    rcases meets with ⟨_, passedOn, _⟩
    exact (refusedOnly alsoMeets passedOn).elim
  case answered.refused =>
    rcases meets with ⟨_, _, passedOn, _⟩
    exact (refusedOnly alsoMeets passedOn).elim
  case awaiting.answered =>
    rcases meets with ⟨_, _, _, pending, _⟩
    rcases alsoMeets with ⟨_, _, _, _, settled, _⟩
    rw [pending] at settled
    cases settled
  case answered.awaiting =>
    rcases meets with ⟨_, _, _, _, settled, _⟩
    rcases alsoMeets with ⟨_, _, _, pending, _⟩
    rw [pending] at settled
    cases settled

end Call

namespace Runs

variable {maxBody : Nat} {earlier later log : List Occurrence} {made : Occurrence}
  {service : Service} {call : Call} {asker caller : Session}

/-- Before a call is made nothing is pending or returned. -/
theorem rests (run : Runs maxBody log service)
    (unused : ∀ occurrence ∈ log, ¬occurrence.event.Uses call) : call.Rests [] log service := by
  induction run with
  | new => exact ⟨Or.inl rfl, fun _ impossible => nomatch impossible⟩
  | @next log service before event allowed ih =>
      have earlierUnused := ih fun occurrence mem => unused occurrence (List.mem_append_left _ mem)
      exact earlierUnused.next before allowed (unused ⟨service, event⟩ (by simp))

/-- A call that leaves the service as it is leaves nothing pending. -/
theorem rests_of_unchanged (rests : call.Rests [] earlier made.before)
    (unchanged : made.after = made.before) : call.Rests [] (earlier ++ [made]) made.after := by
  have nothing : made.queued call.caller = [] := by
    rw [Occurrence.queued, unchanged, List.drop_length]
  rw [unchanged]
  refine ⟨rests.born, ?_⟩
  intro session listed going
  rw [Call.returned_concat, nothing, List.filterMap_nil, List.append_nil]
  exact rests.settled session listed going

theorem rests_later {values : List Bytes}
    (run : Runs maxBody ((earlier ++ [made]) ++ later) service)
    (start : call.Rests values (earlier ++ [made]) made.after)
    (unused : ∀ occurrence ∈ later, ¬occurrence.event.Uses call) :
    call.Rests values ((earlier ++ [made]) ++ later) service := by
  revert unused
  refine run.induction_after
    (motive := fun rest service => (∀ occurrence ∈ rest, ¬occurrence.event.Uses call) →
      call.Rests values ((earlier ++ [made]) ++ rest) service) ?_ ?_
  · intro first untilMade _
    rw [List.append_nil, untilMade.of_concat.2.2]
    exact start
  · intro rest middle event before allowed ih unused
    rw [← List.append_assoc]
    exact (ih fun occurrence mem => unused occurrence (List.mem_append_left _ mem)).next before
      allowed (unused ⟨middle, event⟩ (by simp))

/-- A call that waits for a handler settles with the first reply of that handler. -/
theorem stands_later {handler : SessionId}
    (run : Runs maxBody ((earlier ++ [made]) ++ later) service)
    (start : call.Waits handler (earlier ++ [made]) made.after)
    (unused : ∀ occurrence ∈ later, ¬occurrence.event.Uses call)
    (sized : ∀ occurrence ∈ later, occurrence.event.Sized) :
    call.Stands handler (later.findSome? fun occurrence => occurrence.event.reply? handler call)
      ((earlier ++ [made]) ++ later) service := by
  revert unused sized
  refine run.induction_after
    (motive := fun rest service => (∀ occurrence ∈ rest, ¬occurrence.event.Uses call) →
      (∀ occurrence ∈ rest, occurrence.event.Sized) →
      call.Stands handler (rest.findSome? fun occurrence => occurrence.event.reply? handler call)
        ((earlier ++ [made]) ++ rest) service) ?_ ?_
  · intro first untilMade _ _
    rw [List.append_nil, untilMade.of_concat.2.2]
    exact start
  · intro rest middle event before allowed ih unused sized
    have stands := ih (fun occurrence mem => unused occurrence (List.mem_append_left _ mem))
      (fun occurrence mem => sized occurrence (List.mem_append_left _ mem))
    have unusedNow : ¬event.Uses call := unused ⟨middle, event⟩ (by simp)
    have sizedNow : event.Sized := sized ⟨middle, event⟩ (by simp)
    rw [← List.append_assoc, List.findSome?_append]
    -- Only the first reply counts: once there is one, no later event settles the call again.
    cases replied : rest.findSome? fun occurrence => occurrence.event.reply? handler call with
    | some value =>
        rw [replied] at stands
        exact stands.next before allowed unusedNow
    | none =>
        rw [replied] at stands
        rw [Option.none_or, List.findSome?_singleton]
        cases now : event.reply? handler call with
        | none => exact stands.next before allowed unusedNow now
        | some value => exact stands.reply before allowed sizedNow now

/-- A call that nobody can answer is refused. -/
theorem refused (run : Runs maxBody (earlier ++ made :: later) service)
    (asks : made.event.call? = some call)
    (found : made.before.session? call.caller = some asker) (signedIn : asker.signedIn = true)
    (once : ∀ occurrence ∈ earlier ++ later, ¬occurrence.event.Uses call)
    (listed : service.listed? call.caller = some caller) (going : caller.stopped = false)
    (nobody : made.before.callee? call.uuid = none) :
    call.Refused (earlier ++ made :: later) made caller := by
  rcases run.before_made with ⟨before, _, _⟩
  rcases Service.next_of_callee?_eq_none asks found signedIn nobody with ⟨unchanged, answer⟩
  have start := rests_of_unchanged
    (before.rests fun occurrence mem => once occurrence (List.mem_append_left _ mem)) unchanged
  have settled := (rests_later (by rwa [List.append_cons] at run) start
    fun occurrence mem => once occurrence (List.mem_append_right _ mem)).settled caller listed going
  rw [← List.append_cons] at settled
  refine ⟨answer, unchanged, ?_, settled.1, settled.2⟩
  intro id
  rw [run.requested_eq once, Occurrence.queued,
    show made.after = made.before from unchanged, List.drop_length]
  rfl

variable {endpoint : Handle} {handler : SessionId}

/-- A call that somebody can answer is passed on. -/
theorem passedOn (run : Runs maxBody (earlier ++ made :: later) service)
    (asks : made.event.call? = some call)
    (found : made.before.session? call.caller = some asker) (signedIn : asker.signedIn = true)
    (once : ∀ occurrence ∈ earlier ++ later, ¬occurrence.event.Uses call)
    (fits : (Message.handleRpcRequest call.caller call.transaction call.uuid call.parameter).size +
      Header.length < UInt32.size)
    (callee : made.before.callee? call.uuid = some (endpoint, handler)) :
    call.PassedOn handler earlier (earlier ++ made :: later) made := by
  rcases run.before_made with ⟨before, _, _⟩
  rcases Service.callee?_eq_some callee with
    ⟨isEndpoint, ⟨property, isThere, answers⟩, answerer, listed, going⟩
  have handlerFound := Service.session?_of_listed? listed
  rcases Frame.exists_ofMessage fits unsolicited with ⟨request, requestMade⟩
  rcases before.coherent.next_of_callee? asks found signedIn callee requestMade with
    ⟨after, unanswered⟩
  have afterMade : made.after =
      made.before.passOn call.caller call.transaction endpoint handler request := after
  refine ⟨unanswered, ⟨endpoint, isEndpoint, (before.owned isThere answers).1⟩, ?_, ?_⟩
  · intro id different
    rw [run.requested_eq once, Occurrence.queued, afterMade,
      Service.waiting_passOn _ _ _ _ _ different, List.drop_length]
    rfl
  · rw [run.requested_eq once, Occurrence.queued, afterMade]
    rcases Service.passOn_handler call.caller call.transaction endpoint request handlerFound going
      with ⟨later, laterFound, ⟨full, stopped, same⟩ | grown⟩
    · rw [Service.waiting_of_found laterFound, Service.waiting_of_found handlerFound, same,
        List.drop_length]
      exact Or.inr ⟨rfl, answerer, later, handlerFound, full, by rw [afterMade, laterFound],
        stopped⟩
    · rw [Service.waiting_of_found laterFound, Service.waiting_of_found handlerFound, grown,
        List.drop_left]
      refine Or.inl (List.filterMap_cons_some ?_)
      rw [BacklogEntry.requested?_request requestMade, if_pos ⟨rfl, rfl⟩]

/-- A call that has been passed on waits. -/
theorem waits (run : Runs maxBody (earlier ++ made :: later) service)
    (asks : made.event.call? = some call)
    (found : made.before.session? call.caller = some asker) (signedIn : asker.signedIn = true)
    (unused : ∀ occurrence ∈ earlier, ¬occurrence.event.Uses call)
    (fits : (Message.handleRpcRequest call.caller call.transaction call.uuid call.parameter).size +
      Header.length < UInt32.size)
    (callee : made.before.callee? call.uuid = some (endpoint, handler)) :
    call.Waits handler (earlier ++ [made]) made.after := by
  rcases run.before_made with ⟨before, allowed, _⟩
  have coherent := before.coherent
  have born := (coherent.numbered _ _ found).2
  rcases Service.callee?_eq_some callee with
    ⟨_, ⟨property, isThere, answers⟩, answerer, handlerListed, _⟩
  have handlerFound := Service.session?_of_listed? handlerListed
  rcases Frame.exists_ofMessage fits unsolicited with ⟨request, requestMade⟩
  have after := (coherent.next_of_callee? asks found signedIn callee requestMade).1
  refine ⟨Nat.lt_of_lt_of_le born (Service.nextSession_le_next allowed), ?_, ?_⟩
  · intro later listed going
    rcases coherent.going_of_next born listed going with ⟨session, wasListed, wasGoing, _⟩
    rcases Service.passOn_caller call.transaction endpoint handler requestMade found with
      ⟨same, entries, sameFound, pending, pushed, silent⟩
    rw [← after] at sameFound
    have laterFound := Service.session?_of_listed? listed
    obtain rfl : later = same := Option.some.inj (laterFound.symm.trans sameFound)
    refine ⟨⟨_, pending, ?_⟩, ?_⟩
    · rw [isThere]
      exact answers
    · rw [Call.returned_concat, (Service.queued_of_pushed found laterFound pushed).2 going,
        List.filterMap_eq_nil_iff.mpr silent, List.append_nil]
      exact ((before.rests unused).settled session wasListed wasGoing).2
  · rcases ServiceEvent.eq_frame_of_call? asks with ⟨order, frame, isFrame, _⟩
    have notUnlisted : ¬made.event.Unlists handler := by
      simp [isFrame, ServiceEvent.Unlists]
    have notClosed : ¬made.event.Closes handler := by
      simp [isFrame, ServiceEvent.Closes]
    rcases coherent.listed_next handlerListed notUnlisted notClosed with ⟨later, laterListed⟩
    exact ⟨later, laterListed, coherent.signedIn_next handlerFound
      (Service.session?_of_listed? laterListed)
      ((before.owned isThere answers).2.2 answerer handlerFound)⟩

/-- A call has exactly one fate, at every moment at which its caller is listed and was never told to
stop. -/
theorem exists_unique_fate (run : Runs maxBody (earlier ++ made :: later) service)
    (asks : made.event.call? = some call)
    (found : made.before.session? call.caller = some asker) (signedIn : asker.signedIn = true)
    (once : ∀ occurrence ∈ earlier ++ later, ¬occurrence.event.Uses call)
    (fits : (Message.handleRpcRequest call.caller call.transaction call.uuid call.parameter).size +
      Header.length < UInt32.size)
    (sized : ∀ occurrence ∈ later, occurrence.event.Sized)
    (listed : service.listed? call.caller = some caller) (going : caller.stopped = false) :
    ∃! fate, call.Meets earlier made later caller fate := by
  suffices meets : ∃ fate, call.Meets earlier made later caller fate by
    rcases meets with ⟨fate, meets⟩
    exact ⟨fate, meets, fun other alsoMeets => alsoMeets.unique meets⟩
  cases callee : made.before.callee? call.uuid with
  | none => exact ⟨.refused, run.refused asks found signedIn once listed going callee⟩
  | some answering =>
      rcases answering with ⟨endpoint, handler⟩
      have passedOn := run.passedOn asks found signedIn once fits callee
      have waits := run.waits asks found signedIn
        (fun occurrence mem => once occurrence (List.mem_append_left _ mem)) fits callee
      have unused : ∀ occurrence ∈ later, ¬occurrence.event.Uses call :=
        fun occurrence mem => once occurrence (List.mem_append_right _ mem)
      have stands := stands_later (by rwa [List.append_cons] at run) waits unused sized
      rw [← List.append_cons] at stands
      cases replied : later.findSome? fun occurrence => occurrence.event.reply? handler call with
      | none =>
          rw [replied] at stands
          rcases stands.pending caller listed going with ⟨⟨pending, isPending, _⟩, returned⟩
          exact ⟨.awaiting, handler, passedOn, replied,
            (Table.contains_iff _ _).mpr ⟨pending, isPending⟩, returned⟩
      | some returnValue =>
          rw [replied] at stands
          rcases stands.settled caller listed going with ⟨settled, returned⟩
          refine ⟨.answered, handler, returnValue, passedOn, replied, ?_, returned⟩
          rw [Table.contains, settled]
          rfl

theorem exists_unique_fate_answered :
    ∃ earlier made later service caller, Runs 64 (earlier ++ made :: later) service ∧
      made.event.call? = some ⟨1, 7, 100, [5]⟩ ∧ service.listed? 1 = some caller ∧
      Call.requested ⟨1, 7, 100, [5]⟩ 2 (earlier ++ made :: later) = [(100, [5])] ∧
      Call.returned ⟨1, 7, 100, [5]⟩ (earlier ++ made :: later) = [[6]] ∧
      ∃! fate, Call.Meets ⟨1, 7, 100, [5]⟩ earlier made later caller fate := by
  have serve {log : List Occurrence} {service : Service} {frame : Frame}
      (before : Runs 64 log service) (sender : SessionId) (message : Message)
      (_ : Frame.ofMessage message 7 = .ok frame) :=
    before.next (.frame .stored sender frame) trivial
  have run : Runs 64 [] (.new 64) := .new
  have run := run.next (.opened 8 .sink) (by decide)
  have run := run.next (.opened 8 .sink) (by decide)
  have run := serve run 1 (.signinRequest protocolVersion 0 ⟨0⟩) rfl
  have run := serve run 2 (.signinRequest protocolVersion 0 ⟨0⟩) rfl
  have run := serve run 2 (.createRequest .rpc [] "/sum") rfl
  have run := serve run 1 (.rpcRequest 100 [5]) rfl
  have run := serve run 1 (.handleRpcResponse 1 7 [4]) rfl
  have run := run.next (.drained 1) trivial
  have run := serve run 2 (.handleRpcResponse 1 7 [6]) rfl
  have run := run.next (.unlisted .stored 2) trivial
  rw [List.append_assoc, List.append_assoc, List.append_assoc, List.append_assoc] at run
  refine ⟨_, _, _, _, _, run, rfl, rfl, rfl, rfl, ?_⟩
  exact run.exists_unique_fate rfl rfl rfl (by decide +kernel) (by decide) (by decide +kernel) rfl
    rfl

end Runs

end SharedTree
