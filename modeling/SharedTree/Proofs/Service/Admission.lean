import SharedTree.Proofs.Service.Isolation

/-!
# Before signing in

Whatever a session sends before it has signed in is dropped, except the request to sign in. Nothing is
announced or passed on to it, it cannot watch a value or create an endpoint, and so nothing waits for
it and no other session waits for it.

The main result, `Runs.unsigned_unheard`, compares runs. Two runs that are the same but for the frames
that come before their senders have signed in make the same service, with the same answers to every
session and the same frames drained from it.
-/

namespace SharedTree

/-- The frame asks to sign in. -/
def Frame.asksToSignIn (frame : Frame) : Bool :=
  match frame.message with
  | .ok (.signinRequest _ _ _) => true
  | _ => false

namespace Occurrence

/-- A session that has not signed in hands in a frame that does not ask to. -/
def isPremature (occurrence : Occurrence) : Bool :=
  match occurrence.event with
  | .frame _ sender frame =>
    (occurrence.before.session? sender).any (!·.signedIn) && !frame.asksToSignIn
  | _ => false

/-- The frame that a session is answered with. -/
def answerTo? (id : SessionId) (occurrence : Occurrence) : Option Frame :=
  if occurrence.event.sender? = some id then occurrence.answer? else none

end Occurrence

/-- A log without the frames that come before their senders have signed in. -/
def heeded (log : List Occurrence) : List Occurrence :=
  log.filter fun occurrence => !occurrence.isPremature

namespace Service

variable {service : Service} {event : ServiceEvent} {order : VisitOrder} {sender id : SessionId}
  {frame : Frame} {session later : Session}

/-! ## Frames before signing in -/

/-- Before a session has signed in, all its frames but the one are dropped. -/
theorem handle_of_unsigned (found : service.session? sender = some session)
    (unsigned : session.signedIn = false) (other : frame.asksToSignIn = false) :
    service.handle order sender frame = (service, none) := by
  rw [handle, found]
  unfold Frame.asksToSignIn at other
  cases asked : frame.message with
  | error error => rfl
  | ok message =>
      rw [asked] at other
      cases message with
      | signinRequest version refreshRate features => cases other
      | _ => simp [handleMessage, unsigned]

theorem handle_of_premature
    (premature : Occurrence.isPremature ⟨service, .frame order sender frame⟩ = true) :
    service.handle order sender frame = (service, none) := by
  simp only [Occurrence.isPremature, Bool.and_eq_true, Option.any_eq_true, Bool.not_eq_true']
    at premature
  rcases premature with ⟨⟨session, found, unsigned⟩, other⟩
  exact handle_of_unsigned found unsigned other

theorem exists_frame_of_premature (premature : Occurrence.isPremature ⟨service, event⟩ = true) :
    ∃ order sender frame, event = .frame order sender frame := by
  cases event with
  | frame order sender frame => exact ⟨order, sender, frame, rfl⟩
  | opened _ _ | stopped _ | unlisted _ _ | closed _ _ | drained _ => cases premature

theorem next_of_premature (premature : Occurrence.isPremature ⟨service, event⟩ = true) :
    service.next event = service := by
  rcases exists_frame_of_premature premature with ⟨order, sender, frame, rfl⟩
  rw [next, handle_of_premature premature]

theorem answerTo?_of_premature (premature : Occurrence.isPremature ⟨service, event⟩ = true)
    (id : SessionId) : Occurrence.answerTo? id ⟨service, event⟩ = none := by
  rcases exists_frame_of_premature premature with ⟨order, sender, frame, rfl⟩
  simp only [Occurrence.answerTo?, Occurrence.answer?, handle_of_premature premature, ite_self]

theorem drained_of_premature (premature : Occurrence.isPremature ⟨service, event⟩ = true)
    (id : SessionId) : Occurrence.drained id ⟨service, event⟩ = [] := by
  rcases exists_frame_of_premature premature with ⟨order, sender, frame, rfl⟩
  rfl

/-! ## Signing in -/

theorem Coherent.signedIn_of_asks (coherent : service.Coherent)
    (found : service.session? id = some session) (asks : frame.asksToSignIn = true) :
    ∃ later, (service.next (.frame order id frame)).session? id = some later ∧
      later.signedIn = true := by
  unfold Frame.asksToSignIn at asks
  split at asks
  · next version refreshRate features asked =>
    refine ⟨session.signIn refreshRate features, ?_, rfl⟩
    rw [next_frame found asked]
    simp only [handleMessage, signIn, (coherent.numbered _ _ found).1]
    rw [session?_modifySession, if_pos rfl, found, Option.map_some]
  · cases asks

/-! ## Sessions that have not signed in -/

/-- Nothing has come to a session, and it has left no trace in the tree. -/
structure Anonymous (service : Service) (id : SessionId) (session : Session) : Prop where
  backlog : session.backlog.entries = []
  pending : session.pending = .empty
  watches : ∀ handle value, service.tree.value? handle = some value →
    value.2.contains id = false
  handles : ∀ endpoint property, service.tree.property? endpoint = some property →
    property.handler? ≠ some id

/-- No event addresses anything to a session that has not signed in. -/
theorem Anonymous.addressed_eq_nil (anonymous : service.Anonymous id session)
    (found : service.session? id = some session) (unsigned : session.signedIn = false)
    (event : ServiceEvent) : Occurrence.addressed id ⟨service, event⟩ = [] := by
  have announced : Occurrence.announced id ⟨service, event⟩ = [] := by
    rw [Occurrence.announced, listed?_any_signedIn found, unsigned, Bool.and_false,
      if_neg Bool.false_ne_true]
  have updated : Occurrence.updated id ⟨service, event⟩ = [] := by
    unfold Occurrence.updated
    split
    · refine if_neg ?_
      rintro ⟨_, isWatcher⟩
      rcases (Option.any_eq_true _ _).mp isWatcher with ⟨value, isValue, contained⟩
      rw [anonymous.watches _ value isValue] at contained
      cases contained
    · rfl
  have called : Occurrence.called id ⟨service, event⟩ = [] := by
    unfold Occurrence.called
    split
    · next handler request passed =>
      refine if_neg ?_
      rintro rfl
      rcases Occurrence.callee?_of_request? passed with ⟨uuid, endpoint, callee⟩
      rcases (callee?_eq_some callee).2.1 with ⟨property, isThere, answers⟩
      exact anonymous.handles endpoint property isThere answers
    · rfl
  have returned : Occurrence.returned id ⟨service, event⟩ = [] := by
    unfold Occurrence.returned
    split
    · rfl
    · next caller listed =>
      cases found.symm.trans (session?_of_listed? listed)
      have uncalled (order : VisitOrder) (handler : SessionId) :
          session.callsTo order handler = [] := by
        have same := session.callsTo_perm order handler
        rw [anonymous.pending] at same
        exact same.eq_nil
      split
      · split
        · simp [anonymous.pending]
        · rfl
      · simp [uncalled]
      · simp [uncalled]
      · rfl
  simp [Occurrence.addressed, announced, updated, called, returned]

/-- Nothing waits for a session that has not signed in, whatever happens. -/
theorem Anonymous.backlog_next (anonymous : service.Anonymous id session)
    (coherent : service.Coherent) {bound : Nat} (attended : Attended bound service.tree)
    (found : service.session? id = some session) (unsigned : session.signedIn = false)
    (laterFound : (service.next event).session? id = some later) :
    later.backlog.entries = [] := by
  by_cases isDrained : event = .drained id
  · rw [isDrained, Service.next, session?_drain, if_pos rfl, found] at laterFound
    cases laterFound
    rfl
  by_cases isClosed : event.Closes id
  · rcases isClosed with ⟨order, rfl⟩
    rw [Service.next, session?_close, if_pos rfl] at laterFound
    cases laterFound
  by_cases isStopped : event = .stopped id
  · rw [isStopped, session?_stop found] at laterFound
    cases laterFound
    exact anonymous.backlog
  · rcases coherent.receives_next attended found isDrained isClosed isStopped with
      ⟨same, sameFound, received⟩
    cases laterFound.symm.trans sameFound
    rw [received.backlog, anonymous.addressed_eq_nil found unsigned]
    exact anonymous.backlog

end Service

section Logs

variable {log : List Occurrence}

theorem heeded_concat (log : List Occurrence) (occurrence : Occurrence) :
    heeded (log ++ [occurrence]) =
      if occurrence.isPremature then heeded log else heeded log ++ [occurrence] := by
  rw [heeded, List.filter_append]
  cases premature : occurrence.isPremature <;> simp [heeded, premature]

theorem filterMap_heeded {α : Type} {part : Occurrence → Option α}
    (silent : ∀ occurrence : Occurrence, occurrence.isPremature = true → part occurrence = none) :
    (heeded log).filterMap part = log.filterMap part := by
  rw [heeded, List.filterMap_filter]
  apply List.filterMap_congr
  intro occurrence _
  cases premature : occurrence.isPremature with
  | true => rw [silent occurrence premature]; rfl
  | false => rfl

theorem flatMap_heeded {α : Type} {part : Occurrence → List α}
    (silent : ∀ occurrence : Occurrence, occurrence.isPremature = true → part occurrence = []) :
    (heeded log).flatMap part = log.flatMap part := by
  induction log with
  | nil => rfl
  | cons occurrence log ih =>
      have rest : heeded (occurrence :: log) =
          if occurrence.isPremature then heeded log else occurrence :: heeded log := by
        rw [heeded, List.filter_cons]
        cases occurrence.isPremature <;> rfl
      rw [rest, List.flatMap_cons, ← ih]
      cases premature : occurrence.isPremature with
      | true => rw [silent occurrence premature]; rfl
      | false => rfl

end Logs

namespace Runs

open Service (Anonymous)

variable {maxBody : Nat} {log other : List Occurrence} {service last : Service} {id : SessionId}
  {session : Session}

/-! ## Nothing comes to sessions that have not signed in -/

/-- The watchers of a value that exist have signed in. -/
theorem signedIn_of_watches (run : Runs maxBody log service) {handle : Handle}
    {value : Bytes × Table SessionId Observer} (isValue : service.tree.value? handle = some value)
    (contained : value.2.contains id = true) (found : service.session? id = some session) :
    session.signedIn = true := by
  induction run generalizing session value with
  | new => cases found
  | @next log service before event allowed ih =>
      have coherent := before.coherent
      rcases value with ⟨payload, watchers⟩
      rcases coherent.watchers_next before.attended isValue with
        ⟨_, rfl⟩ | ⟨old, earlierWatchers, wasValue, rewatched⟩
      · cases contained
      · -- Whoever watched the value before had signed in by then.
        have stays (was : earlierWatchers.contains id = true) : session.signedIn = true := by
          cases beforeFound : service.session? id with
          | none =>
              rcases Service.opened_of_absent beforeFound found with ⟨_, _, _, rfl, _⟩
              rw [(before.attended _ _ wasValue).absent (Nat.le_refl _)] at was
              cases was
          | some earlier =>
              exact coherent.signedIn_next beforeFound found (ih wasValue was beforeFound)
        cases rewatched with
        | kept => exact stays contained
        | pruned stopped =>
            rcases (Table.contains_iff _ _).mp contained with ⟨observer, isLeft⟩
            rw [Table.find?_filter, Option.filter_eq_some_iff] at isLeft
            exact stays ((Table.contains_iff _ _).mpr ⟨observer, isLeft.1⟩)
        | @voted order sender frame watching isFrame votes =>
            rw [Service.contains_revise] at contained
            split at contained
            · next isSender =>
              subst isSender
              cases votes with
              | begun wasFound signedIn =>
                  exact coherent.signedIn_next wasFound found signedIn
              | ceased => cases contained
            · exact stays contained

theorem anonymous_of_idle (run : Runs maxBody log service)
    (found : service.session? id = some session) (unsigned : session.signedIn = false)
    (backlog : session.backlog.entries = []) (pending : session.pending = .empty) :
    service.Anonymous id session where
  backlog := backlog
  pending := pending
  watches := by
    intro handle value isValue
    rw [Bool.eq_false_iff]
    intro contained
    rw [run.signedIn_of_watches isValue contained found] at unsigned
    cases unsigned
  handles := by
    intro endpoint property isThere answers
    rw [(run.owned isThere answers).2.2 session found] at unsigned
    cases unsigned

/-- No call of a session is pending before it has signed in. -/
theorem pending_next (run : Runs maxBody log service) {event : ServiceEvent} {later : Session}
    (found : service.session? id = some session)
    (laterFound : (service.next event).session? id = some later)
    (unsigned : later.signedIn = false) (empty : session.pending = .empty) :
    later.pending = .empty := by
  have coherent := run.coherent
  have wasUnsigned : session.signedIn = false := by
    rw [Bool.eq_false_iff]
    intro signedIn
    rw [coherent.signedIn_next found laterFound signedIn] at unsigned
    cases unsigned
  rw [Table.eq_empty_iff]
  intro transaction
  rw [Option.eq_none_iff_forall_ne_some]
  intro call pending
  rcases coherent.recorded_next found laterFound transaction call pending with was | recorded
  · rw [empty] at was
    cases was
  · cases recorded with
    | @called order sender frame uuid endpoint handler callee =>
        by_cases isSender : id = sender
        · subst isSender
          cases asks : frame.asksToSignIn with
          | true =>
              rcases coherent.signedIn_of_asks found asks with ⟨same, sameFound, signedIn⟩
              rw [laterFound] at sameFound
              cases sameFound
              rw [signedIn] at unsigned
              cases unsigned
          | false =>
              rw [Service.next, Service.handle_of_unsigned found wasUnsigned asks, found]
                at laterFound
              cases laterFound
              rw [empty] at pending
              cases pending
        · rcases coherent.pending_frame isSender found laterFound with
            same | ⟨other, _, answered, _, _, wasPending, _⟩
          · rw [same, empty] at pending
            cases pending
          · rw [empty] at wasPending
            cases wasPending

/-- Nothing has come to a session that has not signed in, and it has left no trace. -/
theorem anonymous (run : Runs maxBody log service) (found : service.session? id = some session)
    (unsigned : session.signedIn = false) : service.Anonymous id session := by
  suffices idle : session.backlog.entries = [] ∧ session.pending = .empty from
    run.anonymous_of_idle found unsigned idle.1 idle.2
  induction run generalizing session with
  | new => cases found
  | @next log service before event allowed ih =>
      have coherent := before.coherent
      cases beforeFound : service.session? id with
      | none =>
          rcases Service.opened_of_absent beforeFound found with ⟨_, _, _, _, rfl⟩
          exact ⟨rfl, rfl⟩
      | some earlier =>
          have wasUnsigned : earlier.signedIn = false := by
            rw [Bool.eq_false_iff]
            intro signedIn
            rw [coherent.signedIn_next beforeFound found signedIn] at unsigned
            cases unsigned
          rcases ih beforeFound wasUnsigned with ⟨backlog, pending⟩
          have anonymous := before.anonymous_of_idle beforeFound wasUnsigned backlog pending
          exact ⟨anonymous.backlog_next coherent before.attended beforeFound wasUnsigned found,
            before.pending_next beforeFound found unsigned pending⟩

/-! ## Nothing comes of frames before signing in -/

/-- Without the frames that come too early a run is another run to the same service. -/
theorem heeded (run : Runs maxBody log service) : Runs maxBody (heeded log) service := by
  induction run with
  | new => exact .new
  | @next log service before event allowed ih =>
      rw [heeded_concat]
      split
      · next premature =>
        rw [Service.next_of_premature premature]
        exact ih
      · exact ih.next event allowed

theorem eq_new (run : Runs maxBody [] service) : service = .new maxBody := by
  generalize empty : ([] : List Occurrence) = log at run
  cases run with
  | new => rfl
  | next before event allowed => simp at empty

/-- A run is determined by its events. -/
theorem eq_of_events (run : Runs maxBody log service) (otherRun : Runs maxBody other last)
    (same : log.map (·.event) = other.map (·.event)) : log = other ∧ service = last := by
  induction run generalizing other last with
  | new =>
      obtain rfl := List.map_eq_nil_iff.mp same.symm
      exact ⟨rfl, otherRun.eq_new.symm⟩
  | @next log service before event allowed ih =>
      rcases List.eq_nil_or_concat' other with rfl | ⟨earlier, made, rfl⟩
      · simp at same
      · rcases otherRun.of_concat with ⟨otherBefore, _, rfl⟩
        rw [List.map_append, List.map_append] at same
        rcases List.append_inj' same rfl with ⟨sameEarlier, sameLast⟩
        rcases ih otherBefore sameEarlier with ⟨rfl, rfl⟩
        rcases made with ⟨middle, happened⟩
        cases sameLast
        exact ⟨rfl, rfl⟩

/-- Before it signs in a session learns nothing, and nothing that it sends but the request to sign in
makes a difference: two runs with the same events, apart from such frames, end with the same service,
and every session has got the same answers and the same frames. -/
theorem unsigned_unheard (run : Runs maxBody log service) :
    (∀ id session, service.session? id = some session → session.signedIn = false →
      service.Anonymous id session) ∧
    ∀ other last, Runs maxBody other last →
      (SharedTree.heeded log).map (·.event) = (SharedTree.heeded other).map (·.event) →
        service = last ∧ ∀ id,
          log.filterMap (·.answerTo? id) = other.filterMap (·.answerTo? id) ∧
            log.flatMap (·.drained id) = other.flatMap (·.drained id) := by
  refine ⟨fun _ _ found unsigned => run.anonymous found unsigned, ?_⟩
  intro other last otherRun same
  rcases run.heeded.eq_of_events otherRun.heeded same with ⟨sameHeeded, sameService⟩
  refine ⟨sameService, fun id => ⟨?_, ?_⟩⟩
  · have silent (occurrence : Occurrence) (premature : occurrence.isPremature = true) :
        occurrence.answerTo? id = none := Service.answerTo?_of_premature premature id
    rw [← filterMap_heeded silent, sameHeeded, filterMap_heeded silent]
  · have silent (occurrence : Occurrence) (premature : occurrence.isPremature = true) :
        occurrence.drained id = [] := Service.drained_of_premature premature id
    rw [← flatMap_heeded silent, sameHeeded, flatMap_heeded silent]

/-- Before signing in, the first session tries to create a property and to answer a call, and the third
to watch a value. -/
theorem unsigned_unheard_creation :
    ∃ log service other last session,
      Runs 64 log service ∧ Runs 64 other last ∧ log.length = other.length + 3 ∧
      service.session? 3 = some session ∧ service.Anonymous 3 session ∧ service = last ∧
      service.tree.size = 1 ∧
      log.filterMap (·.answerTo? 1) = other.filterMap (·.answerTo? 1) ∧
      log.flatMap (·.drained 2) = other.flatMap (·.drained 2) ∧
      (log.flatMap (·.drained 2)).length = 1 := by
  have run : Runs 64 [] (.new 64) := .new
  have run := run.next (.opened 8 .sink) (by decide)
  have run := run.next (.opened 8 .sink) (by decide)
  have run := run.next (.opened 8 .sink) (by decide)
  have run := run.serve 2 7 (.signinRequest protocolVersion 0 ⟨0⟩) rfl
  have otherRun := run
  have run := run.serve 1 7 (.createRequest .value [1] "/a") rfl
  have run := run.serve 1 7 (.handleRpcResponse 2 7 [1]) rfl
  have run := run.serve 1 7 (.signinRequest protocolVersion 0 ⟨0⟩) rfl
  have run := run.serve 1 7 (.createRequest .value [1] "/a") rfl
  have run := run.serve 3 7 (.subscribeRequest 100) rfl
  have run := run.next (.drained 2) trivial
  have otherRun := otherRun.serve 1 7 (.signinRequest protocolVersion 0 ⟨0⟩) rfl
  have otherRun := otherRun.serve 1 7 (.createRequest .value [1] "/a") rfl
  have otherRun := otherRun.next (.drained 2) trivial
  have unheard := run.unsigned_unheard
  rcases unheard.2 _ _ otherRun rfl with ⟨sameService, same⟩
  exact ⟨_, _, _, _, _, run, otherRun, rfl, rfl, unheard.1 3 _ rfl rfl, sameService, rfl,
    (same 1).1, (same 2).2, rfl⟩

end Runs

end SharedTree
