import SharedTree.Proofs.Service.Addressed
import SharedTree.Proofs.Service.Mirror

/-!
# Streams of notifications

Whatever is put into the backlog of a session leaves it in frames or still waits, wherever
the frames are cut. As long as the session is not told to stop, everything that was addressed
to it was put there. The first entry that finds no room stops the session, and nothing reaches
a session that was told to stop: a client has either missed nothing or is being disconnected.

`Runs.gapless` says so of every moment of every run.
-/

namespace SharedTree

/-- The entries of the frames that a session was sent, and those that still wait. -/
def streamed (id : SessionId) (log : List Occurrence) (session : Session) : List BacklogEntry :=
  (log.flatMap (·.drained id)).flatMap Frame.entries ++ session.backlog.entries

namespace Occurrence

/-- What an event does to a session that was not told to stop: as many of the addressed entries are
queued as find room, and the session stops when it is told to or there are more. -/
structure Feeds (id : SessionId) (session : Session) (occurrence : Occurrence) : Prop where
  queued : occurrence.queued id = (occurrence.addressed id).take session.room
  stops : ∀ later, occurrence.after.session? id = some later →
    (later.stopped = true ↔ occurrence.event = .stopped id ∨
      session.room < (occurrence.addressed id).length)

/-- What an event does not do to a session that was told to stop. -/
structure Ignores (id : SessionId) (occurrence : Occurrence) : Prop where
  queued : occurrence.queued id = []
  stopped : ∀ session, occurrence.after.session? id = some session → session.stopped = true
  notified : ∀ session, occurrence.before.session? id = some session →
    ∀ update, session.notify update = (false, session)
  unwatched : ∀ handle update payload watchers, occurrence.write? = some (handle, update) →
    occurrence.after.tree.value? handle = some (payload, watchers) → watchers.contains id = false
  uncalled : ∀ uuid endpoint, occurrence.before.callee? uuid ≠ some (endpoint, id)

end Occurrence

namespace Service

variable {service : Service} {event : ServiceEvent} {id : SessionId} {session later : Session}
  {bound : Nat}

open Occurrence (addressed)

theorem queued_of_entries {entries : List BacklogEntry} (found : service.session? id = some session)
    (laterFound : (service.next event).session? id = some later)
    (same : later.backlog.entries = session.backlog.entries ++ entries) :
    Occurrence.queued id ⟨service, event⟩ = entries := by
  rw [Occurrence.queued, Occurrence.after, waiting_of_found found, waiting_of_found laterFound, same,
    List.drop_left]

theorem queued_closed (order : LeaveOrder) : Occurrence.queued id ⟨service, .closed order id⟩ = [] := by
  apply queued_of_waiting_nil
  exact waiting_of_absent (by rw [next, session?_close, if_pos rfl])

theorem drained_of_absent (absent : service.session? id = none) :
    Occurrence.drained id ⟨service, event⟩ = [] := by
  rw [Occurrence.drained_eq_batches, Occurrence.batches_of_absent absent]
  rfl

theorem drained_of_found (found : service.session? id = some session) :
    Occurrence.drained id ⟨service, .drained id⟩ = session.backlog.frames := by
  simp [Occurrence.drained, drain, found, Session.drain]

theorem batches_of_found (found : service.session? id = some session) :
    Occurrence.batches id ⟨service, .drained id⟩ =
      Batch.gather session.backlog.maxBody session.backlog.entries := by
  simp [Occurrence.batches, found]

theorem session?_stop (found : service.session? id = some session) :
    (service.next (.stopped id)).session? id = some session.stop := by
  rw [next, stop, session?_modifySession, if_pos rfl, found, Option.map_some]

theorem Coherent.feeds (coherent : service.Coherent) (attended : Attended bound service.tree)
    (found : service.session? id = some session) (going : session.stopped = false) :
    Occurrence.Feeds id session ⟨service, event⟩ := by
  by_cases isDrained : event = .drained id
  · subst isDrained
    refine ⟨?_, ?_⟩
    · rw [queued_drained found, addressed_drained, List.take_nil]
    · intro later laterFound
      rw [Occurrence.after, Service.next, session?_drain, if_pos rfl, found] at laterFound
      cases laterFound
      simp [addressed_drained, Session.drain, going]
  by_cases isClosed : event.Closes id
  · rcases isClosed with ⟨order, rfl⟩
    refine ⟨?_, ?_⟩
    · rw [queued_closed, addressed_closed, List.take_nil]
    · intro later laterFound
      rw [Occurrence.after, Service.next, session?_close, if_pos rfl] at laterFound
      cases laterFound
  by_cases isStopped : event = .stopped id
  · subst isStopped
    have laterFound := session?_stop found
    refine ⟨?_, ?_⟩
    · rw [addressed_stopped, List.take_nil]
      exact queued_of_entries found laterFound (List.append_nil _).symm
    · intro later isLater
      rw [Occurrence.after, laterFound] at isLater
      cases isLater
      simp [Session.stop]
  rcases coherent.receives_next attended found isDrained isClosed isStopped with
    ⟨later, laterFound, received⟩
  rcases Session.pushAll_of_going (addressed id ⟨service, event⟩) going with ⟨backlog, stops⟩
  refine ⟨?_, ?_⟩
  · apply queued_of_entries found laterFound
    rw [received.backlog, backlog]
  · intro other otherFound
    rw [Occurrence.after, laterFound] at otherFound
    cases otherFound
    rw [received.stopped, stops]
    simp [isStopped]

/-- Whatever happens, what waits in the backlog of a session that is neither drained nor closed is
what waited there and what the event queues. -/
theorem Coherent.entries_next (coherent : service.Coherent)
    (found : service.session? id = some session) (notDrained : event ≠ .drained id)
    (laterFound : (service.next event).session? id = some later) :
    later.backlog.entries = session.backlog.entries ++ Occurrence.queued id ⟨service, event⟩ := by
  have notClosed : ¬event.Closes id := by
    rintro ⟨order, rfl⟩
    rw [Service.next, session?_close, if_pos rfl] at laterFound
    cases laterFound
  rcases coherent.served_next found notDrained notClosed with
    ⟨same, sameFound, entries, pushed, _⟩
  rw [laterFound] at sameFound
  cases sameFound
  rcases pushed.kept with ⟨kept, _, same⟩
  rw [queued_of_entries found laterFound same, same]

/-! ## Sessions that were told to stop -/

/-- A session has been opened and is gone or was told to stop. -/
structure Halted (id : SessionId) (service : Service) : Prop where
  born : id.toNat < service.nextSession.toNat
  stopped : ∀ session, service.session? id = some session → session.stopped = true

namespace Halted

theorem next (halted : Halted id service) (coherent : service.Coherent)
    (allowed : service.Allows event) : Halted id (service.next event) := by
  refine ⟨Nat.lt_of_lt_of_le halted.born (nextSession_le_next allowed), ?_⟩
  intro later laterFound
  cases found : service.session? id with
  | none =>
      rcases opened_of_absent found laterFound with ⟨_, _, _, isNext, _⟩
      have born := halted.born
      rw [isNext] at born
      exact absurd born (Nat.lt_irrefl _)
  | some session =>
      have stopped := halted.stopped session found
      rcases coherent.drained_or_served found laterFound with rfl | ⟨entries, pushed, _⟩
      · exact stopped
      · rw [← Bool.not_eq_false]
        intro going
        rw [(pushed.going going).1] at stopped
        cases stopped

/-- Nothing waits for a session that was told to stop but what waited before. -/
theorem queued (halted : Halted id service) (coherent : service.Coherent)
    (attended : Attended bound service.tree) :
    Occurrence.queued id ⟨service, event⟩ = [] := by
  cases found : service.session? id with
  | none => exact queued_of_absent found
  | some session =>
      by_cases isDrained : event = .drained id
      · rw [isDrained, queued_drained found]
      by_cases isClosed : event.Closes id
      · rcases isClosed with ⟨order, rfl⟩
        exact queued_closed order
      by_cases isStopped : event = .stopped id
      · rw [isStopped]
        exact queued_of_entries found (session?_stop found) (List.append_nil _).symm
      rcases coherent.receives_next attended found isDrained isClosed isStopped with
        ⟨later, laterFound, received⟩
      apply queued_of_entries found laterFound
      rw [received.backlog, Session.pushAll_of_stopped session (halted.stopped session found),
        List.append_nil]

theorem ignores (halted : Halted id service) (coherent : service.Coherent)
    (attended : Attended bound service.tree) (allowed : service.Allows event) :
    Occurrence.Ignores id ⟨service, event⟩ where
  queued := halted.queued coherent attended
  stopped := (halted.next coherent allowed).stopped
  notified session found update := by simp [Session.notify, halted.stopped session found]
  unwatched handle update payload watchers written isLeft :=
    coherent.unwatched_of_write? written attended halted.stopped isLeft
  uncalled uuid endpoint callee := by
    rcases (callee?_eq_some callee).2.2 with ⟨answerer, listed, going⟩
    rw [halted.stopped answerer (session?_of_listed? listed)] at going
    cases going

end Halted

/-! ## The size of backlogs -/

/-- What happens to a session keeps the bound of its backlog, and the backlog within the bound. -/
theorem kept_bounded : Session.Kept (fun _ => True) fun before after =>
    after.backlog.maxEntries = before.backlog.maxEntries ∧
      (before.backlog.size ≤ before.backlog.maxEntries →
        after.backlog.size ≤ after.backlog.maxEntries) where
  refl _ := ⟨rfl, fun within => within⟩
  trans _ _ _ first second :=
    ⟨second.1.trans first.1, fun within => second.2 (first.2 within)⟩
  push entry session _ := by
    rcases session.push_cases entry with ⟨_, same⟩ | ⟨_, _, same⟩ | ⟨_, free, same⟩
    · rw [same]
      exact ⟨rfl, fun within => within⟩
    · rw [same]
      exact ⟨rfl, fun within => within⟩
    · rw [same]
      refine ⟨rfl, fun _ => ?_⟩
      simpa [Backlog.size] using Nat.succ_le_of_lt free
  withPending _ _ := ⟨rfl, fun within => within⟩
  stop _ := ⟨rfl, fun within => within⟩

end Service

namespace Runs

variable {maxBody : Nat} {log : List Occurrence} {service : Service} {id : SessionId}
  {session : Session}

/-- A backlog never holds more entries than the session was opened for. -/
theorem bounded (run : Runs maxBody log service) (found : service.session? id = some session) :
    session.backlog.size ≤ session.backlog.maxEntries ∧
      ∃ opening ∈ log, ∃ transport,
        opening.event = .opened session.backlog.maxEntries transport ∧
          opening.before.nextSession = id := by
  induction run generalizing session with
  | new => cases found
  | @next log service before event allowed ih =>
      cases wasFound : service.session? id with
      | none =>
          rcases Service.opened_of_absent wasFound found with ⟨_, transport, rfl, rfl, rfl⟩
          exact ⟨Nat.zero_le _, _, List.mem_concat_self, transport, rfl, rfl⟩
      | some earlier =>
          rcases ih wasFound with ⟨within, opening, mem, opened⟩
          have kept : session.backlog.maxEntries = earlier.backlog.maxEntries ∧
              session.backlog.size ≤ session.backlog.maxEntries := by
            rcases before.coherent.drained_or_related Service.kept_bounded
              (fun _ _ _ => ⟨rfl, fun within => within⟩) (fun _ => ⟨rfl, fun within => within⟩)
              (fun _ _ => trivial) wasFound found with rfl | ⟨same, stays⟩
            · exact ⟨rfl, Nat.zero_le _⟩
            · exact ⟨same, stays within⟩
          rw [kept.1]
          exact ⟨kept.1 ▸ kept.2, opening, List.mem_append_left _ mem, opened⟩

theorem regular (run : Runs maxBody log service) (found : service.session? id = some session) :
    ∀ entry ∈ session.backlog.entries, Session.Regular entry := by
  induction run generalizing session with
  | new => cases found
  | @next log service before event allowed ih =>
      intro entry mem
      cases wasFound : service.session? id with
      | none =>
          rcases Service.opened_of_absent wasFound found with ⟨_, _, _, _, rfl⟩
          cases mem
      | some earlier =>
          rcases before.coherent.drained_or_served wasFound found with
            rfl | ⟨entries, pushed, queues⟩
          · cases mem
          · rcases pushed.mem_of_mem mem with waited | isNew
            · exact ih wasFound entry waited
            · exact (queues entry isNew).regular

/-- Whatever was queued has left in frames or still waits. -/
theorem streamed_eq_queued (run : Runs maxBody log service)
    (fits : ∀ occurrence ∈ log, occurrence.Fits id)
    (found : service.session? id = some session) :
    streamed id log session = log.flatMap (·.queued id) := by
  induction run generalizing session with
  | new => cases found
  | @next log service before event allowed ih =>
      simp only [streamed, List.flatMap_append, List.flatMap_singleton]
      cases wasFound : service.session? id with
      | none =>
          rcases Service.opened_of_absent wasFound found with ⟨_, _, rfl, rfl, rfl⟩
          have unsent : log.flatMap (·.drained service.nextSession) = [] :=
            before.flatMap_unborn (Nat.le_refl _) fun _ _ => Service.drained_of_absent
          have unqueued : log.flatMap (·.queued service.nextSession) = [] :=
            before.flatMap_unborn (Nat.le_refl _) fun _ _ => Service.queued_of_absent
          rw [unsent, unqueued, Service.drained_of_absent wasFound,
            Service.queued_of_absent wasFound]
          rfl
      | some earlier =>
          have sooner := ih (fun occurrence mem => fits occurrence (List.mem_append_left _ mem))
            wasFound
          rw [← sooner, streamed]
          by_cases isDrained : event = .drained id
          · subst isDrained
            have fitting := fits _ List.mem_concat_self
            rw [Service.next, Service.session?_drain, if_pos rfl, wasFound] at found
            cases found
            rw [Service.queued_drained wasFound, Service.drained_of_found wasFound,
              Backlog.flatMap_entries_frames (Service.batches_of_found wasFound ▸ fitting)
                fun frame mem => (before.regular wasFound _ mem).entries_eq]
            simp [Session.drain, Backlog.clear]
          · rw [Occurrence.drained_eq_batches, Occurrence.batches_of_ne isDrained,
              before.coherent.entries_next wasFound isDrained found]
            simp

/-- As long as a session is not told to stop, whatever was addressed to it was queued. -/
theorem queued_eq_addressed (run : Runs maxBody log service)
    (found : service.session? id = some session) (going : session.stopped = false) :
    log.flatMap (·.queued id) = log.flatMap (·.addressed id) := by
  induction run generalizing session with
  | new => cases found
  | @next log service before event allowed ih =>
      simp only [List.flatMap_append, List.flatMap_singleton]
      cases wasFound : service.session? id with
      | none =>
          rcases Service.opened_of_absent wasFound found with ⟨_, _, rfl, rfl, rfl⟩
          have unqueued : log.flatMap (·.queued service.nextSession) = [] :=
            before.flatMap_unborn (Nat.le_refl _) fun _ _ => Service.queued_of_absent
          have unaddressed : log.flatMap (·.addressed service.nextSession) = [] :=
            before.flatMap_unborn (Nat.le_refl _) fun _ _ => Service.addressed_of_absent
          rw [unqueued, unaddressed, Service.queued_of_absent wasFound,
            Service.addressed_of_absent wasFound]
      | some earlier =>
          have wasGoing : earlier.stopped = false := by
            rcases before.coherent.drained_or_served wasFound found with
              rfl | ⟨entries, pushed, _⟩
            · exact going
            · exact (pushed.going going).1
          have fed : Occurrence.Feeds id earlier ⟨service, event⟩ :=
            before.coherent.feeds before.attended wasFound wasGoing
          have room := mt (fed.stops session found).mpr (by simp [going])
          rw [ih wasFound wasGoing, fed.queued, List.take_of_length_le]
          exact Nat.le_of_not_lt fun tooMany => room (Or.inr tooMany)

/-- A session that was told to stop is ignored for the rest of a run. -/
theorem ignored {earlier later : List Occurrence} {made : Occurrence}
    (run : Runs maxBody (earlier ++ made :: later) service)
    (found : made.before.session? id = some session) (stopped : session.stopped = true) :
    ∀ occurrence ∈ made :: later, occurrence.Ignores id := by
  rcases run.before_made with ⟨before, allowed, _⟩
  have halted : Service.Halted id made.before := by
    refine ⟨(before.coherent.numbered _ _ found).2, ?_⟩
    intro same sameFound
    rw [found] at sameFound
    cases sameFound
    exact stopped
  have rest : Service.Halted id service ∧ ∀ occurrence ∈ later, occurrence.Ignores id := by
    rw [List.append_cons] at run
    refine run.induction_after (motive := fun later service =>
      Service.Halted id service ∧ ∀ occurrence ∈ later, occurrence.Ignores id) ?_ ?_
    · intro first untilMade
      rcases untilMade.of_concat with ⟨_, _, rfl⟩
      exact ⟨halted.next before.coherent allowed, nofun⟩
    · rintro rest middle event untilMiddle allowed ⟨stillHalted, ignored⟩
      refine ⟨stillHalted.next untilMiddle.coherent allowed, ?_⟩
      intro occurrence mem
      rcases List.mem_append.mp mem with old | last
      · exact ignored occurrence old
      · rw [List.mem_singleton.mp last]
        exact stillHalted.ignores untilMiddle.coherent untilMiddle.attended allowed
  intro occurrence mem
  rcases List.mem_cons.mp mem with rfl | isLater
  · exact halted.ignores before.coherent before.attended allowed
  · exact rest.2 occurrence isLater

end Runs

/-- The stream of notifications of a session has no gaps. -/
structure Gapless (id : SessionId) (log : List Occurrence) (service : Service) : Prop where
  complete : ∀ session, service.session? id = some session → session.stopped = false →
    streamed id log session = log.flatMap (·.addressed id)
  conserved : ∀ session, service.session? id = some session →
    streamed id log session = log.flatMap (·.queued id)
  bounded : ∀ session, service.session? id = some session →
    session.backlog.size ≤ session.backlog.maxEntries ∧
      ∃ opening ∈ log, ∃ transport,
        opening.event = .opened session.backlog.maxEntries transport ∧
          opening.before.nextSession = id
  fed : ∀ occurrence ∈ log, ∀ session, occurrence.before.session? id = some session →
    session.stopped = false → occurrence.Feeds id session
  ignored : ∀ earlier made later, log = earlier ++ made :: later →
    ∀ session, made.before.session? id = some session → session.stopped = true →
      ∀ occurrence ∈ made :: later, occurrence.Ignores id

namespace Runs

variable {maxBody : Nat} {log : List Occurrence} {service : Service} {id : SessionId}

/-- At every moment of every run, what a session that was not told to stop has been sent and what
waits for it are exactly what was addressed to it, in order. Its backlog is never longer than it may
be, an event that addresses more than finds room stops it, and nothing reaches it from then on. -/
theorem gapless (run : Runs maxBody log service)
    (fits : ∀ occurrence ∈ log, occurrence.Fits id) : Gapless id log service where
  complete _ found going :=
    (run.streamed_eq_queued fits found).trans (run.queued_eq_addressed found going)
  conserved _ found := run.streamed_eq_queued fits found
  bounded _ found := run.bounded found
  fed := by
    intro occurrence mem session found going
    rcases List.append_of_mem mem with ⟨earlier, later, rfl⟩
    rcases run.before_made with ⟨before, _, _⟩
    exact before.coherent.feeds before.attended found going
  ignored := by
    rintro earlier made later rfl session found stopped
    exact run.ignored found stopped

theorem gapless_overflow :
    ∃ log service session, Runs 64 log service ∧ service.session? 1 = some session ∧
      session.stopped = true ∧ (log.flatMap (·.addressed 1)).length = 6 ∧
      (log.flatMap (·.queued 1)).length = 4 ∧ Gapless 1 log service := by
  have serve {log : List Occurrence} {service : Service} {frame : Frame}
      (before : Runs 64 log service) (sender : SessionId) (message : Message)
      (_ : Frame.ofMessage message 7 = .ok frame) :=
    before.next (.frame .stored sender frame) trivial
  have run : Runs 64 [] (.new 64) := .new
  have run := run.next (.opened 2 .sink) (by decide)
  have run := run.next (.opened 8 .sink) (by decide)
  have run := serve run 1 (.signinRequest protocolVersion 0 ⟨0⟩) rfl
  have run := serve run 2 (.signinRequest protocolVersion 0 ⟨0⟩) rfl
  have run := serve run 2 (.createRequest .value [] "/a") rfl
  have run := serve run 1 (.subscribeRequest 100) rfl
  have run := serve run 2 (.setValueIndication ⟨100, [1]⟩) rfl
  have run := run.next (.drained 1) trivial
  have run := serve run 2 (.setValueIndication ⟨100, [2]⟩) rfl
  have run := serve run 2 (.deleteRequest "/a") rfl
  have run := serve run 2 (.createRequest .value [] "/b") rfl
  have run := serve run 2 (.deleteRequest "/b") rfl
  have run := run.next (.drained 1) trivial
  exact ⟨_, _, _, run, rfl, rfl, rfl, rfl, run.gapless (by decide +kernel)⟩

end Runs

end SharedTree
