import SharedTree.Proofs.Service.Carried

/-!
# Events

What happens to a service is a sequence of events: sessions are opened, hand in frames, are
stopped, leave the list, are closed, and have their backlogs drained. An occurrence is an
event together with the service that it happened to.

Every event keeps the tree sound and the sessions under their own numbers, which are never
given twice. A session that is neither drained nor closed only ever has entries pushed into
its backlog.
-/

namespace SharedTree

/-- Something that happens to a service. -/
inductive ServiceEvent where
  | opened (maxEntries : Nat) (transport : Transport)
  | frame (order : VisitOrder) (sender : SessionId) (frame : Frame)
  | stopped (id : SessionId)
  | unlisted (order : LeaveOrder) (id : SessionId)
  | closed (order : LeaveOrder) (id : SessionId)
  | drained (id : SessionId)

namespace ServiceEvent

/-- The session that hands in a frame. -/
def sender? : ServiceEvent → Option SessionId
  | .frame _ sender _ => some sender
  | _ => none

/-- A session leaves the list. -/
def Unlists (id : SessionId) (event : ServiceEvent) : Prop := ∃ order, event = .unlisted order id

/-- A session is closed. -/
def Closes (id : SessionId) (event : ServiceEvent) : Prop := ∃ order, event = .closed order id

end ServiceEvent

namespace Service

/-- The service after an event. -/
def next (service : Service) : ServiceEvent → Service
  | .opened maxEntries transport => (service.openSession maxEntries transport).2
  | .frame order sender frame => (service.handle order sender frame).1
  | .stopped id => service.stop id
  | .unlisted order id => (service.unlist order id).2
  | .closed order id => (service.close order id).2
  | .drained id => (service.drain id).2

/-- Whether an event can happen. The numbers of sessions do not run out. -/
def Allows (service : Service) : ServiceEvent → Prop
  | .opened _ _ => service.nextSession.toNat + 1 < UInt64.size
  | _ => True

instance (service : Service) (event : ServiceEvent) : Decidable (service.Allows event) :=
  match event with
  | .opened _ _ => inferInstanceAs (Decidable (_ < _))
  | .frame .. | .stopped _ | .unlisted .. | .closed .. | .drained _ => .isTrue trivial

/-- What waits in the backlog of a session. -/
def waiting (service : Service) (id : SessionId) : List BacklogEntry :=
  match service.session? id with
  | none => []
  | some session => session.backlog.entries

end Service

/-- An event and the service that it happened to. -/
structure Occurrence where
  before : Service
  event : ServiceEvent

namespace Occurrence

/-- The service after the event. -/
def after (occurrence : Occurrence) : Service := occurrence.before.next occurrence.event

/-- The frame that the sender of a frame is answered with. -/
def answer? (occurrence : Occurrence) : Option Frame :=
  match occurrence.event with
  | .frame order sender frame => (occurrence.before.handle order sender frame).2
  | _ => none

/-- The batches that leave the backlog of a session. -/
def batches (id : SessionId) (occurrence : Occurrence) : List Batch :=
  match occurrence.event, occurrence.before.session? id with
  | .drained other, some session =>
    if other = id then Batch.gather session.backlog.maxBody session.backlog.entries else []
  | _, _ => []

/-- The frames that leave the backlog of a session. -/
def drained (id : SessionId) (occurrence : Occurrence) : List Frame :=
  match occurrence.event with
  | .drained other => if other = id then (occurrence.before.drain id).1 else []
  | _ => []

/-- What is put into the backlog of a session. -/
def queued (id : SessionId) (occurrence : Occurrence) : List BacklogEntry :=
  (occurrence.after.waiting id).drop (occurrence.before.waiting id).length

/-- The event makes the property with a handle exist. -/
def Creates (handle : Handle) (occurrence : Occurrence) : Prop :=
  occurrence.before.tree.exists? handle = false ∧ occurrence.after.tree.exists? handle = true

theorem drained_eq_batches (id : SessionId) (occurrence : Occurrence) :
    occurrence.drained id = (occurrence.batches id).filterMap Batch.toFrame? := by
  rcases occurrence with ⟨service, event⟩
  cases event with
  | drained other =>
      by_cases same : other = id
      · cases found : service.session? id <;>
          simp [drained, batches, same, Service.drain, found, Session.drain, Backlog.frames]
      · cases found : service.session? id <;> simp [drained, batches, same, found]
  | opened _ _ | frame _ _ _ | stopped _ | unlisted _ _ | closed _ _ => simp [drained, batches]

theorem batches_of_ne {id : SessionId} {service : Service} {event : ServiceEvent}
    (notDrained : event ≠ .drained id) : batches id ⟨service, event⟩ = [] := by
  unfold batches
  split
  · next other session isDrain _ =>
    refine if_neg ?_
    rintro rfl
    exact notDrained isDrain
  · rfl

theorem batches_of_absent {id : SessionId} {occurrence : Occurrence}
    (absent : occurrence.before.session? id = none) : occurrence.batches id = [] := by
  unfold batches
  rw [absent]
  split
  · next impossible => cases impossible
  · rfl

end Occurrence

namespace Service

variable {service : Service} {event : ServiceEvent}

/-! ## What every event keeps -/

/-- The tree is sound, and sessions are kept under their own numbers, which are below the next. -/
structure Coherent (service : Service) : Prop where
  sound : service.tree.Sound
  numbered : ∀ id session, service.session? id = some session →
    session.id = id ∧ id.toNat < service.nextSession.toNat

theorem session?_openSession (service : Service) (maxEntries : Nat) (transport : Transport)
    (id : SessionId) :
    (service.openSession maxEntries transport).2.session? id =
      if id = service.nextSession then some
        { id := service.nextSession, backlog := { maxBody := service.maxBody, maxEntries },
          channel := { transport } }
      else service.session? id :=
  Table.find?_insert _ _ _ _

theorem session?_drain (service : Service) (id other : SessionId) :
    (service.drain id).2.session? other =
      if other = id then (service.session? other).map fun session => session.drain.2
      else service.session? other := by
  unfold drain
  cases found : service.session? id with
  | none =>
      dsimp only
      split
      · next same => rw [same, found, Option.map_none]
      · rfl
  | some session =>
      dsimp only
      rw [session?_modifySession]
      split
      · next same => rw [same, found, Option.map_some, Option.map_some]
      · rfl

theorem drain_rest (service : Service) (id : SessionId) :
    (service.drain id).2.tree = service.tree ∧
      (service.drain id).2.nextSession = service.nextSession ∧
      (service.drain id).2.maxBody = service.maxBody := by
  unfold drain
  split <;> exact ⟨rfl, rfl, rfl⟩

/-- What an event puts into backlogs. -/
inductive Queues (service : Service) : ServiceEvent → BacklogEntry → Prop where
  | sent {order : VisitOrder} {sender : SessionId} {frame : Frame} {entry : BacklogEntry}
      (sends : service.Sends sender frame entry) : Queues service (.frame order sender frame) entry
  | unlisted {order : LeaveOrder} {id : SessionId} {transaction : TransactionId}
      {entry : BacklogEntry} (isAnswer : entry ∈ Session.answerEntries transaction []) :
      Queues service (.unlisted order id) entry
  | closed {order : LeaveOrder} {id : SessionId} {transaction : TransactionId}
      {entry : BacklogEntry} (isAnswer : entry ∈ Session.answerEntries transaction []) :
      Queues service (.closed order id) entry

/-- Sessions that exist go on, unless they are drained or closed, with no entries pushed but those
that the event queues. -/
theorem Coherent.carried_of_queues (coherent : service.Coherent) {allowed : BacklogEntry → Prop}
    {relation : Session → Session → Prop} (kept : Session.Kept allowed relation)
    (signIn : ∀ refreshRate features session,
      relation session (session.signIn refreshRate features))
    {id : SessionId} {session : Session} (found : service.session? id = some session)
    (notDrained : event ≠ .drained id) (notClosed : ¬event.Closes id)
    (unlists : event.Unlists id →
      ∀ session, relation session { session with listed := false })
    (allows : ∀ entry, service.Queues event entry → allowed entry) :
    Carried relation (service.session? id) ((service.next event).session? id) := by
  cases event with
  | opened maxEntries transport =>
      rw [next, session?_openSession, if_neg]
      · exact .refl kept.refl _
      · rintro rfl
        exact Nat.lt_irrefl _ (coherent.numbered _ _ found).2
  | frame order sender frame =>
      exact (handled_handle service order sender frame).carried_of_sends kept signIn
        (fun entry sends => allows entry (.sent sends)) id
  | stopped other => exact .modify kept.refl service other kept.stop id
  | unlisted order other =>
      refine carried_unlist kept (fun _ entry isAnswer => allows entry (.unlisted isAnswer)) service
        order other id ?_
      rintro rfl
      exact unlists ⟨order, rfl⟩
  | closed order other =>
      have different : id ≠ other := by
        rintro rfl
        exact notClosed ⟨order, rfl⟩
      rw [next, session?_close, if_neg different]
      exact carried_unlist kept (fun _ entry isAnswer => allows entry (.closed isAnswer)) service
        order other id fun same => absurd same different
  | drained other =>
      rw [next, session?_drain, if_neg]
      · exact .refl kept.refl _
      · rintro rfl
        exact notDrained rfl

theorem Queues.regular {entry : BacklogEntry} (queues : service.Queues event entry) :
    Session.Regular entry := by
  cases queues with
  | sent sends => exact sends.regular
  | unlisted isAnswer => exact Session.Regular.answer isAnswer
  | closed isAnswer => exact Session.Regular.answer isAnswer

/-- What waits in the backlog of a session that goes on waited there before, or the event queues
it. -/
theorem Coherent.served_next (coherent : service.Coherent) {id : SessionId} {session : Session}
    (found : service.session? id = some session) (notDrained : event ≠ .drained id)
    (notClosed : ¬event.Closes id) :
    ∃ later, (service.next event).session? id = some later ∧
      session.Served (service.Queues event) later :=
  (coherent.carried_of_queues (Session.Served.kept _) (Session.Served.signIn _) found notDrained
    notClosed (fun _ => Session.Served.unlist _) fun _ queues => queues).present session found

/-- A session that stays is drained, or goes on with no entries pushed but those that the event
queues. -/
theorem Coherent.drained_or_related (coherent : service.Coherent) {allowed : BacklogEntry → Prop}
    {relation : Session → Session → Prop} (kept : Session.Kept allowed relation)
    (signIn : ∀ refreshRate features session,
      relation session (session.signIn refreshRate features))
    (unlists : ∀ session, relation session { session with listed := false })
    (allows : ∀ entry, service.Queues event entry → allowed entry) {id : SessionId}
    {session later : Session} (found : service.session? id = some session)
    (laterFound : (service.next event).session? id = some later) :
    later = session.drain.2 ∨ relation session later := by
  by_cases isDrained : event = .drained id
  · rw [isDrained, next, session?_drain, if_pos rfl, found] at laterFound
    cases laterFound
    exact Or.inl rfl
  · by_cases isClosed : event.Closes id
    · rcases isClosed with ⟨order, rfl⟩
      rw [next, session?_close, if_pos rfl] at laterFound
      cases laterFound
    · rcases (coherent.carried_of_queues kept signIn found isDrained isClosed (fun _ => unlists)
        allows).present session found with ⟨same, sameFound, related⟩
      rw [laterFound] at sameFound
      cases sameFound
      exact Or.inr related

theorem Coherent.drained_or_served (coherent : service.Coherent) {id : SessionId}
    {session later : Session} (found : service.session? id = some session)
    (laterFound : (service.next event).session? id = some later) :
    later = session.drain.2 ∨ session.Served (service.Queues event) later :=
  coherent.drained_or_related (Session.Served.kept _) (Session.Served.signIn _)
    (Session.Served.unlist _) (fun _ queues => queues) found laterFound

/-- A session that appears has just been opened. -/
theorem opened_of_absent {id : SessionId} {session : Session}
    (absent : service.session? id = none)
    (found : (service.next event).session? id = some session) :
    ∃ maxEntries transport, event = .opened maxEntries transport ∧ id = service.nextSession ∧
      session = { id := service.nextSession,
                  backlog := { maxBody := service.maxBody, maxEntries },
                  channel := { transport } } := by
  have kept := Session.Served.kept Session.Regular
  have unlists (order : LeaveOrder) (other : SessionId) := carried_unlist kept
    (fun _ _ => Session.Regular.answer) service order other id fun _ => Session.Served.unlist _
  cases event with
  | opened maxEntries transport =>
      rw [next, session?_openSession] at found
      split at found
      · next same => exact ⟨maxEntries, transport, rfl, same, (Option.some.inj found).symm⟩
      · rw [absent] at found
        cases found
  | frame order sender frame =>
      rw [next, ((handled_handle service order sender frame).served id).absent absent] at found
      cases found
  | stopped other =>
      have carried := Carried.modify kept.refl service other kept.stop id
      rw [next, stop, carried.absent absent] at found
      cases found
  | unlisted order other =>
      rw [next, (unlists order other).absent absent] at found
      cases found
  | closed order other =>
      rw [next, session?_close, (unlists order other).absent absent] at found
      split at found <;> cases found
  | drained other =>
      rw [next, session?_drain, absent] at found
      split at found <;> cases found

theorem nextSession_opened {maxEntries : Nat} {transport : Transport}
    (allowed : service.Allows (.opened maxEntries transport)) :
    (service.next (.opened maxEntries transport)).nextSession.toNat =
      service.nextSession.toNat + 1 := by
  have room : service.nextSession.toNat + 1 < UInt64.size := allowed
  show (service.nextSession + 1).toNat = _
  rw [UInt64.toNat_add]
  exact Nat.mod_eq_of_lt room

theorem nextSession_le_next (allowed : service.Allows event) :
    service.nextSession.toNat ≤ (service.next event).nextSession.toNat := by
  cases event with
  | opened maxEntries transport =>
      rw [nextSession_opened allowed]
      exact Nat.le_succ _
  | frame order sender frame =>
      rw [next, (handled_handle service order sender frame).rest.1]
  | stopped other => exact Nat.le_refl _
  | unlisted order other => rw [next, (unlist_rest _ _ _).2.1]
  | closed order other => rw [next, (close_rest _ _ _).2.1]
  | drained other => rw [next, (drain_rest _ _).2.1]

theorem sound_next (sound : service.tree.Sound) (event : ServiceEvent) :
    (service.next event).tree.Sound := by
  cases event with
  | opened maxEntries transport => exact sound
  | frame order sender frame => exact (handled_handle service order sender frame).sound sound
  | stopped other => exact sound
  | unlisted order other => exact (unlist_rest _ _ _).1.quiet.sound sound
  | closed order other => exact (close_rest _ _ _).1.quiet.sound sound
  | drained other =>
      rw [next, (drain_rest _ _).1]
      exact sound

/-- What appears in the tree was created by the sender of a frame. -/
theorem grown_next (coherent : service.Coherent) (event : ServiceEvent) :
    ∃ owner?, service.tree.Grown (service.next event).tree owner? ∧ ∀ id, owner? = some id →
      (∃ order frame, event = .frame order id frame) ∧
        ∃ session, service.session? id = some session ∧ session.signedIn = true := by
  have without (quiet : service.tree.Quiet (service.next event).tree) : ∃ owner?,
      service.tree.Grown (service.next event).tree owner? ∧ ∀ id, owner? = some id →
        (∃ order frame, event = .frame order id frame) ∧
          ∃ session, service.session? id = some session ∧ session.signedIn = true :=
    ⟨none, quiet.grown none, fun _ impossible => nomatch impossible⟩
  cases event with
  | opened maxEntries transport => exact without (.refl _)
  | frame order sender frame =>
      rcases (handled_handle service order sender frame).grown with ⟨owner?, grown, isOwner⟩
      refine ⟨owner?, grown, ?_⟩
      intro id isId
      rcases isOwner id isId with ⟨session, found, signedIn, rfl⟩
      have same := (coherent.numbered _ _ found).1
      rw [same]
      exact ⟨⟨order, frame, rfl⟩, session, found, signedIn⟩
  | stopped other => exact without (.refl _)
  | unlisted order other => exact without (unlist_rest _ _ _).1.quiet
  | closed order other => exact without (close_rest _ _ _).1.quiet
  | drained other =>
      apply without
      rw [next, (drain_rest _ _).1]
      exact .refl _

namespace Coherent

theorem new (maxBody : Nat) : (Service.new maxBody).Coherent := by
  refine ⟨Tree.sound_new, ?_⟩
  intro id session impossible
  cases impossible

theorem session?_unborn (coherent : service.Coherent) {id : SessionId}
    (unborn : service.nextSession.toNat ≤ id.toNat) : service.session? id = none := by
  rw [Option.eq_none_iff_forall_ne_some]
  intro session found
  exact absurd (coherent.numbered id session found).2 (Nat.not_lt.mpr unborn)

theorem numbered_next (coherent : service.Coherent) (allowed : service.Allows event)
    {id : SessionId} {session : Session} (found : (service.next event).session? id = some session) :
    session.id = id ∧ id.toNat < (service.next event).nextSession.toNat := by
  cases beforeFound : service.session? id with
  | none =>
      rcases opened_of_absent beforeFound found with ⟨maxEntries, transport, rfl, rfl, rfl⟩
      refine ⟨rfl, ?_⟩
      rw [nextSession_opened allowed]
      exact Nat.lt_succ_self _
  | some before =>
      have numbered := coherent.numbered id before beforeFound
      refine ⟨?_, Nat.lt_of_lt_of_le numbered.2 (nextSession_le_next allowed)⟩
      rcases coherent.drained_or_served beforeFound found with rfl | ⟨entries, pushed, _⟩
      · exact numbered.1
      · exact pushed.id.trans numbered.1

theorem next (coherent : service.Coherent) (allowed : service.Allows event) :
    (service.next event).Coherent :=
  ⟨sound_next coherent.sound event, fun _ _ found => coherent.numbered_next allowed found⟩

end Coherent

variable {id : SessionId} {session later : Session}

/-! ## Sessions that stay -/

/-- A session that is listed and goes on after an event was listed and went on before it. -/
theorem Coherent.going_of_next (coherent : service.Coherent)
    (born : id.toNat < service.nextSession.toNat)
    (listed : (service.next event).listed? id = some later) (going : later.stopped = false) :
    ∃ session, service.listed? id = some session ∧ session.stopped = false ∧
      ¬event.Closes id ∧ ¬event.Unlists id := by
  rcases (listed?_eq_some_iff _ _ _).mp listed with ⟨laterFound, isListed⟩
  cases found : service.session? id with
  | none =>
      rcases opened_of_absent found laterFound with ⟨_, _, _, same, _⟩
      rw [same] at born
      exact absurd born (Nat.lt_irrefl _)
  | some session =>
      have notClosed : ¬event.Closes id := by
        rintro ⟨order, rfl⟩
        rw [Service.next, session?_close, if_pos rfl] at laterFound
        cases laterFound
      suffices stays : session.listed = true ∧ session.stopped = false by
        have wasListed := (service.listed?_eq_some_iff id session).mpr ⟨found, stays.1⟩
        refine ⟨session, wasListed, stays.2, notClosed, ?_⟩
        rintro ⟨order, rfl⟩
        rw [Service.next, session?_unlist wasListed, if_pos rfl, found] at laterFound
        cases laterFound
        cases isListed
      rcases coherent.drained_or_served found laterFound with rfl | ⟨entries, pushed, _⟩
      · exact ⟨isListed, going⟩
      · exact ⟨pushed.listed isListed, (pushed.going going).1⟩

/-- A session stays signed in. -/
theorem Coherent.signedIn_next (coherent : service.Coherent)
    (found : service.session? id = some session)
    (laterFound : (service.next event).session? id = some later)
    (signedIn : session.signedIn = true) : later.signedIn = true := by
  rcases coherent.drained_or_served found laterFound with rfl | ⟨entries, pushed, _⟩
  · exact signedIn
  · exact pushed.signedIn signedIn

theorem kept_sameListing :
    Session.Kept (fun _ => True) fun before after => after.listed = before.listed where
  refl _ := rfl
  trans _ _ _ first second := second.trans first
  push entry session _ := session.listed_push entry
  withPending _ _ := rfl
  stop _ := rfl

/-- A listed session stays listed until it is taken off the list or closed. -/
theorem Coherent.listed_next (coherent : service.Coherent)
    (listed : service.listed? id = some session) (notUnlisted : ¬event.Unlists id)
    (notClosed : ¬event.Closes id) :
    ∃ later, (service.next event).listed? id = some later := by
  rcases (listed?_eq_some_iff _ _ _).mp listed with ⟨found, isListed⟩
  by_cases isDrained : event = .drained id
  · refine ⟨session.drain.2, (listed?_eq_some_iff _ _ _).mpr ⟨?_, isListed⟩⟩
    rw [isDrained, Service.next, session?_drain, if_pos rfl, found]
    rfl
  · rcases (coherent.carried_of_queues kept_sameListing (fun _ _ _ => rfl) found isDrained notClosed
      (fun impossible => absurd impossible notUnlisted) fun _ _ => trivial).present session found with
      ⟨later, laterFound, same⟩
    exact ⟨later, (listed?_eq_some_iff _ _ _).mpr ⟨laterFound, same.trans isListed⟩⟩

end Service

end SharedTree
