import SharedTree.Proofs.Service.Offline
import SharedTree.Proofs.Service.Streams
import SharedTree.Proofs.Session.Writing

/-!
# Where sessions and services meet

To its service a session is a backlog that entries are put into, and its channel does not count.
What a session does when it sends does not count either. `Service.Hosts` says that a session is
there, and is kept by the events of the service and by the steps of the session.
-/

namespace SharedTree

/-- What a session becomes that sends nothing while entries are put into its backlog. -/
structure Session.Fed (before : Session) (entries : List BacklogEntry) (after : Session) : Prop
    where
  channel : after.channel = before.channel
  listed : after.listed = before.listed
  framingErrors : after.framingErrors = before.framingErrors
  appended : after.backlog.entries = before.backlog.entries ++ entries
  stays : before.stopped = true → after.stopped = true
  regular : ∀ entry ∈ entries, Session.Regular entry

theorem Session.fed_push {session : Session} {entry : BacklogEntry}
    (regular : Session.Regular entry) (going : (session.push entry).stopped = false) :
    session.Fed [entry] (session.push entry) := by
  have isRegular : ∀ other ∈ [entry], Session.Regular other := by simpa using regular
  rcases session.push_cases entry with ⟨stopped, same⟩ | ⟨_, _, same⟩ | ⟨_, _, same⟩
  · rw [same, stopped] at going
    cases going
  · rw [same] at going
    cases going
  · rw [same]
    exact ⟨rfl, rfl, rfl, rfl, fun stopped => stopped, isRegular⟩

namespace Service

variable {service : Service} {id : SessionId} {session : Session} {event : ServiceEvent}

theorem Coherent.modifySession (coherent : service.Coherent) (other : SessionId)
    {change : Session → Session} (keeps : ∀ session, (change session).id = session.id) :
    (service.modifySession other change).Coherent := by
  refine ⟨coherent.sound, fun id later found => ?_⟩
  rw [session?_modifySession] at found
  split at found
  · rcases Option.map_eq_some_iff.mp found with ⟨session, wasFound, rfl⟩
    rw [keeps]
    exact coherent.numbered id session wasFound
  · exact coherent.numbered id later found

theorem kept_channel : Session.Kept (fun _ => True) fun before after =>
    after.channel = before.channel ∧ after.listed = before.listed ∧
      after.framingErrors = before.framingErrors ∧
      (before.stopped = true → after.stopped = true) where
  refl _ := ⟨rfl, rfl, rfl, fun stopped => stopped⟩
  trans _ _ _ first second := ⟨second.1.trans first.1, second.2.1.trans first.2.1,
    second.2.2.1.trans first.2.2.1, fun stopped => second.2.2.2 (first.2.2.2 stopped)⟩
  push entry session _ := by
    rcases session.push_cases entry with ⟨_, same⟩ | ⟨_, _, same⟩ | ⟨_, _, same⟩ <;> rw [same]
    · exact ⟨rfl, rfl, rfl, fun stopped => stopped⟩
    · exact ⟨rfl, rfl, rfl, fun _ => rfl⟩
    · exact ⟨rfl, rfl, rfl, fun stopped => stopped⟩
  withPending _ _ := ⟨rfl, rfl, rfl, fun stopped => stopped⟩
  stop _ := ⟨rfl, rfl, rfl, fun _ => rfl⟩

/-- An event makes a session send nothing, whatever it queues. -/
theorem Coherent.fed_next (coherent : service.Coherent) (found : service.session? id = some session)
    (notDrained : event ≠ .drained id) (notClosed : ¬event.Closes id)
    (notUnlisted : ¬event.Unlists id) :
    ∃ later, (service.next event).session? id = some later ∧
      session.Fed (Occurrence.queued id ⟨service, event⟩) later := by
  rcases (coherent.carried_of_queues kept_channel
    (fun _ _ _ => ⟨rfl, rfl, rfl, fun stopped => stopped⟩) found notDrained notClosed
    (fun unlists => absurd unlists notUnlisted) fun _ _ => trivial).present session found with
    ⟨later, laterFound, channel, listed, framingErrors, stays⟩
  exact ⟨later, laterFound, channel, listed, framingErrors,
    coherent.entries_next found notDrained laterFound, stays,
    fun _ mem => (coherent.queues_of_mem mem).regular⟩

/-- The session with a number is there, and listed. -/
structure Hosts (service : Service) (id : SessionId) (session : Session) : Prop where
  coherent : service.Coherent
  attended : Attended service.nextSession.toNat service.tree
  found : service.session? id = some session
  listed : session.listed = true

namespace Hosts

theorem opened {maxBody maxEntries : Nat} {transport : Transport} {past : List Occurrence}
    (run : Runs maxBody past service.offline) (isNext : service.nextSession = id)
    (allowed : service.Allows (.opened maxEntries transport)) :
    (service.next (.opened maxEntries transport)).Hosts id
      { id, backlog := { maxBody := service.maxBody, maxEntries }, channel := { transport } } where
  coherent := run.coherent.of_offline.next allowed
  attended := run.coherent.of_offline.attended_next allowed run.attended
  found := by
    subst isNext
    exact (session?_openSession service maxEntries transport _).trans (if_pos rfl)
  listed := rfl

theorem next (hosts : service.Hosts id session) (allowed : service.Allows event)
    (notDrained : event ≠ .drained id) (notClosed : ¬event.Closes id)
    (notUnlisted : ¬event.Unlists id) :
    ∃ later, (service.next event).Hosts id later ∧
      session.Fed (Occurrence.queued id ⟨service, event⟩) later := by
  rcases hosts.coherent.fed_next hosts.found notDrained notClosed notUnlisted with
    ⟨later, laterFound, fed⟩
  exact ⟨later, ⟨hosts.coherent.next allowed, hosts.coherent.attended_next allowed hosts.attended,
    laterFound, fed.listed.trans hosts.listed⟩, fed⟩

theorem step (hosts : service.Hosts id session) (step : SessionStep) :
    (service.modifySession id (·.step step)).Hosts id (session.step step) where
  coherent := hosts.coherent.modifySession id fun session => by
    rcases session.step_rest step with ⟨_, _, _, same⟩
    rw [same]
  attended := hosts.attended
  found := by rw [session?_modifySession, if_pos rfl, hosts.found, Option.map_some]
  listed := by
    rcases session.step_rest step with ⟨_, _, _, same⟩
    rw [same]
    exact hosts.listed

end Hosts

end Service

end SharedTree
