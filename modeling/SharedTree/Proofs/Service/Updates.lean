import SharedTree.Proofs.Backlog
import SharedTree.Proofs.Service.Calls
import SharedTree.Proofs.Service.Watching

/-!
# Updates

A write is accepted when its sender has signed in, its payload can be delivered and its uuid
is that of a live value. It is due to every session that is subscribed to the value at the
time.

The main result, `Runs.updatesQueued_eq_updatesDue`, is about a session that is never told
to stop: the updates put into its backlog are exactly those due to it, each once and in
order. A value that is created later starts with no subscribers, whatever its uuid and path.
-/

namespace SharedTree

namespace Occurrence

/-- The accepted write that an event asks for, with the handle of the value. -/
def write? (occurrence : Occurrence) : Option (Handle × ValueUpdate) :=
  match occurrence.event with
  | .frame _ sender frame =>
    match occurrence.before.session? sender, frame.message with
    | some session, .ok (.setValueIndication update) =>
      if session.signedIn ∧ occurrence.before.updateFits update.data then
        (occurrence.before.tree.liveValue? update.uuid).map fun handle => (handle, update)
      else none
    | _, _ => none
  | _ => none

end Occurrence

/-- What is due to a session when an event follows a log: the update of an accepted write, if the
session exists and is subscribed to the value. -/
def updateDue (id : SessionId) (log : List Occurrence) (occurrence : Occurrence) :
    List ValueUpdate :=
  match occurrence.write? with
  | some (handle, update) =>
    if (occurrence.before.session? id).isSome ∧ subscribed id handle log then [update] else []
  | none => []

/-- The updates that are due to a session in the second part of a log. -/
def updatesDueFrom (id : SessionId) : List Occurrence → List Occurrence → List ValueUpdate
  | _, [] => []
  | earlier, occurrence :: later =>
    updateDue id earlier occurrence ++ updatesDueFrom id (earlier ++ [occurrence]) later

/-- The updates that are due to a session, in order. -/
def updatesDue (id : SessionId) (log : List Occurrence) : List ValueUpdate :=
  updatesDueFrom id [] log

/-- The updates that are put into the backlog of a session, in order. -/
def updatesQueued (id : SessionId) (log : List Occurrence) : List ValueUpdate :=
  (log.flatMap (·.queued id)).filterMap (·.update?)

section Logs

variable (id : SessionId) (log : List Occurrence) (occurrence : Occurrence)

theorem updatesDueFrom_concat (earlier : List Occurrence) :
    updatesDueFrom id earlier (log ++ [occurrence]) =
      updatesDueFrom id earlier log ++ updateDue id (earlier ++ log) occurrence := by
  induction log generalizing earlier with
  | nil => simp [updatesDueFrom]
  | cons first rest ih => simp [updatesDueFrom, ih]

theorem updatesDue_concat : updatesDue id (log ++ [occurrence]) =
    updatesDue id log ++ updateDue id log occurrence :=
  updatesDueFrom_concat id log occurrence []

theorem updatesQueued_concat : updatesQueued id (log ++ [occurrence]) =
    updatesQueued id log ++ (occurrence.queued id).filterMap (·.update?) := by
  rw [updatesQueued, List.flatMap_append, List.flatMap_singleton, List.filterMap_append]
  rfl

end Logs

/-! ## Accepted writes -/

namespace Service

variable {service : Service} {event : ServiceEvent} {id : SessionId} {session later : Session}
  {handle : Handle} {update : ValueUpdate} {payload : Bytes}
  {watchers : Table SessionId Observer}

theorem write?_eq_some (written : Occurrence.write? ⟨service, event⟩ = some (handle, update)) :
    ∃ order sender frame session, event = .frame order sender frame ∧
      service.session? sender = some session ∧ session.signedIn = true ∧
      frame.message = .ok (.setValueIndication update) ∧
      service.updateFits update.data = true ∧
      service.tree.liveValue? update.uuid = some handle := by
  cases event with
  | frame order sender frame =>
      unfold Occurrence.write? at written
      dsimp only at written
      split at written
      · next session asking found asked =>
        split at written
        · next accepted =>
          rcases Option.map_eq_some_iff.mp written with ⟨_, isLive, made⟩
          cases made
          exact ⟨order, sender, frame, session, rfl, found, accepted.1, asked, accepted.2, isLive⟩
        · cases written
      · cases written
  | opened _ _ | stopped _ | unlisted _ _ | closed _ _ | drained _ => cases written

theorem exists_setValue_of_write?
    (written : Occurrence.write? ⟨service, event⟩ = some (handle, update)) :
    ∃ order tree sessions, Tree.setValue reaction order update.uuid update.data
        (service.tree, service.sessions) = (.ok (), tree, sessions) ∧
      service.next event = { service with tree, sessions } := by
  rcases write?_eq_some written with
    ⟨order, sender, frame, session, rfl, found, signedIn, asked, fits, isLive⟩
  rcases (service.tree.liveValue?_eq_some_iff _ _).mp isLive with
    ⟨inIndex, ⟨payload, watchers⟩, isValue⟩
  have watched := (service.tree.watched_eq_ok_iff _ _ _).mpr ⟨inIndex, payload, isValue⟩
  have accepted : ∃ after, Tree.setValue reaction order update.uuid update.data
      (service.tree, service.sessions) = (.ok (), after) := Tree.exists_setValue watched
  rcases accepted with ⟨⟨tree, sessions⟩, success⟩
  refine ⟨order, tree, sessions, success, ?_⟩
  simp [Service.next, Service.handle, found, asked, handleMessage, signedIn, setValue, fits, success]

/-- An accepted write is delivered to the watchers of the value. -/
theorem Coherent.deliver_of_write? (coherent : service.Coherent)
    (written : Occurrence.write? ⟨service, event⟩ = some (handle, update))
    (isValue : service.tree.value? handle = some (payload, watchers)) :
    ∃ (order : VisitOrder) (world : Tree × Table SessionId Session),
      world.2 = service.sessions ∧
      (service.next event).sessions =
        (deliver reaction update (order.arrange watchers.entries) world).2.2 ∧
      ∀ payload others, (service.next event).tree.value? handle = some (payload, others) →
        others = watchers.filter fun subscriber observer =>
          !(deliver reaction update (order.arrange watchers.entries) world).1.contains
            (subscriber, observer) := by
  rcases write?_eq_some written with ⟨_, _, _, _, _, _, _, _, _, isLive⟩
  have inIndex := ((service.tree.liveValue?_eq_some_iff _ _).mp isLive).1
  have watched := (service.tree.watched_eq_ok_iff _ _ _).mpr ⟨inIndex, payload, isValue⟩
  rcases exists_setValue_of_write? written with ⟨order, tree, sessions, success, after⟩
  rcases Tree.setValue_values coherent.sound.toLinked passive_reaction success with
    ⟨other, others, unserved, sameWatched, delivery, values⟩
  rw [watched] at sameWatched
  cases sameWatched
  refine ⟨order, ((service.tree.hold handle).overwrite handle update.data, service.sessions), rfl,
    ?_, ?_⟩
  · rw [after, delivery]
  · intro payload others isLeft
    rw [after] at isLeft
    have left := values handle _ isLeft
    rw [if_pos rfl] at left
    rw [delivery]
    exact (Prod.mk.inj left).2

/-- An accepted write is pushed once to every session that watches the value, and nothing else
happens to any session. -/
theorem Coherent.session?_of_write? (coherent : service.Coherent)
    (written : Occurrence.write? ⟨service, event⟩ = some (handle, update))
    {bound : Nat} (attended : Attended bound service.tree)
    (isValue : service.tree.value? handle = some (payload, watchers)) (id : SessionId) :
    (service.next event).session? id =
      if watchers.contains id = true then (service.session? id).map (·.push (.update update))
      else service.session? id := by
  rcases coherent.deliver_of_write? written isValue with ⟨order, world, before, after, _⟩
  have proper := (attended handle _ isValue).proper order
  have delivered := find?_deliver proper update world id
  rw [← after, before] at delivered
  simp only [mem_map_arrange_iff] at delivered
  exact delivered

/-- A session that goes on is sent an accepted write once if it watches the value, and otherwise
nothing. -/
theorem Coherent.queued_of_write? (coherent : service.Coherent)
    (written : Occurrence.write? ⟨service, event⟩ = some (handle, update))
    {bound : Nat} (attended : Attended bound service.tree)
    (isValue : service.tree.value? handle = some (payload, watchers))
    (found : service.session? id = some session)
    (laterFound : (service.next event).session? id = some later)
    (going : later.stopped = false) :
    Occurrence.queued id ⟨service, event⟩ =
      if watchers.contains id = true then [.update update] else [] := by
  have delivered := coherent.session?_of_write? written attended isValue id
  rw [laterFound, found, Option.map_some] at delivered
  split at delivered
  · next isWatcher =>
    cases delivered
    rw [if_pos isWatcher]
    exact (queued_of_pushed found laterFound (.push _ session)).2 going
  · next notWatcher =>
    cases delivered
    rw [if_neg notWatcher]
    exact (queued_of_pushed found laterFound (.refl session)).2 going

/-- The write of a value removes the registration of a session that is gone or has stopped. -/
theorem Coherent.unwatched_of_write? (coherent : service.Coherent)
    (written : Occurrence.write? ⟨service, event⟩ = some (handle, update))
    {bound : Nat} (attended : Attended bound service.tree)
    (halted : ∀ session, service.session? id = some session → session.stopped = true)
    (isLeft : (service.next event).tree.value? handle = some (payload, watchers)) :
    watchers.contains id = false := by
  rcases write?_eq_some written with ⟨_, _, _, _, _, _, _, _, _, isLive⟩
  rcases ((service.tree.liveValue?_eq_some_iff _ _).mp isLive).2 with ⟨⟨old, before⟩, isValue⟩
  rcases coherent.deliver_of_write? written isValue with ⟨order, world, same, _, left⟩
  rw [left payload watchers isLeft, ← Bool.not_eq_true, Table.contains_iff]
  rintro ⟨observer, found⟩
  rw [Table.find?_filter, Option.filter_eq_some_iff] at found
  rcases found with ⟨registered, served⟩
  have proper := (attended handle _ isValue).proper order
  have mem : (id, observer) ∈ order.arrange before.entries :=
    (order.perm _).mem_iff.mpr ((Table.mem_entries_iff _ _ _).mpr registered)
  have unserved : (id, observer) ∈ (deliver reaction update _ world).1 :=
    unserved_of_halted proper mem (by rwa [same])
  simp [unserved] at served

/-- An update that an event queues is that of an accepted write. -/
theorem Queues.exists_write? (queues : service.Queues event (.update update))
    (coherent : service.Coherent) : ∃ write, Occurrence.write? ⟨service, event⟩ = some write := by
  cases queues with
  | sent sends =>
      cases sends with
      | update found allowed asked fits success uuid =>
          rcases Tree.setValue_values coherent.sound.toLinked passive_reaction success with
            ⟨handle, watchers, _, watched, _⟩
          rcases (service.tree.watched_eq_ok_iff _ _ _).mp watched with ⟨inIndex, payload, isValue⟩
          have isLive := (service.tree.liveValue?_eq_some_iff _ _).mpr ⟨inIndex, _, isValue⟩
          simp [Occurrence.write?, found, asked, allowed, fits, isLive]
  | unlisted isAnswer =>
      rcases Session.frame_of_mem_answerEntries isAnswer with ⟨frame, _, impossible⟩
      cases impossible
  | closed isAnswer =>
      rcases Session.frame_of_mem_answerEntries isAnswer with ⟨frame, _, impossible⟩
      cases impossible

theorem Coherent.updates_of_write?_eq_none (coherent : service.Coherent)
    (unwritten : Occurrence.write? ⟨service, event⟩ = none) (id : SessionId) :
    (Occurrence.queued id ⟨service, event⟩).filterMap (·.update?) = [] := by
  rw [List.filterMap_eq_nil_iff]
  intro entry mem
  cases entry with
  | update update =>
      rcases (coherent.queues_of_mem mem).exists_write? coherent with ⟨write, written⟩
      rw [unwritten] at written
      cases written
  | change change => rfl
  | frame frame => rfl

end Service

namespace Runs

variable {maxBody : Nat} {log : List Occurrence} {service : Service} {id : SessionId}

/-- An event queues the updates that are due. -/
theorem updates_queued (run : Runs maxBody log service) (event : ServiceEvent)
    (going : ∀ occurrence ∈ log ++ [⟨service, event⟩], occurrence.Going id) :
    (Occurrence.queued id ⟨service, event⟩).filterMap (·.update?) =
      updateDue id log ⟨service, event⟩ := by
  have coherent := run.coherent
  unfold updateDue
  cases written : Occurrence.write? ⟨service, event⟩ with
  | none => exact coherent.updates_of_write?_eq_none written id
  | some write =>
      rcases write with ⟨handle, update⟩
      dsimp only
      cases found : service.session? id with
      | none =>
          rw [Service.queued_of_absent found]
          rfl
      | some session =>
          rcases Service.write?_eq_some written with ⟨_, _, _, _, isFrame, _, _, _, _, isLive⟩
          rcases ((service.tree.liveValue?_eq_some_iff _ _).mp isLive).2 with
            ⟨⟨payload, watchers⟩, isValue⟩
          have notDrained : event ≠ .drained id := by simp [isFrame]
          have notClosed : ¬event.Closes id := by simp [isFrame, ServiceEvent.Closes]
          rcases coherent.served_next found notDrained notClosed with ⟨later, laterFound, _⟩
          have isGoing := going _ List.mem_concat_self later laterFound
          rw [coherent.queued_of_write? written run.attended isValue found laterFound isGoing,
            run.contains_watchers (fun occurrence mem => going occurrence
              (List.mem_append_left _ mem)) found isValue]
          simp only [Option.isSome_some, true_and]
          split <;> rfl

/-- The updates that are put into the backlog of a session that is never told to stop are those of
the accepted writes of values to which it is subscribed at the time, each once and in order. Nobody
is subscribed to a value, or watches it, when it has just been created. -/
theorem updatesQueued_eq_updatesDue (run : Runs maxBody log service)
    (going : ∀ occurrence ∈ log, occurrence.Going id) :
    updatesQueued id log = updatesDue id log ∧
      ∀ earlier creation later handle, log = earlier ++ creation :: later →
        creation.Creates handle →
        (∀ other, subscribed other handle (earlier ++ [creation]) = false) ∧
          ∀ payload watchers, creation.after.tree.value? handle = some (payload, watchers) →
            watchers = .empty := by
  refine ⟨?_, ?_⟩
  · induction run with
    | new => rfl
    | @next log service before event allowed ih =>
        rw [updatesQueued_concat, updatesDue_concat, before.updates_queued event going,
          ih fun occurrence mem => going occurrence (List.mem_append_left _ mem)]
  · rintro earlier creation later handle rfl creates
    exact run.unwatched_of_creates creates

theorem updatesQueued_eq_updatesDue_reissued :
    ∃ log service, Runs 36 log service ∧ updatesQueued 1 log = [⟨100, [1]⟩, ⟨100, [2]⟩] ∧
      subscribed 1 1 log = true ∧ service.tree.liveValue? 100 = some 2 ∧
      updatesQueued 1 log = updatesDue 1 log ∧
      ∀ earlier creation later handle, log = earlier ++ creation :: later →
        creation.Creates handle →
        (∀ other, subscribed other handle (earlier ++ [creation]) = false) ∧
          ∀ payload watchers, creation.after.tree.value? handle = some (payload, watchers) →
            watchers = .empty := by
  have serve {log : List Occurrence} {service : Service} {frame : Frame}
      (before : Runs 36 log service) (sender : SessionId) (message : Message)
      (_ : Frame.ofMessage message 1 = .ok frame) :=
    before.next (.frame .stored sender frame) trivial
  have run : Runs 36 [] (.new 36) := .new
  have run := run.next (.opened 8 .sink) (by decide)
  have run := run.next (.opened 8 .sink) (by decide)
  have run := serve run 1 (.signinRequest protocolVersion 0 ⟨1⟩) rfl
  have run := serve run 2 (.signinRequest protocolVersion 0 ⟨1⟩) rfl
  have run := serve run 2 (.createRequest .value [] "/a") rfl
  have run := serve run 1 (.subscribeRequest 100) rfl
  have run := serve run 1 (.subscribeRequest 100) rfl
  have run := serve run 1 (.setValueIndication ⟨100, [1]⟩) rfl
  have run := serve run 2 (.setValueIndication ⟨100, [2]⟩) rfl
  have run := serve run 2 (.setValueIndication ⟨100, List.replicate 40 3⟩) rfl
  have run := serve run 1 (.unsubscribeRequest 100) rfl
  have run := serve run 2 (.setValueIndication ⟨100, [4]⟩) rfl
  have run := serve run 1 (.subscribeRequest 100) rfl
  have run := serve run 2 (.deleteRequest "/a") rfl
  have run := serve run 2 (.createRequest .value [] "/a") rfl
  have run := serve run 2 (.setValueIndication ⟨100, [5]⟩) rfl
  refine ⟨_, _, run, rfl, rfl, rfl, run.updatesQueued_eq_updatesDue ?_⟩
  decide +kernel

end Runs

end SharedTree
