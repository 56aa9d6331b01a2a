import SharedTree.Proofs.Service.Delivery
import SharedTree.Proofs.Service.Run
import SharedTree.Proofs.Service.Turns

/-!
# Watching values

A session is subscribed to a value when the last of its requests about that value that was
answered with ok was to watch it. The value is meant by its handle, so a value that is
created later under the same uuid or at the same path is another one.

The watchers of a value are recorded in the tree. `Runs.contains_watchers` says that the
record is right about every session that was never told to stop.
-/

namespace SharedTree

namespace Occurrence

/-- The frame of an event is answered with a message. -/
def answers (reply : Message) (occurrence : Occurrence) : Bool :=
  occurrence.answer?.any fun answer => answer.message = .ok reply

/-- What a session is told about its interest in the value with a handle: that it watches the value
from now on, or no longer. -/
def vote? (id : SessionId) (handle : Handle) (occurrence : Occurrence) : Option Bool :=
  match occurrence.event with
  | .frame _ sender frame =>
    if sender = id then
      match frame.message with
      | .ok (.subscribeRequest uuid) =>
        if occurrence.before.tree.index.find? uuid = some handle ∧
          occurrence.answers (.subscribeResponse .ok) then some true else none
      | .ok (.unsubscribeRequest uuid) =>
        if occurrence.before.tree.index.find? uuid = some handle ∧
          occurrence.answers (.unsubscribeResponse .ok) then some false else none
      | _ => none
    else none
  | _ => none

/-- A session has not been told to stop after the event, if it exists then. -/
def Going (id : SessionId) (occurrence : Occurrence) : Prop :=
  ∀ session ∈ occurrence.after.session? id, session.stopped = false

instance (id : SessionId) (occurrence : Occurrence) : Decidable (occurrence.Going id) :=
  inferInstanceAs (Decidable (∀ session ∈ occurrence.after.session? id, session.stopped = false))

end Occurrence

/-- A session is subscribed to the value with a handle. -/
def subscribed (id : SessionId) (handle : Handle) (log : List Occurrence) : Bool :=
  (log.filterMap (·.vote? id handle)).getLast?.getD false

theorem subscribed_concat (id : SessionId) (handle : Handle) (log : List Occurrence)
    (occurrence : Occurrence) : subscribed id handle (log ++ [occurrence]) =
      (occurrence.vote? id handle).getD (subscribed id handle log) := by
  rw [subscribed, List.filterMap_append]
  cases voted : occurrence.vote? id handle with
  | none => simp [voted, subscribed]
  | some watching => simp [voted]

theorem subscribed_of_silent {id : SessionId} {handle : Handle} {log : List Occurrence}
    (silent : ∀ occurrence ∈ log, occurrence.vote? id handle = none) :
    subscribed id handle log = false := by
  rw [subscribed, List.filterMap_eq_nil_iff.mpr silent]
  rfl

namespace Service

variable {service : Service} {event : ServiceEvent} {order : VisitOrder} {id sender : SessionId}
  {session : Session} {frame : Frame} {handle : Handle} {uuid : Uuid}
  {watchers : Table SessionId Observer} {watching : Bool} {bound : Nat}

/-! ## Beginning and ceasing to watch -/

theorem answers_iff {reply message : Message} (small : reply.size + Header.length < UInt32.size)
    (asked : frame.message = .ok message) :
    Occurrence.answers reply ⟨service, .frame order sender frame⟩ = true ↔
      ∃ session, service.session? sender = some session ∧
        (service.handleMessage order session frame.transaction message).2 = some reply := by
  simp only [Occurrence.answers, Occurrence.answer?, Option.any_eq_true, decide_eq_true_eq]
  constructor
  · rintro ⟨answer, answered, carries⟩
    rcases handle_answer answered with ⟨session, same, sent, found, sameAsked, replied, made⟩
    rw [Frame.message_ofMessage made] at carries
    rw [asked] at sameAsked
    cases carries
    cases sameAsked
    exact ⟨session, found, replied⟩
  · rintro ⟨session, found, replied⟩
    rcases exists_answer found asked replied small with ⟨answer, answered, made⟩
    exact ⟨answer, answered, Frame.message_ofMessage made⟩

theorem subscribe_of_watched (watched : service.tree.watched uuid = .ok (handle, watchers))
    (session : Session) :
    service.subscribe session uuid =
      ({ service with
          tree := service.tree.mapWatchers handle (·.insert session.id session.observer) },
        .subscribeResponse .ok) := by
  rw [subscribe_outcome, Tree.subscribe_eq, watched]

theorem watched_of_subscribe
    (accepted : (service.subscribe session uuid).2 = .subscribeResponse .ok) :
    ∃ handle watchers, service.tree.watched uuid = .ok (handle, watchers) := by
  rw [subscribe_outcome] at accepted
  split at accepted
  · next error _ _ => cases error <;> cases accepted
  · next success =>
    rcases Tree.subscribe_eq_ok success with ⟨handle, watchers, watched, _⟩
    exact ⟨handle, watchers, watched⟩

theorem unsubscribe_of_watched (watched : service.tree.watched uuid = .ok (handle, watchers))
    (registered : watchers.contains session.id = true) :
    service.unsubscribe session uuid =
      ({ service with tree := service.tree.mapWatchers handle (·.erase session.id) },
        .unsubscribeResponse .ok) := by
  simp only [unsubscribe_outcome, Tree.unsubscribe_eq, watched, registered, if_pos]

theorem watched_of_unsubscribe
    (accepted : (service.unsubscribe session uuid).2 = .unsubscribeResponse .ok) :
    ∃ handle watchers, service.tree.watched uuid = .ok (handle, watchers) ∧
      watchers.contains session.id = true := by
  rw [unsubscribe_outcome] at accepted
  split at accepted
  · next error _ _ => cases error <;> cases accepted
  · next success =>
    rcases Tree.unsubscribe_eq_ok success with ⟨handle, watchers, watched, registered, _⟩
    exact ⟨handle, watchers, watched, registered⟩

/-- A frame makes a session watch the value with a handle, or watch it no longer. -/
inductive Votes (service : Service) (id : SessionId) (handle : Handle) (frame : Frame) :
    Bool → Prop where
  | begun {session : Session} {uuid : Uuid} {watchers : Table SessionId Observer}
      (found : service.session? id = some session) (signedIn : session.signedIn = true)
      (asked : frame.message = .ok (.subscribeRequest uuid))
      (watched : service.tree.watched uuid = .ok (handle, watchers)) :
      Votes service id handle frame true
  | ceased {session : Session} {uuid : Uuid} {watchers : Table SessionId Observer}
      (found : service.session? id = some session) (signedIn : session.signedIn = true)
      (asked : frame.message = .ok (.unsubscribeRequest uuid))
      (watched : service.tree.watched uuid = .ok (handle, watchers))
      (registered : watchers.contains session.id = true) :
      Votes service id handle frame false

/-- What a vote of a session makes of the watchers of a value. -/
def revise (id : SessionId) (watching : Bool) (watchers : Table SessionId Observer) :
    Table SessionId Observer :=
  if watching then watchers.insert id id.toNat else watchers.erase id

theorem contains_revise (id other : SessionId) (watching : Bool)
    (watchers : Table SessionId Observer) :
    (revise id watching watchers).contains other =
      if other = id then watching else watchers.contains other := by
  cases watching <;> by_cases same : other = id <;> simp [revise, Table.contains, same]

theorem Votes.watched (votes : service.Votes id handle frame watching) :
    ∃ session uuid watchers, service.session? id = some session ∧
      service.tree.watched uuid = .ok (handle, watchers) := by
  cases votes with
  | begun found signedIn asked watched => exact ⟨_, _, _, found, watched⟩
  | ceased found signedIn asked watched registered => exact ⟨_, _, _, found, watched⟩

theorem vote?_of_votes (votes : service.Votes id handle frame watching) :
    Occurrence.vote? id handle ⟨service, .frame order id frame⟩ = some watching := by
  cases votes with
  | begun found signedIn asked watched =>
      have accepted : Occurrence.answers (.subscribeResponse .ok)
          ⟨service, .frame order id frame⟩ = true := by
        refine (answers_iff (by decide) asked).mpr ⟨_, found, ?_⟩
        simp [handleMessage, signedIn, subscribe_of_watched watched]
      have inIndex := ((Tree.watched_eq_ok_iff _ _ _ _).mp watched).1
      simp [Occurrence.vote?, asked, inIndex, accepted]
  | ceased found signedIn asked watched registered =>
      have accepted : Occurrence.answers (.unsubscribeResponse .ok)
          ⟨service, .frame order id frame⟩ = true := by
        refine (answers_iff (by decide) asked).mpr ⟨_, found, ?_⟩
        simp [handleMessage, signedIn, unsubscribe_of_watched watched registered]
      have inIndex := ((Tree.watched_eq_ok_iff _ _ _ _).mp watched).1
      simp [Occurrence.vote?, asked, inIndex, accepted]

theorem begun_of_answers (asked : frame.message = .ok (.subscribeRequest uuid))
    (inIndex : service.tree.index.find? uuid = some handle)
    (accepted : Occurrence.answers (.subscribeResponse .ok) ⟨service, .frame order id frame⟩ = true) :
    service.Votes id handle frame true := by
  rcases (answers_iff (by decide) asked).mp accepted with ⟨session, found, replied⟩
  cases signedIn : session.signedIn <;>
    simp only [handleMessage, signedIn, Option.some.injEq] at replied
  · cases replied
  · rcases watched_of_subscribe replied with ⟨other, watchers, watched⟩
    have same := ((Tree.watched_eq_ok_iff _ _ _ _).mp watched).1
    rw [inIndex] at same
    cases same
    exact .begun found signedIn asked watched

theorem ceased_of_answers (asked : frame.message = .ok (.unsubscribeRequest uuid))
    (inIndex : service.tree.index.find? uuid = some handle)
    (accepted : Occurrence.answers (.unsubscribeResponse .ok)
      ⟨service, .frame order id frame⟩ = true) :
    service.Votes id handle frame false := by
  rcases (answers_iff (by decide) asked).mp accepted with ⟨session, found, replied⟩
  cases signedIn : session.signedIn <;>
    simp only [handleMessage, signedIn, Option.some.injEq] at replied
  · cases replied
  · rcases watched_of_unsubscribe replied with ⟨other, watchers, watched, registered⟩
    have same := ((Tree.watched_eq_ok_iff _ _ _ _).mp watched).1
    rw [inIndex] at same
    cases same
    exact .ceased found signedIn asked watched registered

theorem votes_of_vote? (voted : Occurrence.vote? id handle ⟨service, event⟩ = some watching) :
    ∃ order frame, event = .frame order id frame ∧ service.Votes id handle frame watching := by
  cases event with
  | frame order sender frame =>
      unfold Occurrence.vote? at voted
      dsimp only at voted
      split at voted
      · next same =>
        subst same
        refine ⟨order, frame, rfl, ?_⟩
        split at voted
        · next uuid asked =>
          split at voted
          · next accepted =>
            cases voted
            exact begun_of_answers asked accepted.1 accepted.2
          · cases voted
        · next uuid asked =>
          split at voted
          · next accepted =>
            cases voted
            exact ceased_of_answers asked accepted.1 accepted.2
          · cases voted
        · cases voted
      · cases voted
  | opened _ _ | stopped _ | unlisted _ _ | closed _ _ | drained _ => cases voted

theorem Coherent.tree_of_votes (coherent : service.Coherent)
    (votes : service.Votes id handle frame watching) :
    (service.next (.frame order id frame)).tree =
      service.tree.mapWatchers handle (revise id watching) := by
  cases votes with
  | begun found signedIn asked watched =>
      have made : revise id true = (·.insert id id.toNat) := rfl
      simp [Service.next, Service.handle, found, asked, handleMessage, signedIn, made,
        subscribe_of_watched watched, (coherent.numbered _ _ found).1, Session.observer]
  | ceased found signedIn asked watched registered =>
      have made : revise id false = (·.erase id) := rfl
      simp [Service.next, Service.handle, found, asked, handleMessage, signedIn, made,
        unsubscribe_of_watched watched registered, (coherent.numbered _ _ found).1]

/-- Whoever begins or ceases to watch a value votes on it. -/
theorem Coherent.exists_votes (coherent : service.Coherent) {tree : Tree}
    (watches : service.Watches session frame tree)
    (found : service.session? sender = some session) (allowed : session.signedIn = true) :
    ∃ handle watching, service.Votes sender handle frame watching ∧
      tree = service.tree.mapWatchers handle (revise sender watching) := by
  have numbered := (coherent.numbered _ _ found).1
  cases watches with
  | begun asked success =>
      rcases Tree.subscribe_eq_ok success with ⟨handle, watchers, watched, rfl⟩
      refine ⟨handle, true, .begun found allowed asked watched, ?_⟩
      rw [Session.observer, numbered]
      rfl
  | ceased asked success =>
      rcases Tree.unsubscribe_eq_ok success with ⟨handle, watchers, watched, registered, rfl⟩
      refine ⟨handle, false, .ceased found allowed asked watched registered, ?_⟩
      rw [numbered]
      rfl

theorem Coherent.lt_of_vote? (coherent : service.Coherent)
    (voted : Occurrence.vote? id handle ⟨service, event⟩ = some watching) :
    handle < service.tree.nextHandle := by
  rcases votes_of_vote? voted with ⟨order, frame, _, votes⟩
  rcases votes.watched with ⟨session, uuid, watchers, _, watched⟩
  have inIndex := ((Tree.watched_eq_ok_iff _ _ _ _).mp watched).1
  rcases coherent.sound.indexed _ _ inIndex with ⟨property, _, found, _⟩
  exact coherent.sound.bounded _ _ found

/-! ## Registrations -/

/-- Every registration is that of a session that has been opened, under its own number. -/
def Genuine (bound : Nat) (watchers : Table SessionId Observer) : Prop :=
  ∀ subscriber observer, watchers.find? subscriber = some observer →
    observer = subscriber.toNat ∧ subscriber.toNat < bound

namespace Genuine

theorem empty (bound : Nat) : Genuine bound .empty :=
  fun _ _ impossible => nomatch impossible

theorem mono (genuine : Genuine bound watchers) {larger : Nat} (le : bound ≤ larger) :
    Genuine larger watchers :=
  fun subscriber observer found =>
    ⟨(genuine subscriber observer found).1, (genuine subscriber observer found).2.trans_le le⟩

theorem filter (genuine : Genuine bound watchers) (test : SessionId → Observer → Bool) :
    Genuine bound (watchers.filter test) := by
  intro subscriber observer found
  rw [Table.find?_filter, Option.filter_eq_some_iff] at found
  exact genuine subscriber observer found.1

theorem revise (genuine : Genuine bound watchers) (born : id.toNat < bound) (watching : Bool) :
    Genuine bound (Service.revise id watching watchers) := by
  intro subscriber observer found
  cases watching with
  | true =>
      rw [Service.revise, if_pos rfl, Table.find?_insert] at found
      split at found
      · next same =>
        cases found
        rw [same]
        exact ⟨rfl, born⟩
      · exact genuine subscriber observer found
  | false =>
      rw [Service.revise, if_neg (by decide), Table.find?_erase] at found
      split at found
      · cases found
      · exact genuine subscriber observer found

theorem absent (genuine : Genuine bound watchers) (unborn : bound ≤ id.toNat) :
    watchers.contains id = false := by
  rw [← Bool.not_eq_true, Table.contains_iff]
  rintro ⟨observer, found⟩
  exact absurd (genuine id observer found).2 (Nat.not_lt.mpr unborn)

theorem proper (genuine : Genuine bound watchers) (order : VisitOrder) :
    Registration.Proper (order.arrange watchers.entries) := by
  refine Registration.Proper.perm ⟨watchers.distinct, ?_⟩ (order.perm _)
  rintro ⟨subscriber, observer⟩ mem
  exact (genuine _ _ ((Table.mem_entries_iff _ _ _).mp mem)).1

end Genuine

/-- The watchers of every value are sessions that have been opened. -/
def Attended (bound : Nat) (tree : Tree) : Prop :=
  ∀ handle value, tree.value? handle = some value → Genuine bound value.2

/-- What an event makes of the watchers of a value. -/
inductive Rewatched (service : Service) (event : ServiceEvent) (handle : Handle)
    (watchers : Table SessionId Observer) : Table SessionId Observer → Prop where
  | kept : Rewatched service event handle watchers watchers
  | pruned {unserved : List Registration} (stopped : ∀ registration ∈ unserved, ∀ session,
        (service.next event).session? registration.1 = some session → session.stopped = true) :
      Rewatched service event handle watchers
        (watchers.filter fun subscriber observer => !unserved.contains (subscriber, observer))
  | voted {order : VisitOrder} {sender : SessionId} {frame : Frame} {watching : Bool}
      (isFrame : event = .frame order sender frame)
      (votes : service.Votes sender handle frame watching) :
      Rewatched service event handle watchers (revise sender watching watchers)

/-- A value has just been created and nobody watches it, or it was there before. -/
theorem Coherent.watchers_next (coherent : service.Coherent)
    (attended : Attended bound service.tree) {payload : Bytes}
    (found : (service.next event).tree.value? handle = some (payload, watchers)) :
    handle = service.tree.nextHandle ∧ watchers = .empty ∨
      ∃ old before, service.tree.value? handle = some (old, before) ∧
        service.Rewatched event handle before watchers := by
  have turns := service.turns_next event
  generalize (service.next event).tree = tree at found turns
  cases turns with
  | lent lent => exact Or.inr ⟨_, _, Tree.KeepsValues.lent lent _ _ found, .kept⟩
  | created success pathFits dataFits =>
      rcases Tree.create_eq_ok success with ⟨_, _, _, _, _, _, _, _, _, rfl⟩
      rw [Tree.value?_attach] at found
      split at found
      · next isNew =>
        split at found
        · cases found
          exact Or.inl ⟨isNew, rfl⟩
        · cases found
      · exact Or.inr ⟨_, _, found, .kept⟩
  | deleted success => exact Or.inr ⟨_, _, Tree.KeepsValues.delete success _ _ found, .kept⟩
  | @written order _ _ _ _ _ _ success asker allowed asked fits after =>
      rcases Tree.setValue_values coherent.sound.toLinked passive_reaction success with
        ⟨written, before, unserved, watched, delivery, values⟩
      rcases (Tree.watched_eq_ok_iff _ _ _ _).mp watched with ⟨_, old, isValue⟩
      have was := values handle _ found
      split at was
      · next same =>
        cases was
        refine Or.inr ⟨old, before, same ▸ isValue, .pruned ?_⟩
        intro registration isUnserved session isThere
        rw [after] at isThere
        exact stopped_of_unserved ((attended written _ isValue).proper order) (by rwa [delivery])
          session (by rwa [delivery])
      · exact Or.inr ⟨_, _, was, .kept⟩
  | watched watches asker allowed =>
      rcases coherent.exists_votes watches asker allowed with ⟨voted, watching, votes, rfl⟩
      rw [Tree.value?_mapWatchers] at found
      split at found
      · next same =>
        rcases Option.map_eq_some_iff.mp found with ⟨⟨old, before⟩, beforeFound, made⟩
        cases made
        exact Or.inr ⟨old, before, beforeFound, .voted rfl (same ▸ votes)⟩
      · exact Or.inr ⟨_, _, found, .kept⟩

theorem Coherent.attended_next (coherent : service.Coherent) (allowed : service.Allows event)
    (attended : Attended service.nextSession.toNat service.tree) :
    Attended (service.next event).nextSession.toNat (service.next event).tree := by
  rintro handle ⟨payload, watchers⟩ found
  refine Genuine.mono ?_ (nextSession_le_next allowed)
  rcases coherent.watchers_next attended found with ⟨_, rfl⟩ | ⟨old, before, isValue, rewatched⟩
  · exact .empty _
  · have genuine := attended handle _ isValue
    cases rewatched with
    | kept => exact genuine
    | pruned stopped => exact genuine.filter _
    | voted isFrame votes =>
        rcases votes.watched with ⟨session, _, _, isThere, _⟩
        exact genuine.revise (coherent.numbered _ _ isThere).2 _

/-- Who has been served watches the value as before. -/
theorem contains_of_served {watchers : Table SessionId Observer} {unserved : List Registration}
    {id : SessionId} (served : ∀ observer, (id, observer) ∉ unserved) :
    (watchers.filter fun subscriber observer =>
      !unserved.contains (subscriber, observer)).contains id = watchers.contains id := by
  rw [Table.contains, Table.contains, Table.find?_filter]
  cases watchers.find? id with
  | none => rfl
  | some observer => simp [Option.filter, served]

/-- A session that goes on watches what it watched, unless the event is its own vote. -/
theorem Rewatched.contains_eq {before : Table SessionId Observer}
    (rewatched : service.Rewatched event handle before watchers)
    (silent : Occurrence.vote? id handle ⟨service, event⟩ = none)
    (found : (service.next event).session? id = some session)
    (going : session.stopped = false) : watchers.contains id = before.contains id := by
  cases rewatched with
  | kept => rfl
  | pruned stopped =>
      refine contains_of_served fun observer isUnserved => ?_
      have hasStopped := stopped _ isUnserved session found
      rw [going] at hasStopped
      cases hasStopped
  | voted isFrame votes =>
      rw [contains_revise, if_neg]
      rintro rfl
      rw [isFrame, vote?_of_votes votes] at silent
      cases silent

end Service

namespace Runs

variable {maxBody : Nat} {log : List Occurrence} {service : Service} {id : SessionId}
  {handle : Handle}

theorem attended (run : Runs maxBody log service) :
    Service.Attended service.nextSession.toNat service.tree := by
  induction run with
  | new =>
      intro handle value found
      rw [show (Service.new maxBody).tree = Tree.new from rfl, Tree.value?_new] at found
      cases found
  | next before event allowed ih => exact before.coherent.attended_next allowed ih

/-! ## Who is subscribed -/

/-- Nobody is subscribed to a value before it is created. -/
theorem subscribed_uncreated (run : Runs maxBody log service)
    (uncreated : service.tree.nextHandle ≤ handle) (id : SessionId) :
    subscribed id handle log = false := by
  apply subscribed_of_silent
  intro occurrence mem
  rw [Option.eq_none_iff_forall_ne_some]
  intro watching voted
  have created := (run.coherent_of_mem occurrence mem).lt_of_vote? voted
  have given := (run.nextHandle_le_after mem).trans (run.nextHandle_le occurrence mem)
  exact absurd (created.trans_le given) (Nat.not_lt.mpr uncreated)

/-- A session is subscribed to nothing before it is opened. -/
theorem subscribed_unborn (run : Runs maxBody log service)
    (unborn : service.nextSession.toNat ≤ id.toNat) (handle : Handle) :
    subscribed id handle log = false := by
  apply subscribed_of_silent
  intro occurrence mem
  rw [Option.eq_none_iff_forall_ne_some]
  intro watching voted
  rcases Service.votes_of_vote? voted with ⟨order, frame, _, votes⟩
  rcases votes.watched with ⟨session, uuid, watchers, found, watched⟩
  rw [(run.unborn unborn occurrence mem).1] at found
  cases found

/-- Among the watchers of a value is a session that was never told to stop exactly when it is
subscribed. -/
theorem contains_watchers (run : Runs maxBody log service)
    (going : ∀ occurrence ∈ log, occurrence.Going id) {session : Session}
    (found : service.session? id = some session) {payload : Bytes}
    {watchers : Table SessionId Observer}
    (isValue : service.tree.value? handle = some (payload, watchers)) :
    watchers.contains id = subscribed id handle log := by
  induction run generalizing session payload watchers with
  | new => cases found
  | @next log service before event allowed ih =>
      have coherent := before.coherent
      rw [subscribed_concat]
      cases voted : Occurrence.vote? id handle ⟨service, event⟩ with
      | some watching =>
          rcases Service.votes_of_vote? voted with ⟨order, frame, rfl, votes⟩
          rw [coherent.tree_of_votes votes, Tree.value?_mapWatchers, if_pos rfl] at isValue
          rcases Option.map_eq_some_iff.mp isValue with ⟨old, _, made⟩
          cases made
          rw [Service.contains_revise, if_pos rfl, Option.getD_some]
      | none =>
          rw [Option.getD_none]
          rcases coherent.watchers_next before.attended isValue with
            ⟨rfl, rfl⟩ | ⟨old, earlier, oldValue, rewatched⟩
          · rw [before.subscribed_uncreated (Nat.le_refl _)]
            rfl
          · have isGoing := going _ List.mem_concat_self session found
            rw [rewatched.contains_eq voted found isGoing]
            cases beforeFound : service.session? id with
            | none =>
                rcases Service.opened_of_absent beforeFound found with ⟨_, _, _, rfl, _⟩
                rw [(before.attended _ _ oldValue).absent (Nat.le_refl _),
                  before.subscribed_unborn (Nat.le_refl _)]
            | some earlierSession =>
                exact ih (fun occurrence mem => going occurrence (List.mem_append_left _ mem))
                  beforeFound oldValue

/-- Nobody is subscribed to a value that has just been created, and nobody watches it. -/
theorem unwatched_of_creates {earlier later : List Occurrence} {creation : Occurrence}
    (run : Runs maxBody (earlier ++ creation :: later) service)
    (creates : creation.Creates handle) :
    (∀ other, subscribed other handle (earlier ++ [creation]) = false) ∧
      ∀ payload watchers, creation.after.tree.value? handle = some (payload, watchers) →
        watchers = .empty := by
  rcases run.before_made with ⟨before, _, _⟩
  have isNew := (run.creates_eq (by simp) creates).1
  refine ⟨?_, ?_⟩
  · intro other
    have silent : creation.vote? other handle = none := by
      rw [Option.eq_none_iff_forall_ne_some]
      intro watching voted
      exact absurd (before.coherent.lt_of_vote? voted) (Nat.not_lt.mpr isNew.ge)
    rw [subscribed_concat, silent, Option.getD_none, before.subscribed_uncreated isNew.ge]
  · intro payload watchers isValue
    rcases before.coherent.watchers_next before.attended isValue with
      ⟨_, empty⟩ | ⟨old, wasWatchers, wasValue, _⟩
    · exact empty
    · rcases Option.bind_eq_some_iff.mp wasValue with ⟨property, found, _⟩
      have existed := (Tree.exists?_iff _ _).mpr ⟨property, found⟩
      rw [creates.1] at existed
      cases existed

end Runs

end SharedTree
