import SharedTree.Proofs.Service.Streams

/-!
# Hearing oneself

A session hears of what it does itself: its own creations and deletions are announced to it, and its
own writes to the values that it watches are delivered to it. All this is queued while its request
is handled.
-/

namespace SharedTree

namespace Service

variable {service : Service} {order : VisitOrder} {id : SessionId} {session : Session}
  {frame reply : Frame}

/-- What the request of a session does to the tree is among the entries queued for it. -/
structure Echoes (service : Service) (order : VisitOrder) (id : SessionId) (frame : Frame)
    (entries : List BacklogEntry) : Prop where
  created : ∀ kind data path reply uuid, frame.message = .ok (.createRequest kind data path) →
    (service.handle order id frame).2 = some reply →
      reply.message = .ok (.createResponse .ok uuid) →
        .change (.created { uuid, kind, path }) ∈ entries
  deleted : ∀ path reply, frame.message = .ok (.deleteRequest path) →
    (service.handle order id frame).2 = some reply → reply.message = .ok (.deleteResponse .ok) →
      ∃ uuid, service.deletion? path = some uuid ∧ .change (.deleted uuid) ∈ entries
  updated : ∀ handle update,
    Occurrence.write? ⟨service, .frame order id frame⟩ = some (handle, update) →
      (service.tree.value? handle).any (·.2.contains id) = true → .update update ∈ entries

theorem creation?_of_create {owner : SessionId} {kind : PropertyKind} {data : Bytes}
    {path : String} {uuid : Uuid}
    (answer : (service.create order owner kind data path).2 = .createResponse .ok uuid) :
    service.creation? owner kind data path = some { uuid, kind, path } := by
  rw [create_outcome] at answer
  split at answer
  · cases answer
  · next pathFits =>
    split at answer
    · cases answer
    · next dataFits =>
      split at answer
      · next error _ _ => cases error <;> cases answer
      · next info tree success =>
        cases answer
        rcases Tree.create_eq_ok success with ⟨_, _, _, _, _, _, _, _, rfl, _⟩
        have fits : service.creationFits kind path = true ∧ service.updateFits data = true := by
          simpa using And.intro pathFits dataFits
        rw [creation?, if_pos fits, success]
        rfl

theorem deletion?_of_delete {path : String}
    (answer : (service.delete order path).2 = .deleteResponse .ok) :
    ∃ uuid, service.deletion? path = some uuid := by
  rw [delete_outcome] at answer
  split at answer
  · next error _ _ => cases error <;> cases answer
  · next uuid tree success =>
    refine ⟨uuid, ?_⟩
    rw [deletion?, success]
    rfl

/-- A creation that is answered with success is made. -/
theorem change?_of_created (found : service.session? id = some session)
    (numbered : session.id = id) (answered : (service.handle order id frame).2 = some reply)
    {kind : PropertyKind} {data : Bytes} {path : String} {uuid : Uuid}
    (asked : frame.message = .ok (.createRequest kind data path))
    (succeeded : reply.message = .ok (.createResponse .ok uuid)) :
    session.signedIn = true ∧ Occurrence.change? ⟨service, .frame order id frame⟩ =
      some (.created { uuid, kind, path }) := by
  rcases handle_answer answered with ⟨sender, message, answer, isThere, wanted, answers, made⟩
  cases found.symm.trans isThere
  cases asked.symm.trans wanted
  cases (Frame.message_ofMessage made).symm.trans succeeded
  cases signedIn : session.signedIn with
  | false => simp [handleMessage, signedIn] at answers
  | true =>
      simp only [handleMessage, signedIn, Option.some.injEq, numbered] at answers
      refine ⟨rfl, ?_⟩
      simp only [Occurrence.change?, found, asked, signedIn, if_true,
        creation?_of_create answers, Option.map_some]

/-- A deletion that is answered with success is made. -/
theorem change?_of_deleted (found : service.session? id = some session)
    (answered : (service.handle order id frame).2 = some reply) {path : String}
    (asked : frame.message = .ok (.deleteRequest path))
    (succeeded : reply.message = .ok (.deleteResponse .ok)) :
    session.signedIn = true ∧ ∃ uuid, service.deletion? path = some uuid ∧
      Occurrence.change? ⟨service, .frame order id frame⟩ = some (.deleted uuid) := by
  rcases handle_answer answered with ⟨sender, message, answer, isThere, wanted, answers, made⟩
  cases found.symm.trans isThere
  cases asked.symm.trans wanted
  cases (Frame.message_ofMessage made).symm.trans succeeded
  cases signedIn : session.signedIn with
  | false => simp [handleMessage, signedIn] at answers
  | true =>
      simp only [handleMessage, signedIn, Option.some.injEq] at answers
      rcases deletion?_of_delete answers with ⟨uuid, deleted⟩
      refine ⟨rfl, uuid, deleted, ?_⟩
      simp only [Occurrence.change?, found, asked, signedIn, if_true, deleted, Option.map_some]

theorem Coherent.queued_of_going (coherent : service.Coherent) {bound : Nat} {event : ServiceEvent}
    {later : Session} (attended : Attended bound service.tree)
    (found : service.session? id = some session) (going : session.stopped = false)
    (laterFound : (service.next event).session? id = some later)
    (laterGoing : later.stopped = false) :
    Occurrence.queued id ⟨service, event⟩ = Occurrence.addressed id ⟨service, event⟩ := by
  have feeds : Occurrence.Feeds id session ⟨service, event⟩ :=
    coherent.feeds attended found going
  rw [feeds.queued]
  apply List.take_of_length_le
  have stops := feeds.stops later laterFound
  rw [laterGoing] at stops
  exact Nat.le_of_not_lt fun full => Bool.false_ne_true (stops.mpr (.inr full))

/-- A listed session that goes on hears of what it does itself. -/
theorem Coherent.echoes (coherent : service.Coherent) {bound : Nat} {later : Session}
    (attended : Attended bound service.tree) (found : service.session? id = some session)
    (listed : session.listed = true) (going : session.stopped = false)
    (laterFound : (service.next (.frame order id frame)).session? id = some later)
    (laterGoing : later.stopped = false) :
    service.Echoes order id frame (Occurrence.queued id ⟨service, .frame order id frame⟩) := by
  have numbered := (coherent.numbered _ _ found).1
  have isListed := (service.listed?_eq_some_iff id session).mpr ⟨found, listed⟩
  rw [coherent.queued_of_going attended found going laterFound laterGoing]
  have announces {change : TreeChange} (signedIn : session.signedIn = true)
      (changed : Occurrence.change? ⟨service, .frame order id frame⟩ = some change) :
      .change change ∈ Occurrence.addressed id ⟨service, .frame order id frame⟩ := by
    rw [Occurrence.addressed, Occurrence.announced, isListed, changed]
    simp [signedIn]
  refine ⟨?_, ?_, ?_⟩
  · intro kind data path reply uuid asked answered succeeded
    rcases change?_of_created found numbered answered asked succeeded with ⟨signedIn, changed⟩
    exact announces signedIn changed
  · intro path reply asked answered succeeded
    rcases change?_of_deleted found answered asked succeeded with
      ⟨signedIn, uuid, deleted, changed⟩
    exact ⟨uuid, deleted, announces signedIn changed⟩
  · intro handle update written watched
    rw [Occurrence.addressed, Occurrence.updated, written]
    simp [found, watched]

end Service

end SharedTree
