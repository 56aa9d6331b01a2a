import SharedTree.Proofs.Service.Departed
import SharedTree.Proofs.Service.Serving

/-!
# Sessions apart

A session reaches another in four ways only: by a change that is announced, by the write of a value
that the other watches, by a call of an endpoint that the other created, and by the answer to a call
of the other. Each puts at most one entry into the backlog of the other. Apart from that an answer
removes the call it is for, and a write or a deletion may end a subscription.

`Runs.isolates` says so of every frame in every state that can be reached, whatever numbers of sessions
and of transactions the frame names.
-/

namespace SharedTree

namespace Session

variable {before middle after : Session} {entries : List BacklogEntry}

/-- A session is what it was, apart from its backlog, its calls and whether it has stopped. -/
def Retained (before after : Session) : Prop :=
  after = { before with
    backlog := after.backlog, stopped := after.stopped, pending := after.pending }

namespace Retained

theorem trans (first : before.Retained middle) (second : middle.Retained after) :
    before.Retained after := by
  rw [Retained, first] at second
  exact second

theorem kept : Kept (fun _ => True) Retained where
  refl _ := rfl
  trans _ _ _ := trans
  push entry session _ := by
    rcases session.push_cases entry with ⟨_, same⟩ | ⟨_, _, same⟩ | ⟨_, _, same⟩ <;>
      rw [same] <;> rfl
  withPending _ _ := rfl
  stop _ := rfl

end Retained

/-- A session has the calls that it had. -/
def SameCalls (before after : Session) : Prop := after.pending = before.pending

theorem SameCalls.refl (session : Session) : session.SameCalls session := rfl

theorem SameCalls.signIn (refreshRate : UInt32) (features : FeatureFlags) (session : Session) :
    session.SameCalls (session.signIn refreshRate features) := rfl

theorem SameCalls.push (entry : BacklogEntry) (session : Session) :
    session.SameCalls (session.push entry) := session.pending_push entry

namespace Receives

/-- What a session receives comes after what waits in its backlog. -/
theorem exists_kept (received : before.Receives entries after) :
    ∃ kept, kept.length ≤ entries.length ∧ after.backlog =
      { before.backlog with entries := before.backlog.entries ++ kept } := by
  cases stopped : before.stopped with
  | true =>
      refine ⟨[], Nat.zero_le _, ?_⟩
      rw [received.backlog, pushAll_of_stopped before stopped, List.append_nil]
  | false =>
      refine ⟨entries.take before.room, ?_, ?_⟩
      · exact List.length_take_le' _ _
      · rw [received.backlog, (pushAll_of_going entries stopped).1]

/-- One entry stops a session only if its backlog is full. -/
theorem full_of_stops (received : before.Receives entries after) (short : entries.length ≤ 1)
    (going : before.stopped = false) (stops : after.stopped = true) :
    before.backlog.maxEntries ≤ before.backlog.size := by
  rw [received.stopped] at stops
  have noRoom := (pushAll_of_going entries going).2.mp stops
  unfold room at noRoom
  omega

end Receives

/-- What a frame of another session can make of the session with a number. -/
structure Spared (log : List Occurrence) (sender id : SessionId) (frame : Frame)
    (before after : Session) : Prop where
  /-- Its number, its place on the list, its sign-in, its interval and its features stay. -/
  retained : before.Retained after
  /-- At most one entry is put at the end of its backlog. -/
  backlog : ∃ entries, entries.length ≤ 1 ∧ after.backlog =
    { before.backlog with entries := before.backlog.entries ++ entries }
  /-- It stops only if its backlog was full. -/
  stopped : before.stopped = false → after.stopped = true →
    before.backlog.maxEntries ≤ before.backlog.size
  /-- Its calls stay, but for one that the sender answers, whose endpoint the sender created. -/
  pending : after.pending = before.pending ∨ ∃ transaction returnValue call,
    frame.message = .ok (.handleRpcResponse id transaction returnValue) ∧
      before.pending.find? transaction = some call ∧ MadeBy log call.endpoint sender ∧
      after.pending = before.pending.erase transaction

end Session

/-- What a frame of one session can do to another. -/
structure Occurrence.Isolates (log : List Occurrence) (sender other : SessionId) (frame : Frame)
    (occurrence : Occurrence) : Prop where
  session : ∀ session, occurrence.before.session? other = some session →
    ∃ later, occurrence.after.session? other = some later ∧
      session.Spared log sender other frame later
  /-- A subscription ends with the value, or with a write that could not be delivered because the
  subscriber is gone or has stopped. -/
  subscription : ∀ uuid,
    occurrence.after.tree.isWatchedBy uuid other ≠ occurrence.before.tree.isWatchedBy uuid other →
      occurrence.change? = some (.deleted uuid) ∨
        ∃ handle data, occurrence.write? = some (handle, { uuid, data }) ∧
          (occurrence.before.session? other = none ∨
            ∃ later, occurrence.after.session? other = some later ∧ later.stopped = true)

namespace Service

variable {service : Service} {order : VisitOrder} {sender other : SessionId} {frame : Frame}
  {session later : Session} {uuid : Uuid} {bound : Nat}

theorem Coherent.retained_frame (coherent : service.Coherent) (order : VisitOrder) (frame : Frame)
    (different : other ≠ sender) (found : service.session? other = some session) :
    ∃ later, (service.next (.frame order sender frame)).session? other = some later ∧
      session.Retained later := by
  refine ((handled_handle service order sender frame).carried Session.Retained.kept ?_
    fun _ _ => trivial).present session found
  intro asker _ _ _ askerFound isAsker
  exact absurd (isAsker.trans (coherent.numbered _ _ askerFound).1) different

/-- The calls of a session stay when another hands in a frame, unless that answers one of them. -/
theorem Coherent.pending_frame (coherent : service.Coherent) (different : other ≠ sender)
    (found : service.session? other = some session)
    (laterFound : (service.next (.frame order sender frame)).session? other = some later) :
    later.pending = session.pending ∨ ∃ transaction returnValue call,
      frame.message = .ok (.handleRpcResponse other transaction returnValue) ∧
        session.listed = true ∧ session.pending.find? transaction = some call ∧
        call.handler = some sender ∧ later.pending = session.pending.erase transaction := by
  have handled := handled_handle service order sender frame
  rw [Service.next] at laterFound
  generalize (service.handle order sender frame).1 = after at handled laterFound
  have same (carried : Carried Session.SameCalls (service.session? other)
      (after.session? other)) : later.pending = session.pending := by
    rcases carried.present session found with ⟨only, onlyFound, kept⟩
    rw [laterFound] at onlyFound
    cases onlyFound
    exact kept
  cases handled with
  | nothing => exact Or.inl (same (.refl Session.SameCalls.refl _))
  | signedIn askerFound asked =>
      exact Or.inl (same (.modify Session.SameCalls.refl _ _ (.signIn _ _) _))
  | created askerFound allowed success =>
      exact Or.inl (same (carried_broadcast Session.SameCalls.refl (.push _) _ _ _ _))
  | deleted success =>
      exact Or.inl (same (carried_broadcast Session.SameCalls.refl (.push _) _ _ _ _))
  | written success =>
      exact Or.inl (same (carried_setValue (fun _ _ => Session.pending_pushAll _) success _))
  | watched watches => exact Or.inl (same (.refl Session.SameCalls.refl _))
  | @called asker _ _ _ _ _ askerFound =>
      have notAsker : other ≠ asker.id := by
        rwa [(coherent.numbered _ _ askerFound).1]
      refine Or.inl (same ?_)
      rw [session?_modifySession, session?_addCall, if_neg notAsker]
      split
      · exact .map (.push _) _
      · exact .refl Session.SameCalls.refl _
  | @answered asker answeredTo caller transaction returnValue call askerFound asked listed recorded
      mine =>
      rw [(coherent.numbered _ _ askerFound).1] at mine
      by_cases isCaller : other = caller
      · subst isCaller
        rcases (listed?_eq_some_iff _ _ _).mp listed with ⟨isThere, isListed⟩
        cases found.symm.trans isThere
        rw [session?_modifySession, if_pos rfl, session?_releaseCalls, session?_modifySession,
          if_pos rfl, found, Option.map_some, Option.map_some, Session.pushAnswer_eq] at laterFound
        cases laterFound
        exact Or.inr ⟨transaction, returnValue, call, asked, isListed, recorded, mine,
          Session.pending_pushAll _ _⟩
      · rw [session?_modifySession, if_neg isCaller, session?_releaseCalls, session?_modifySession,
          if_neg isCaller, found] at laterFound
        cases laterFound
        exact Or.inl rfl

/-! ## Subscriptions -/

theorem isWatchedBy_eq_of_eq {tree : Tree} (same : tree.valueAt? uuid = service.tree.valueAt? uuid)
    (id : SessionId) : tree.isWatchedBy uuid id = service.tree.isWatchedBy uuid id := by
  rw [Tree.isWatchedBy, same, Tree.isWatchedBy]

/-- A write ends the subscription of a session that is gone or has stopped, and no other. -/
theorem Coherent.subscription_written (coherent : service.Coherent)
    (attended : Attended bound service.tree) {update : ValueUpdate} {tree : Tree}
    {sessions : Table SessionId Session}
    (success : Tree.setValue reaction order update.uuid update.data
      (service.tree, service.sessions) = (.ok (), tree, sessions))
    (changed : tree.isWatchedBy uuid other ≠ service.tree.isWatchedBy uuid other) :
    uuid = update.uuid ∧ (∃ handle, service.tree.liveValue? uuid = some handle) ∧
      ∀ later, sessions.find? other = some later → later.stopped = true := by
  rcases Tree.valueAt?_setValue coherent.sound.toLinked passive_reaction success with
    ⟨handle, watchers, unserved, watched, delivery, values⟩
  rcases (Tree.watched_eq_ok_iff _ _ _ _).mp watched with ⟨inIndex, payload, isValue⟩
  by_cases isWritten : uuid = update.uuid
  · subst isWritten
    refine ⟨rfl, ⟨handle, ?_⟩, ?_⟩
    · exact (service.tree.liveValue?_eq_some_iff _ _).mpr ⟨inIndex, _, isValue⟩
    · have isUnserved : ∃ observer, (other, observer) ∈ unserved := by
        by_contra served
        rw [not_exists] at served
        apply changed
        rw [Tree.isWatchedBy, values, if_pos rfl, Option.any_some, contains_of_served served,
          Tree.isWatchedBy, Tree.valueAt?, inIndex, Option.bind_some, isValue, Option.any_some]
      rcases isUnserved with ⟨observer, isUnserved⟩
      have proper := (attended handle _ isValue).proper order
      have halted := stopped_of_unserved proper (by rwa [delivery])
      rwa [delivery] at halted
  · refine absurd (isWatchedBy_eq_of_eq ?_ other) changed
    rw [values, if_neg isWritten]

/-- A session is subscribed to what it was, unless the value is deleted, or written when the session is
gone or has stopped. -/
theorem Coherent.subscription_frame (coherent : service.Coherent)
    (attended : Attended bound service.tree) (different : other ≠ sender)
    (changed : (service.next (.frame order sender frame)).tree.isWatchedBy uuid other ≠
      service.tree.isWatchedBy uuid other) :
    Occurrence.change? ⟨service, .frame order sender frame⟩ = some (.deleted uuid) ∨
      ∃ handle data,
        Occurrence.write? ⟨service, .frame order sender frame⟩ = some (handle, { uuid, data }) ∧
          (service.session? other = none ∨
            ∃ later, (service.next (.frame order sender frame)).session? other = some later ∧
              later.stopped = true) := by
  have linked := coherent.sound.toLinked
  have turns := service.turns_next (.frame order sender frame)
  generalize (service.next (.frame order sender frame)).tree = tree at changed turns
  cases turns with
  | lent lent =>
      exact absurd (isWatchedBy_eq_of_eq (linked.valueAt?_of_lent lent uuid) other) changed
  | created success =>
      rcases Tree.create_eq_ok success with ⟨_, _, _, _, made, _, creates, _, _, rfl⟩
      rw [Tree.isWatchedBy, linked.valueAt?_attach] at changed
      split at changed
      · next isNew =>
        -- The uuid was free, so there was no value to watch by it.
        have unwatched : service.tree.isWatchedBy uuid other = false := by
          rw [Tree.isWatchedBy, Tree.valueAt?, isNew,
            coherent.sound.find?_index_of_take creates.taken]
          rfl
        rw [unwatched] at changed
        split at changed <;> exact absurd rfl changed
      · exact absurd rfl changed
  | deleted success found allowed asked =>
      rcases Tree.delete_eq_ok success with ⟨_, _, _, _, property, deletes, rfl, rfl⟩
      rw [Tree.isWatchedBy, linked.valueAt?_detach deletes.detachable] at changed
      split at changed
      · next isGone =>
        left
        simp [Occurrence.change?, found, asked, allowed, deletion?, success, isGone,
          Except.toOption]
      · exact absurd rfl changed
  | @written _ _ _ _ update _ sessions success asker allowed asked fits after =>
      rcases coherent.subscription_written attended success changed with
        ⟨rfl, ⟨handle, isLive⟩, halted⟩
      refine Or.inr ⟨handle, update.data, ?_, ?_⟩
      · simp [Occurrence.write?, asker, asked, allowed, fits, isLive]
      · cases found : service.session? other with
        | none => exact Or.inl rfl
        | some session =>
            rcases coherent.retained_frame order frame different found with ⟨later, laterFound, _⟩
            refine Or.inr ⟨later, laterFound, halted later ?_⟩
            rwa [after] at laterFound
  | watched watches asker allowed =>
      rcases coherent.exists_votes watches asker allowed with ⟨voted, watching, votes, rfl⟩
      rcases votes.watched with ⟨_, about, _, _, watched⟩
      have inIndex := ((Tree.watched_eq_ok_iff _ _ _ _).mp watched).1
      rw [Tree.isWatchedBy, linked.valueAt?_mapWatchers inIndex] at changed
      split at changed
      · refine absurd ?_ changed
        rw [Tree.isWatchedBy, Option.any_map]
        simp only [contains_revise, if_neg different]
      · exact absurd rfl changed

end Service

namespace Runs

variable {maxBody : Nat} {log : List Occurrence} {service : Service}

/-- Whatever one session sends, another goes on as it was, but for one more entry in its backlog, the
answer to a call that it waits for, and the end of subscriptions to values that are gone or that
it can receive no more. -/
theorem isolates (run : Runs maxBody log service) {sender other : SessionId}
    (different : other ≠ sender) (order : VisitOrder) (frame : Frame) :
    Occurrence.Isolates log sender other frame ⟨service, .frame order sender frame⟩ where
  session := by
    intro session found
    rcases run.coherent.retained_frame order frame different found with
      ⟨later, laterFound, retained⟩
    rcases run.coherent.receives_frame run.attended found with ⟨same, sameFound, received⟩
    cases laterFound.symm.trans sameFound
    have short := Service.length_addressed_le service order other sender frame
    refine ⟨later, laterFound, retained, ?_, received.full_of_stops short, ?_⟩
    · rcases received.exists_kept with ⟨kept, fewer, backlog⟩
      exact ⟨kept, fewer.trans short, backlog⟩
    · rcases run.coherent.pending_frame different found laterFound with
        kept | ⟨transaction, returnValue, call, asked, isListed, recorded, mine, left⟩
      · exact Or.inl kept
      · have listed := (Service.listed?_eq_some_iff _ _ _).mpr ⟨found, isListed⟩
        exact Or.inr ⟨transaction, returnValue, call, asked, recorded,
          (run.handler_eq_iff listed recorded).mp mine, left⟩
  subscription _ changed := run.coherent.subscription_frame run.attended different changed

/-- The second write of a value finds the backlog of its watcher full. -/
theorem isolates_full :
    ∃ log service frame session later, Runs 64 log service ∧
      frame.message = .ok (.setValueIndication ⟨100, [2]⟩) ∧
      service.session? 2 = some session ∧
      (service.next (.frame .stored 1 frame)).session? 2 = some later ∧
      session.stopped = false ∧ later.stopped = true ∧
      service.tree.isWatchedBy 100 2 = true ∧
      (service.next (.frame .stored 1 frame)).tree.isWatchedBy 100 2 = false ∧
      Occurrence.Isolates log 1 2 frame ⟨service, .frame .stored 1 frame⟩ := by
  have run : Runs 64 [] (.new 64) := .new
  have run := run.next (.opened 8 .sink) (by decide)
  have run := run.next (.opened 1 .sink) (by decide)
  have run := run.serve 1 7 (.signinRequest protocolVersion 0 ⟨0⟩) rfl
  have run := run.serve 1 7 (.createRequest .value [1] "/a") rfl
  have run := run.serve 2 7 (.signinRequest protocolVersion 0 ⟨0⟩) rfl
  have run := run.serve 2 7 (.subscribeRequest 100) rfl
  have run := run.serve 1 7 (.setValueIndication ⟨100, [2]⟩) rfl
  have asked : Frame.ofMessage (.setValueIndication ⟨100, [2]⟩) 7 =
      .ok ⟨⟨49, 18, 7⟩, [100, 0, 0, 0, 1, 0, 0, 0, 2]⟩ := rfl
  exact ⟨_, _, _, _, _, run, Frame.message_ofMessage asked, rfl, rfl, rfl, rfl, rfl, rfl,
    run.isolates (by decide) .stored _⟩

end Runs

end SharedTree
