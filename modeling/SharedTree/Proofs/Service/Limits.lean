import SharedTree.Proofs.Client.Mirror
import SharedTree.Proofs.Service.Run
import SharedTree.Proofs.Service.Turns

/-!
# The limit on notifications

A request is refused when what it asks for could not be told to anyone in a message of its
own. So whatever is live can be announced, the payload of every value can be delivered, and
every notification that waits in a backlog is within the limit alone. That a property is
deleted can be told because it could be announced. Sharing a frame does not lead above the
limit, so no notification that is ever sent does.
-/

namespace SharedTree

namespace Message

theorem size_creation (info : PropertyInfo) :
    (metaUpdateNotification [info] []).size = 17 + info.path.utf8ByteSize := by
  show 4 + (4 + (1 + (4 + info.path.utf8ByteSize)) + 0) + (4 + 0) = _
  omega

theorem size_update (update : ValueUpdate) :
    (propertyUpdateNotification [update]).size = 12 + update.data.length := by
  show 4 + (4 + (4 + update.data.length) + 0) = _
  omega

end Message

namespace Service

variable {service : Service}

theorem creationFits_iff (service : Service) (kind : PropertyKind) (path : String) :
    service.creationFits kind path = true ↔ 17 + path.utf8ByteSize ≤ service.maxBody := by
  rw [creationFits, decide_eq_true_iff, Message.size_creation]

theorem updateFits_iff (service : Service) (data : Bytes) :
    service.updateFits data = true ↔ 12 + data.length ≤ service.maxBody := by
  rw [updateFits, decide_eq_true_iff, Message.size_update]

theorem maxBody_next (service : Service) (event : ServiceEvent) :
    (service.next event).maxBody = service.maxBody := by
  cases event with
  | opened maxEntries transport => rfl
  | frame order sender frame => exact (handled_handle service order sender frame).rest.2
  | stopped id => rfl
  | unlisted order id => exact (unlist_rest service order id).2.2
  | closed order id => exact (close_rest service order id).2.2
  | drained id => exact (drain_rest service id).2.2

end Service

/-! ## What the tree contains -/

namespace Tree

variable {maxBody : Nat} {tree next : Tree}

/-- Every live property can be announced in a message within the limit, and the payload of every value
can be delivered in one. -/
structure Announceable (maxBody : Nat) (tree : Tree) : Prop where
  creation : ∀ uuid handle info, tree.index.find? uuid = some handle →
    tree.info? handle = some info → 17 + info.path.utf8ByteSize ≤ maxBody
  payload : ∀ handle value, tree.value? handle = some value → 12 + value.1.length ≤ maxBody

namespace Announceable

theorem new (maxBody : Nat) : Tree.new.Announceable maxBody where
  creation _ _ _ impossible := nomatch impossible
  payload handle value found := by
    rw [value?_new] at found
    cases found

theorem quiet (announceable : tree.Announceable maxBody) (sound : tree.Sound)
    (quiet : tree.Quiet next)
    (payloads : ∀ handle value, next.value? handle = some value → 12 + value.1.length ≤ maxBody) :
    next.Announceable maxBody := by
  refine ⟨?_, payloads⟩
  intro uuid handle info inIndex known
  rw [quiet.index] at inIndex
  rw [quiet.info? sound handle (sound.isLive_of_index inIndex)] at known
  exact announceable.creation uuid handle info inIndex known

theorem create (announceable : tree.Announceable maxBody) (sound : tree.Sound) {path : String}
    {kind : PropertyKind} {payload : Bytes} {owner : SessionId} {info : PropertyInfo}
    (success : tree.create path kind payload owner = (.ok info, next))
    (pathFits : 17 + path.utf8ByteSize ≤ maxBody)
    (payloads : ∀ handle value, next.value? handle = some value → 12 + value.1.length ≤ maxBody) :
    next.Announceable maxBody := by
  rcases create_announces sound success with ⟨_, index, newInfo, oldInfo, _⟩
  rcases create_eq_ok success with ⟨_, name, parent, _, uuid, pool, _, _, rfl, rfl⟩
  refine ⟨?_, payloads⟩
  intro other handle known inIndex isKnown
  rw [index] at inIndex
  split at inIndex
  · cases inIndex
    rw [newInfo] at isKnown
    cases isKnown
    exact pathFits
  · rw [oldInfo handle (sound.isLive_of_index inIndex)] at isKnown
    exact announceable.creation other handle known inIndex isKnown

theorem delete (announceable : tree.Announceable maxBody) (sound : tree.Sound) {path : String}
    {uuid : Uuid} (success : tree.delete path = (.ok uuid, next))
    (payloads : ∀ handle value, next.value? handle = some value → 12 + value.1.length ≤ maxBody) :
    next.Announceable maxBody := by
  rcases delete_announces sound success with ⟨gone, goneIndex, _, index, oldInfo⟩
  refine ⟨?_, payloads⟩
  intro other handle known inIndex isKnown
  rw [index] at inIndex
  split at inIndex
  · cases inIndex
  · next different =>
    have notGone : handle ≠ gone := by
      rintro rfl
      exact different (sound.toLinked.eq_of_indexed inIndex goneIndex)
    rw [oldInfo handle (sound.isLive_of_index inIndex) notGone] at isKnown
    exact announceable.creation other handle known inIndex isKnown

/-- That a property is deleted can be told in a message within the limit, because it could be
announced. -/
theorem deletion_fits (announceable : tree.Announceable maxBody) (sound : tree.Sound)
    {path : String} {uuid : Uuid} (success : tree.delete path = (.ok uuid, next)) :
    12 ≤ maxBody := by
  rcases delete_announces sound success with ⟨gone, inIndex, _⟩
  rcases sound.indexed _ _ inIndex with ⟨property, _, found, _⟩
  have fits := announceable.creation uuid gone _ inIndex (by rw [info?, found]; rfl)
  omega

end Announceable

end Tree

namespace Service

variable {service : Service} {event : ServiceEvent}

theorem announceable_turns {next : Tree} (turns : service.Turns event next)
    (sound : service.tree.Sound) (announceable : service.tree.Announceable service.maxBody) :
    next.Announceable service.maxBody := by
  have payloads (handle : Handle) (value : Bytes × Table SessionId Observer)
      (found : next.value? handle = some value) : 12 + value.1.length ≤ service.maxBody := by
    rcases turns.payload sound.toLinked found with brings | ⟨before, was⟩
    · exact (updateFits_iff _ _).mp brings.fits
    · exact announceable.payload handle (value.1, before) was
  cases turns with
  | lent lent => exact announceable.quiet sound lent.quiet payloads
  | created success pathFits =>
      exact announceable.create sound success ((creationFits_iff _ _ _).mp pathFits) payloads
  | deleted success => exact announceable.delete sound success payloads
  | written success =>
      exact announceable.quiet sound (Tree.quiet_setValue passive_reaction success) payloads
  | watched watches => exact announceable.quiet sound watches.alike.quiet payloads

end Service

/-! ## What waits in backlogs -/

/-- An entry of a backlog that is sent within a limit, or is no notification. -/
def BacklogEntry.Within (maxBody : Nat) (entry : BacklogEntry) : Prop :=
  Session.Regular entry ∧ (Batch.single entry).Fits maxBody

namespace Session

variable {maxBody : Nat}

/-- A session that sends no notification over a limit. -/
structure Within (maxBody : Nat) (session : Session) : Prop where
  limit : session.backlog.maxBody = maxBody
  entries : ∀ entry ∈ session.backlog.entries, entry.Within maxBody

theorem Within.of_same {session later : Session} (within : session.Within maxBody)
    (same : later.backlog = session.backlog) : later.Within maxBody :=
  ⟨by rw [same, within.limit], by rw [same]; exact within.entries⟩

theorem kept_within (maxBody : Nat) : Kept (BacklogEntry.Within maxBody)
    fun before after => before.Within maxBody → after.Within maxBody where
  refl _ within := within
  trans _ _ _ first second within := second (first within)
  push entry session fits within := by
    rcases session.push_cases entry with ⟨_, same⟩ | ⟨_, _, same⟩ | ⟨_, _, same⟩
    · rwa [same]
    · rw [same]
      exact within.of_same rfl
    · rw [same]
      refine ⟨within.limit, ?_⟩
      intro other mem
      rcases List.mem_append.mp mem with old | last
      · exact within.entries other old
      · rwa [List.mem_singleton.mp last]
  withPending _ _ within := within.of_same rfl
  stop _ within := within.of_same rfl

/-- A notification that leaves the backlog is within the limit. -/
theorem Within.drained_fits {session : Session} (within : session.Within maxBody)
    {frame : Frame} (sent : frame ∈ session.drain.1)
    (notifies : frame.header.kind = .ok .metaUpdateNotification ∨
      frame.header.kind = .ok .propertyUpdateNotification) : frame.body.length ≤ maxBody := by
  have notice : frame.notifies = true := by
    rcases notifies with isChange | isUpdate
    · simp [Frame.notifies, isChange]
    · simp [Frame.notifies, isUpdate]
  have others : ∀ whole, .frame whole ∈ session.backlog.entries → whole.notifies = false :=
    fun whole waits => (within.entries _ waits).1.notifies_eq_false
  rcases Backlog.exists_batch_of_notifies others sent notice with
    ⟨batch, gathered, _, message, carried, encoded⟩
  rw [within.limit] at gathered
  rw [Frame.length_body_ofMessage encoded]
  exact Batch.fits_gather (fun entry mem => (within.entries entry mem).2) batch gathered _ carried

end Session

namespace Service

variable {service : Service} {event : ServiceEvent}

theorem fits_answer {maxBody : Nat} {transaction : TransactionId} {returnValue : Bytes}
    {entry : BacklogEntry} (isAnswer : entry ∈ Session.answerEntries transaction returnValue) :
    (Batch.single entry).Fits maxBody := by
  rcases Session.frame_of_mem_answerEntries isAnswer with ⟨frame, _, rfl⟩
  intro _ impossible
  cases impossible

/-- What an event queues is within the limit. -/
theorem Queues.within {entry : BacklogEntry} (queues : service.Queues event entry)
    (sound : service.tree.Sound) (announceable : service.tree.Announceable service.maxBody) :
    entry.Within service.maxBody := by
  refine ⟨queues.regular, ?_⟩
  cases queues with
  | sent sends =>
      cases sends with
      | creation fits success =>
          rcases Tree.create_eq_ok success with ⟨_, _, _, _, _, _, _, _, rfl, _⟩
          rintro _ ⟨⟩
          rw [Message.size_creation]
          exact (creationFits_iff _ _ _).mp fits
      | deletion success =>
          rintro _ ⟨⟩
          exact announceable.deletion_fits sound success
      | update found allowed asked fits success uuid =>
          rintro _ ⟨⟩
          rw [Message.size_update]
          exact (updateFits_iff _ _).mp fits
      | request found forwards => exact fun _ impossible => nomatch impossible
      | answer asked made => exact fun _ impossible => nomatch impossible
  | unlisted isAnswer => exact fits_answer isAnswer
  | closed isAnswer => exact fits_answer isAnswer

theorem Coherent.within_next (coherent : service.Coherent)
    (announceable : service.tree.Announceable service.maxBody)
    (within : ∀ id session, service.session? id = some session → session.Within service.maxBody)
    {id : SessionId} {later : Session} (laterFound : (service.next event).session? id = some later) :
    later.Within service.maxBody := by
  cases found : service.session? id with
  | none =>
      rcases opened_of_absent found laterFound with ⟨_, _, _, _, rfl⟩
      exact ⟨rfl, by simp⟩
  | some session =>
      rcases coherent.drained_or_related (Session.kept_within service.maxBody)
        (fun _ _ _ within => within.of_same rfl) (fun _ within => within.of_same rfl)
        (fun _ queues => queues.within coherent.sound announceable) found laterFound with rfl | stays
      · exact ⟨(within id session found).limit, by simp [Session.drain, Backlog.clear]⟩
      · exact stays (within id session found)

end Service

namespace Runs

variable {maxBody : Nat} {log : List Occurrence} {service : Service}

/-- Nothing in a run outgrows the limit: neither what is live nor what waits to be told. -/
theorem within (run : Runs maxBody log service) :
    service.maxBody = maxBody ∧ service.tree.Announceable maxBody ∧
      ∀ id session, service.session? id = some session → session.Within maxBody := by
  induction run with
  | new => exact ⟨rfl, .new maxBody, fun _ _ impossible => nomatch impossible⟩
  | @next log service before event allowed ih =>
      rcases ih with ⟨rfl, announceable, sessions⟩
      exact ⟨service.maxBody_next event,
        Service.announceable_turns (service.turns_next event) before.coherent.sound announceable,
        fun _ _ => before.coherent.within_next announceable sessions⟩

/-- Every notification that is drained from a session in a run is within the limit. -/
theorem notification_fits (run : Runs maxBody log service) {occurrence : Occurrence}
    (mem : occurrence ∈ log) {id : SessionId} {frame : Frame}
    (sent : frame ∈ occurrence.drained id)
    (notifies : frame.header.kind = .ok .metaUpdateNotification ∨
      frame.header.kind = .ok .propertyUpdateNotification) : frame.body.length ≤ maxBody := by
  rcases List.append_of_mem mem with ⟨earlier, later, rfl⟩
  have sessions := run.before_made.1.within.2.2
  rcases occurrence with ⟨before, event⟩
  cases event with
  | drained other =>
      simp only [Occurrence.drained, Service.drain] at sent
      split at sent
      · next same =>
        split at sent
        · cases sent
        · next session found =>
          exact (sessions id session found).drained_fits sent notifies
      · cases sent
  | opened _ _ | frame _ _ _ | stopped _ | unlisted _ _ | closed _ _ => cases sent

theorem notification_fits_shared :
    ∃ log service occurrence, Runs 36 log service ∧ occurrence ∈ log ∧
      (occurrence.drained 1).map (·.body.length) = [30, 27, 15] ∧
      ∀ frame ∈ occurrence.drained 1, frame.body.length ≤ 36 := by
  have serve {log : List Occurrence} {service : Service} {frame : Frame}
      (before : Runs 36 log service) (message : Message)
      (_ : Frame.ofMessage message 1 = .ok frame) :=
    before.next (.frame .stored 1 frame) trivial
  have run : Runs 36 [] (.new 36) := .new
  have run := run.next (.opened 8 .sink) (by decide)
  have run := serve run (.signinRequest protocolVersion 0 ⟨1⟩) rfl
  have run := serve run (.createRequest .value [] "/a") rfl
  have run := serve run (.createRequest .value [] "/b") rfl
  have run := serve run (.createRequest .node [] "/a-name-too-long-to-be-announced") rfl
  have run := serve run (.createRequest .node [] "/c") rfl
  have run := serve run (.deleteRequest "/a") rfl
  have run := serve run (.deleteRequest "/c") rfl
  have run := serve run (.subscribeRequest 101) rfl
  have run := serve run (.setValueIndication ⟨101, [1, 2, 3]⟩) rfl
  have run := run.next (.drained 1) trivial
  refine ⟨_, _, _, run, List.mem_concat_self, rfl, ?_⟩
  intro frame sent
  refine run.notification_fits List.mem_concat_self sent ?_
  revert frame
  decide +kernel

end Runs

end SharedTree
