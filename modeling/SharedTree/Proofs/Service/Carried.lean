import SharedTree.Proofs.Service.Handling

/-!
# Sessions go on

A session that exists before a step of the service exists after it, unless it is closed,
and most of what can be said of its change is a relation that pushing entries, changing the
pending calls and stopping keep. `Carried` states such a relation of a session and what it
has become.
-/

namespace SharedTree

namespace Service

variable {service after : Service} {order : VisitOrder} {sender : SessionId} {frame : Frame}

/-- A session goes on existing, and a relation holds between what it was and what it is. -/
structure Carried (relation : Session → Session → Prop) (before after : Option Session) :
    Prop where
  absent : before = none → after = none
  present : ∀ session, before = some session →
    ∃ later, after = some later ∧ relation session later

namespace Carried

variable {relation : Session → Session → Prop}

theorem map {change : Session → Session} (each : ∀ session, relation session (change session))
    (before : Option Session) : Carried relation before (before.map change) := by
  refine ⟨?_, ?_⟩
  · rintro rfl
    rfl
  · rintro session rfl
    exact ⟨change session, rfl, each session⟩

theorem refl (reflexive : ∀ session, relation session session) (before : Option Session) :
    Carried relation before before :=
  ⟨fun absent => absent, fun session present => ⟨session, present, reflexive session⟩⟩

theorem trans (transitive : ∀ before middle after, relation before middle →
    relation middle after → relation before after) {before middle after : Option Session}
    (first : Carried relation before middle) (second : Carried relation middle after) :
    Carried relation before after := by
  refine ⟨fun absent => second.absent (first.absent absent), ?_⟩
  intro session present
  rcases first.present session present with ⟨later, middlePresent, related⟩
  rcases second.present later middlePresent with ⟨last, afterPresent, alsoRelated⟩
  exact ⟨last, afterPresent, transitive _ _ _ related alsoRelated⟩

theorem modify (reflexive : ∀ session, relation session session) (service : Service)
    (id : SessionId) {change : Session → Session}
    (each : ∀ session, relation session (change session))
    (other : SessionId) :
    Carried relation (service.session? other)
      ((service.modifySession id change).session? other) := by
  rw [session?_modifySession]
  split
  · exact map each _
  · exact refl reflexive _

end Carried

section Operations

variable {allowed : BacklogEntry → Prop} {relation : Session → Session → Prop}

theorem carried_setValue {uuid : Uuid} {data : Bytes} {tree : Tree}
    {sessions : Table SessionId Session}
    (updates : ∀ entries, (∀ entry ∈ entries, ∃ uuid, entry = .update { uuid, data }) →
      ∀ session, relation session (session.pushAll entries))
    (success : Tree.setValue reaction order uuid data (service.tree, service.sessions) =
      (.ok (), tree, sessions)) (id : SessionId) :
    Carried relation (service.session? id)
      (({ service with tree, sessions } : Service).session? id) := by
  rcases updated_of_setValue success id with ⟨entries, are, after⟩
  rw [show ({ service with tree, sessions } : Service).session? id = _ from after]
  exact .map (updates entries are) _

theorem carried_broadcast (reflexive : ∀ session, relation session session) {change : TreeChange}
    (push : ∀ session, relation session (session.push (.change change))) (service : Service)
    (tree : Tree) (order : VisitOrder) (id : SessionId) :
    Carried relation (service.session? id)
      ((({ service with tree } : Service).broadcast order change).session? id) := by
  rw [session?_broadcast]
  refine .map (fun session => ?_) _
  unfold announcedTo
  split
  · split
    · exact push session
    · exact reflexive session
  · exact reflexive session

variable (kept : Session.Kept allowed relation)
include kept

theorem carried_call {caller handler : SessionId} {transaction : TransactionId}
    {endpoint : Handle} {request : Frame} (allows : allowed (.frame request)) (id : SessionId) :
    Carried relation (service.session? id)
      (((service.addCall caller transaction endpoint).modifySession handler
        (·.push (.frame request))).session? id) := by
  refine Carried.trans kept.trans ?_
    (.modify kept.refl _ _ (fun session => kept.push _ session allows) id)
  rw [session?_addCall]
  split
  · exact .map (fun session => kept.withPending _ session) _
  · exact .refl kept.refl _

theorem carried_answerCall {caller : SessionId} {answeredTo : Session}
    {transaction : TransactionId} {returnValue : Bytes} {calls : List PendingCall}
    {pending : Table TransactionId PendingCall}
    (allows : ∀ entry ∈ Session.answerEntries transaction returnValue, allowed entry)
    (listed : service.listed? caller = some answeredTo) (id : SessionId) :
    Carried relation (service.session? id)
      ((((service.modifySession caller fun _ => { answeredTo with pending }).releaseCalls
        calls).modifySession caller (·.pushAnswer transaction returnValue)).session? id) := by
  refine Carried.trans kept.trans ?_
    (.modify kept.refl _ _ (fun session => kept.pushAnswer allows session) id)
  rw [session?_releaseCalls, session?_modifySession]
  split
  · next same =>
    rw [same, session?_of_listed? listed, Option.map_some]
    exact .map (fun session => kept.withPending pending session) (some answeredTo)
  · exact .refl kept.refl _

theorem carried_unlist
    (allows : ∀ transaction, ∀ entry ∈ Session.answerEntries transaction [], allowed entry)
    (service : Service) (order : LeaveOrder) (id other : SessionId)
    (unlists : other = id → ∀ session, relation session { session with listed := false }) :
    Carried relation (service.session? other) ((service.unlist order id).2.session? other) := by
  cases listed : service.listed? id with
  | none =>
      rw [unlist_of_unlisted listed]
      exact .refl kept.refl _
  | some session =>
      rw [session?_unlist listed]
      split
      · next same => exact .map (unlists same) _
      · refine .map (fun session => ?_) _
        unfold bereft
        split
        · exact kept.abandonCalls allows _ id session
        · exact kept.refl session

/-- Every session goes on when a frame is handled, with no entries pushed but those that the frame
sends. Only the session that hands it in can sign in. -/
theorem Handled.carried (handled : Handled service order sender frame after) {id : SessionId}
    (signIn : ∀ asker version refreshRate features, service.session? sender = some asker →
      id = asker.id → frame.message = .ok (.signinRequest version refreshRate features) →
      ∀ session, relation session (session.signIn refreshRate features))
    (allows : ∀ entry, service.Sends sender frame entry → allowed entry) :
    Carried relation (service.session? id) (after.session? id) := by
  cases handled with
  | nothing => exact .refl kept.refl _
  | signedIn found asked =>
      rw [session?_modifySession]
      split
      · next isAsker => exact .map (signIn _ _ _ _ found isAsker asked) _
      · exact .refl kept.refl _
  | created found allowed success asked pathFits dataFits =>
      exact carried_broadcast kept.refl
        (fun session => kept.push _ session (allows _ (.creation pathFits success))) service _
        order id
  | deleted success =>
      exact carried_broadcast kept.refl
        (fun session => kept.push _ session (allows _ (.deletion success))) service _ order id
  | written success found allowed asked fits =>
      refine carried_setValue (fun entries are => kept.pushAll ?_) success id
      intro entry mem
      rcases are entry mem with ⟨uuid, rfl⟩
      exact allows _ (.update found allowed asked fits success uuid)
  | watched watches found allowed => exact .refl kept.refl _
  | called found signedIn asked callee made =>
      exact carried_call kept (allows _ (.request found ⟨_, _, asked, made⟩)) id
  | answered found asked listed recorded mine =>
      refine carried_answerCall kept ?_ listed id
      intro entry isAnswer
      rcases Session.frame_of_mem_answerEntries isAnswer with ⟨answer, made, rfl⟩
      exact allows _ (.answer asked made)

theorem Handled.carried_of_sends (handled : Handled service order sender frame after)
    (signIn : ∀ refreshRate features session,
      relation session (session.signIn refreshRate features))
    (allows : ∀ entry, service.Sends sender frame entry → allowed entry) (id : SessionId) :
    Carried relation (service.session? id) (after.session? id) :=
  handled.carried kept (fun _ _ _ _ _ _ _ => signIn _ _) allows

end Operations

theorem Sends.regular {entry : BacklogEntry} (sends : service.Sends sender frame entry) :
    Session.Regular entry := by
  cases sends with
  | creation fits success => trivial
  | deletion success => trivial
  | update found allowed asked fits success uuid => trivial
  | request found forwards =>
      rcases forwards with ⟨_, _, _, made⟩
      exact Or.inl (Frame.kind_ofMessage made)
  | answer asked made => exact Or.inr (Frame.kind_ofMessage made)

theorem Handled.served (handled : Handled service order sender frame after) (id : SessionId) :
    Carried (Session.Served Session.Regular) (service.session? id) (after.session? id) :=
  handled.carried_of_sends (Session.Served.kept _) (Session.Served.signIn _)
    (fun _ sends => sends.regular) id

/-! ## What a frame does to the rest of the service -/

theorem Handled.rest (handled : Handled service order sender frame after) :
    after.nextSession = service.nextSession ∧ after.maxBody = service.maxBody := by
  cases handled with
  | nothing => exact ⟨rfl, rfl⟩
  | signedIn found asked => exact ⟨rfl, rfl⟩
  | created found allowed success => exact (broadcast_rest _ _ _).2
  | deleted success => exact (broadcast_rest _ _ _).2
  | written success => exact ⟨rfl, rfl⟩
  | watched watches found allowed => exact ⟨rfl, rfl⟩
  | called found allowed asked callee made => exact (addCall_rest _ _ _ _).2
  | answered found asked listed recorded mine => exact ⟨rfl, rfl⟩

theorem Handled.sound (handled : Handled service order sender frame after)
    (sound : service.tree.Sound) : after.tree.Sound := by
  cases handled with
  | nothing => exact sound
  | signedIn found asked => exact sound
  | created found allowed success =>
      rw [(broadcast_rest _ _ _).1]
      exact sound.create success
  | deleted success =>
      rw [(broadcast_rest _ _ _).1]
      exact sound.delete success
  | written success => exact (Tree.quiet_setValue passive_reaction success).sound sound
  | watched watches found allowed => exact watches.alike.sound sound
  | called found allowed asked callee made => exact (addCall_rest _ _ _ _).1.quiet.sound sound
  | answered found asked listed recorded mine => exact (lent_releaseCalls _ _).quiet.sound sound

/-- What a frame creates, its sender owns, who has signed in. -/
theorem Handled.grown (handled : Handled service order sender frame after) :
    ∃ owner?, service.tree.Grown after.tree owner? ∧ ∀ id, owner? = some id →
      ∃ session, service.session? sender = some session ∧ session.signedIn = true ∧
        session.id = id := by
  have without (quiet : service.tree.Grown after.tree none) : ∃ owner?,
      service.tree.Grown after.tree owner? ∧ ∀ id, owner? = some id →
        ∃ session, service.session? sender = some session ∧ session.signedIn = true ∧
          session.id = id :=
    ⟨none, quiet, fun _ impossible => nomatch impossible⟩
  cases handled with
  | nothing => exact without ((Tree.Quiet.refl _).grown none)
  | signedIn found asked => exact without ((Tree.Quiet.refl _).grown none)
  | created found allowed success =>
      rw [(broadcast_rest _ _ _).1]
      refine ⟨_, Tree.grown_create success, ?_⟩
      rintro id ⟨rfl⟩
      exact ⟨_, found, allowed, rfl⟩
  | deleted success =>
      apply without
      rw [(broadcast_rest _ _ _).1]
      exact Tree.grown_delete success none
  | written success => exact without ((Tree.quiet_setValue passive_reaction success).grown none)
  | watched watches found allowed => exact without (watches.alike.quiet.grown none)
  | called found allowed asked callee made =>
      exact without ((addCall_rest _ _ _ _).1.quiet.grown none)
  | answered found asked listed recorded mine =>
      exact without ((lent_releaseCalls _ _).quiet.grown none)

end Service

end SharedTree
