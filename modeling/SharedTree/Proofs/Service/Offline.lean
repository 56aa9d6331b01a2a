import SharedTree.Proofs.Service.Watching

/-!
# Services without channels

Handling frames never looks at the channels of the sessions, nor at how many of their messages were
given up. `Service.offline` forgets both, and `Service.offline_handle` says that a service handles
a frame as it would without them.
-/

namespace SharedTree

/-- The session with nothing to write to, and with no message given up. -/
def Session.offline (session : Session) : Session :=
  { session with framingErrors := 0, channel := { transport := .sink } }

/-- The service with all its sessions offline. -/
def Service.offline (service : Service) : Service :=
  { service with sessions := service.sessions.map fun _ session => session.offline }

namespace Table

universe u v

variable {κ : Type u} {ν : Type v} [DecidableEq κ]

theorem map_modify {change changed view : ν → ν} (table : Table κ ν) (key : κ)
    (commutes : ∀ value, view (change value) = changed (view value)) :
    (table.modify key change).map (fun _ => view) =
      (table.map fun _ => view).modify key changed := by
  apply Table.ext
  simp only [modify, map, List.map_map]
  apply List.map_congr_left
  intro entry _
  by_cases same : entry.1 = key <;> simp [same, commutes]

end Table

/-! ## Writing values -/

/-- Two ways in which observers may react that differ in the world outside only. -/
def Reaction.Follows {ω υ : Type} (view : ω → υ) (react : Reaction ω) (other : Reaction υ) : Prop :=
  ∀ observer update tree outside,
    other observer update (tree, view outside) =
      ((react observer update (tree, outside)).1, (react observer update (tree, outside)).2.1,
        view (react observer update (tree, outside)).2.2)

namespace Reaction.Follows

variable {ω υ : Type} {view : ω → υ} {react : Reaction ω} {other : Reaction υ}

theorem deliver (follows : Follows view react other) (update : ValueUpdate)
    (registrations : List Registration) (tree : Tree) (outside : ω) :
    SharedTree.deliver other update registrations (tree, view outside) =
      ((SharedTree.deliver react update registrations (tree, outside)).1,
        (SharedTree.deliver react update registrations (tree, outside)).2.1,
        view (SharedTree.deliver react update registrations (tree, outside)).2.2) := by
  induction registrations generalizing tree outside with
  | nil => rfl
  | cons registration others ih =>
      simp only [SharedTree.deliver]
      rw [follows, ih]

theorem write (follows : Follows view react other) (order : VisitOrder) (handle : Handle)
    (data : Bytes) (tree : Tree) (outside : ω) :
    Tree.write other order handle data (tree, view outside) =
      (Tree.write react order handle data (tree, outside)).map fun world =>
        (world.1, view world.2) := by
  simp only [Tree.write, Option.bind_eq_bind]
  cases tree.property? handle with
  | none => rfl
  | some property =>
      simp only [Option.bind_some]
      cases property.watchers? with
      | none => rfl
      | some watchers =>
          simp only [Option.bind_some, follows.deliver]
          rfl

theorem setValue (follows : Follows view react other) (order : VisitOrder) (uuid : Uuid)
    (data : Bytes) (tree : Tree) (outside : ω) :
    Tree.setValue other order uuid data (tree, view outside) =
      let (outcome, later, seen) := Tree.setValue react order uuid data (tree, outside)
      (outcome, later, view seen) := by
  rw [Tree.setValue_eq, Tree.setValue_eq]
  cases tree.findUuid uuid with
  | error error => rfl
  | ok handle =>
      simp only [follows.write]
      cases Tree.write react order handle data (tree.hold handle, outside) <;> rfl

end Reaction.Follows

namespace Session

theorem offline_push (entry : BacklogEntry) (session : Session) :
    (session.push entry).offline = session.offline.push entry := by
  unfold push
  cases stopped : session.stopped with
  | true => simp [offline, stopped]
  | false =>
      simp only [Bool.false_eq_true, if_false, offline, stopped]
      cases session.backlog.push? entry <;> rfl

theorem offline_pushAnswer (transaction : TransactionId) (returnValue : Bytes) (session : Session) :
    (session.pushAnswer transaction returnValue).offline =
      session.offline.pushAnswer transaction returnValue := by
  unfold pushAnswer
  cases Frame.ofMessage (.rpcResponse returnValue) transaction with
  | ok frame => exact offline_push _ session
  | error error => rfl

end Session

namespace Service

variable {service : Service} {id : SessionId} {session : Session}

theorem session?_offline (service : Service) (id : SessionId) :
    service.offline.session? id = (service.session? id).map Session.offline :=
  Table.find?_map _ _ _

theorem listed_offline (service : Service) : service.offline.listed = service.listed := by
  simp only [listed, listedIn, offline, Table.keys, Table.filter, Table.map, List.filter_map, List.map_map]
  rfl

theorem listed?_offline (service : Service) (id : SessionId) :
    service.offline.listed? id = (service.listed? id).map Session.offline := by
  rw [listed?, listed?, session?_offline]
  cases service.session? id with
  | none => rfl
  | some session =>
      have same : session.offline.listed = session.listed := rfl
      cases listed : session.listed <;> simp [Option.filter, same, listed]

theorem offline_modifySession {change changed : Session → Session} (service : Service)
    (id : SessionId) (commutes : ∀ session, (change session).offline = changed session.offline) :
    (service.modifySession id change).offline = service.offline.modifySession id changed := by
  unfold modifySession offline
  rw [Table.map_modify service.sessions id commutes]

theorem offline_putSession (service : Service) (id : SessionId) (session : Session) :
    (service.modifySession id fun _ => session).offline =
      service.offline.modifySession id fun _ => session.offline :=
  offline_modifySession service id fun _ => rfl

theorem offline_releaseCalls (service : Service) (id : SessionId) (session : Session)
    (calls : List PendingCall) :
    ((service.modifySession id fun _ => session).releaseCalls calls).offline =
      (service.offline.modifySession id fun _ => session.offline).releaseCalls calls :=
  congrArg (·.releaseCalls calls) (offline_putSession service id session)

theorem offline_broadcast (service : Service) (order : VisitOrder) (change : TreeChange) :
    (service.broadcast order change).offline = service.offline.broadcast order change := by
  rw [broadcast_eq_foldl, broadcast_eq_foldl, listed_offline]
  induction order.arrange service.listed generalizing service with
  | nil => rfl
  | cons first others ih =>
      rw [List.foldl_cons, List.foldl_cons, ih]
      congr 1
      refine offline_modifySession service first fun session => ?_
      have same : session.offline.signedIn = session.signedIn := rfl
      rw [announcedTo, announcedTo, same]
      split
      · exact session.offline_push _
      · rfl

theorem offline_create (service : Service) (order : VisitOrder) (sender : SessionId)
    (kind : PropertyKind) (data : Bytes) (path : String) :
    service.offline.create order sender kind data path =
      ((service.create order sender kind data path).1.offline,
        (service.create order sender kind data path).2) := by
  rw [create_outcome, create_outcome]
  have sameTree : service.offline.tree = service.tree := rfl
  have samePath : service.offline.creationFits kind path = service.creationFits kind path := rfl
  have sameData : service.offline.updateFits data = service.updateFits data := rfl
  rw [sameTree, samePath, sameData]
  split
  · rfl
  · split
    · rfl
    · rcases service.tree.create path kind data sender with ⟨error | info, tree⟩
      · rfl
      · exact congrArg (·, _) (offline_broadcast { service with tree } _ _).symm

theorem offline_delete (service : Service) (order : VisitOrder) (path : String) :
    service.offline.delete order path =
      ((service.delete order path).1.offline, (service.delete order path).2) := by
  rw [delete_outcome, delete_outcome]
  have sameTree : service.offline.tree = service.tree := rfl
  rw [sameTree]
  rcases service.tree.delete path with ⟨error | uuid, tree⟩
  · rfl
  · exact congrArg (·, _) (offline_broadcast { service with tree } _ _).symm

theorem follows_reaction : Reaction.Follows
    (fun sessions : Table SessionId Session => sessions.map fun _ session => session.offline)
    reaction reaction := by
  intro observer update tree sessions
  unfold reaction
  dsimp only
  rw [Table.find?_map]
  cases sessions.find? (UInt64.ofNat observer) with
  | none => rfl
  | some session =>
      have notified : session.offline.notify update =
          ((session.notify update).1, (session.notify update).2.offline) := by
        unfold Session.notify
        rw [← Session.offline_push]
        have same : session.offline.stopped = session.stopped := rfl
        rw [same]
        split <;> rfl
      simp only [Option.map_some, notified]
      have kept : (sessions.modify (UInt64.ofNat observer) fun _ => (session.notify update).2).map
          (fun _ session => session.offline) =
            (sessions.map fun _ session => session.offline).modify (UInt64.ofNat observer)
              fun _ => (session.notify update).2.offline :=
        Table.map_modify sessions _ fun _ => rfl
      rw [kept]

theorem offline_setValue (service : Service) (order : VisitOrder) (update : ValueUpdate) :
    service.offline.setValue order update = (service.setValue order update).offline := by
  unfold setValue
  have sameData : service.offline.updateFits update.data = service.updateFits update.data := rfl
  rw [sameData]
  split
  · rfl
  · have written := follows_reaction.setValue order update.uuid update.data service.tree
      service.sessions
    have world : (service.offline.tree, service.offline.sessions) =
        (service.tree, service.sessions.map fun _ session => session.offline) := rfl
    rw [world, written]
    rfl

theorem callee?_offline (service : Service) (uuid : Uuid) :
    service.offline.callee? uuid = service.callee? uuid := by
  have sameTree : service.offline.tree = service.tree := rfl
  have reached (endpoint : Handle) (handler : SessionId) :
      (((service.listed? handler).map Session.offline).bind fun session =>
        if session.stopped = true then none else some (endpoint, handler)) =
      (service.listed? handler).bind fun session =>
        if session.stopped = true then none else some (endpoint, handler) := by
    cases service.listed? handler <;> rfl
  simp only [callee?, sameTree, listed?_offline, Option.bind_eq_bind, reached]

theorem offline_addCall (service : Service) (caller : SessionId) (transaction : TransactionId)
    (endpoint : Handle) :
    (service.addCall caller transaction endpoint).offline =
      service.offline.addCall caller transaction endpoint := by
  unfold addCall
  rw [session?_offline]
  cases service.session? caller with
  | none => rfl
  | some session =>
      exact offline_releaseCalls { service with tree := service.tree.hold endpoint } caller
        (session.addCall transaction
          { endpoint, handler := (service.tree.property? endpoint).bind (·.handler?) }).2
        (session.pending.find? transaction).toList

theorem offline_completeCall (service : Service) (caller : SessionId)
    (transaction : TransactionId) (handler : SessionId) :
    service.offline.completeCall caller transaction handler =
      ((service.completeCall caller transaction handler).1,
        (service.completeCall caller transaction handler).2.offline) := by
  unfold completeCall
  rw [session?_offline]
  cases service.session? caller with
  | none => rfl
  | some session =>
      have removed : session.offline.completeCall transaction handler =
          ((session.completeCall transaction handler).1,
            (session.completeCall transaction handler).2.offline) := by
        have same : session.offline.pending = session.pending := rfl
        unfold Session.completeCall
        rw [same]
        cases session.pending.find? transaction with
        | none => rfl
        | some call =>
            dsimp only
            split <;> rfl
      simp only [Option.map_some, removed]
      exact congrArg (_, ·) (offline_releaseCalls service caller _ _).symm

theorem offline_answerCall (service : Service) (handler caller : SessionId)
    (transaction : TransactionId) (returnValue : Bytes) :
    (service.answerCall handler caller transaction returnValue).offline =
      service.offline.answerCall handler caller transaction returnValue := by
  unfold answerCall
  rw [listed?_offline, offline_completeCall]
  cases service.listed? caller with
  | none => rfl
  | some session =>
      rcases service.completeCall caller transaction handler with ⟨_ | _, completed⟩
      · rfl
      · exact offline_modifySession completed caller fun session =>
          session.offline_pushAnswer transaction returnValue

theorem offline_call (service : Service) (sender : SessionId) (transaction : TransactionId)
    (uuid : Uuid) (parameter : Bytes) :
    service.offline.call sender transaction uuid parameter =
      ((service.call sender transaction uuid parameter).1.offline,
        (service.call sender transaction uuid parameter).2) := by
  unfold call
  rw [callee?_offline]
  cases service.callee? uuid with
  | none => rfl
  | some callee =>
      dsimp only
      cases Frame.ofMessage (.handleRpcRequest sender transaction uuid parameter) unsolicited with
      | error error => rfl
      | ok frame =>
          dsimp only
          rw [← offline_addCall, ← offline_modifySession _ _ (Session.offline_push _)]

theorem offline_signIn (service : Service) (sender : SessionId) (version refreshRate : UInt32)
    (features : FeatureFlags) :
    service.offline.signIn sender version refreshRate features =
      ((service.signIn sender version refreshRate features).1.offline,
        (service.signIn sender version refreshRate features).2) := by
  have kept : (service.modifySession sender (·.signIn refreshRate features)).offline =
      service.offline.modifySession sender (·.signIn refreshRate features) :=
    offline_modifySession service sender fun _ => rfl
  rw [signIn, signIn, kept]

theorem offline_subscribe (service : Service) (sender : Session) (uuid : Uuid) :
    service.offline.subscribe sender.offline uuid =
      ((service.subscribe sender uuid).1.offline, (service.subscribe sender uuid).2) := by
  have same : service.offline.tree.subscribe uuid sender.offline.id sender.offline.observer =
      service.tree.subscribe uuid sender.id sender.observer := rfl
  rw [subscribe, subscribe, same]
  cases service.tree.subscribe uuid sender.id sender.observer
  rfl

theorem offline_unsubscribe (service : Service) (sender : Session) (uuid : Uuid) :
    service.offline.unsubscribe sender.offline uuid =
      ((service.unsubscribe sender uuid).1.offline, (service.unsubscribe sender uuid).2) := by
  have same : service.offline.tree.unsubscribe uuid sender.offline.id =
      service.tree.unsubscribe uuid sender.id := rfl
  rw [unsubscribe, unsubscribe, same]
  cases service.tree.unsubscribe uuid sender.id
  rfl

theorem offline_handleMessage (service : Service) (order : VisitOrder) (sender : Session)
    (transaction : TransactionId) (message : Message) :
    service.offline.handleMessage order sender.offline transaction message =
      ((service.handleMessage order sender transaction message).1.offline,
        (service.handleMessage order sender transaction message).2) := by
  have sameId : sender.offline.id = sender.id := rfl
  have signedIn : sender.offline.signedIn = sender.signedIn := rfl
  have payload (uuid : Uuid) : service.offline.getValue uuid = service.getValue uuid := rfl
  have info (path : String) : service.offline.lookUp path = service.lookUp path := rfl
  cases isSignedIn : sender.signedIn <;> cases message <;>
    simp only [handleMessage, signedIn, isSignedIn, sameId, payload, info, offline_signIn,
      offline_create, offline_delete, offline_setValue, offline_subscribe, offline_unsubscribe,
      offline_call, offline_answerCall]

/-- Without its channels a service handles a frame the same. -/
theorem offline_handle (service : Service) (order : VisitOrder) (sender : SessionId)
    (frame : Frame) :
    service.offline.handle order sender frame =
      ((service.handle order sender frame).1.offline, (service.handle order sender frame).2) := by
  unfold handle
  rw [session?_offline]
  cases service.session? sender with
  | none => rfl
  | some session =>
      cases frame.message with
      | error error => rfl
      | ok message =>
          dsimp only [Option.map_some]
          rw [offline_handleMessage]

theorem offline_openSession (service : Service) (maxEntries : Nat) (transport : Transport) :
    (service.openSession maxEntries transport).2.offline =
      (service.offline.openSession maxEntries .sink).2 := by
  have inserted (table : Table SessionId Session) (id : SessionId) (session : Session) :
      (table.insert id session).map (fun _ session => session.offline) =
        (table.map fun _ session => session.offline).insert id session.offline := by
    apply Table.ext
    simp only [Table.insert, Table.erase, Table.filter, Table.map, List.map_append, List.filter_map]
    rfl
  exact congrArg (fun sessions => { service with sessions, nextSession := service.nextSession + 1 })
    (inserted _ _ _)

theorem offline_drain (service : Service) (id : SessionId) :
    service.offline.drain id = ((service.drain id).1, (service.drain id).2.offline) := by
  unfold drain
  rw [session?_offline]
  cases service.session? id with
  | none => rfl
  | some session =>
      exact congrArg (session.backlog.frames, ·)
        (offline_putSession service id session.drain.2).symm

theorem modifySession_congr {change changed : Session → Session}
    (found : service.session? id = some session) (same : change session = changed session) :
    service.modifySession id change = service.modifySession id changed := by
  refine congrArg (fun sessions => { service with sessions }) (Table.modify_congr ?_)
  intro other isOther
  rw [Option.some.inj (isOther.symm.trans found), same]

/-- Of two changes of a session that differ in its channel only, a service without its channels sees
the same. -/
theorem offline_modifySession_congr {change changed : Session → Session}
    (found : service.session? id = some session)
    (same : (change session).offline = (changed session).offline) :
    (service.modifySession id change).offline = (service.modifySession id changed).offline := by
  have put (change : Session → Session) :
      service.modifySession id change = service.modifySession id fun _ => change session :=
    modifySession_congr found rfl
  rw [put change, put changed, offline_putSession, offline_putSession, same]

theorem offline_modifySession_of_same {change : Session → Session}
    (found : service.session? id = some session)
    (same : (change session).offline = session.offline) :
    (service.modifySession id change).offline = service.offline := by
  have kept : (service.modifySession id change).offline =
      (service.modifySession id fun session => session).offline :=
    offline_modifySession_congr found same
  rw [kept, modifySession, Table.modify_eq_self fun _ _ => rfl]

theorem Coherent.of_offline (coherent : service.offline.Coherent) : service.Coherent := by
  refine ⟨coherent.sound, fun id session found => ?_⟩
  exact coherent.numbered id session.offline (by rw [session?_offline, found, Option.map_some])

end Service

end SharedTree
