import SharedTree.Proofs.Session
import SharedTree.Proofs.Tree.Operations
import SharedTree.Proofs.Tree.Quiet
import SharedTree.Service.Request

/-!
# Effects on sessions

This file says, for each operation of the service, what becomes of any one session, and
that most operations do no more to the tree than hold and release properties.
-/

namespace SharedTree

namespace Service

variable {service next : Service}

theorem session?_modifySession (service : Service) (id : SessionId) (change : Session → Session)
    (other : SessionId) :
    (service.modifySession id change).session? other =
      if other = id then (service.session? other).map change else service.session? other :=
  Table.find?_modify _ _ _ _

@[simp] theorem session?_releaseCalls (service : Service) (calls : List PendingCall) :
    (service.releaseCalls calls).session? = service.session? := rfl

theorem lent_releaseCalls (service : Service) (calls : List PendingCall) :
    service.tree.Lent (service.releaseCalls calls).tree := by
  suffices holds : ∀ tree : Tree,
      tree.Lent (calls.foldl (fun tree call => tree.release call.endpoint) tree) from
    holds service.tree
  induction calls with
  | nil => exact fun _ => .refl
  | cons call calls ih =>
      intro tree
      exact (Tree.Lent.refl.release call.endpoint).trans (ih _)

theorem mem_listed_iff (service : Service) (id : SessionId) :
    id ∈ service.listed ↔ ∃ session, service.session? id = some session ∧
      session.listed = true := by
  simp only [listed, listedIn, Table.mem_keys_iff, Table.find?_filter, Option.filter_eq_some_iff,
    session?]

theorem nodup_listed (service : Service) : service.listed.Nodup := Table.keys_nodup _

theorem listed?_eq_some_iff (service : Service) (id : SessionId) (session : Session) :
    service.listed? id = some session ↔
      service.session? id = some session ∧ session.listed = true :=
  Option.filter_eq_some_iff

theorem session?_of_listed? {service : Service} {id : SessionId} {session : Session}
    (listed : service.listed? id = some session) : service.session? id = some session :=
  ((listed?_eq_some_iff _ _ _).mp listed).1

/-! ## Visiting many sessions -/

/-- A step that changes one session, and at most holds and releases properties of the tree. -/
structure Visits (step : Service → SessionId → Service) (change : SessionId → Session → Session) :
    Prop where
  session? : ∀ (service : Service) (id other : SessionId), (step service id).session? other =
    if other = id then (service.session? other).map (change id) else service.session? other
  lent : ∀ (service : Service) (id : SessionId), service.tree.Lent (step service id).tree
  rest : ∀ (service : Service) (id : SessionId),
    (step service id).nextSession = service.nextSession ∧
      (step service id).maxBody = service.maxBody

namespace Visits

variable {step : Service → SessionId → Service} {change : SessionId → Session → Session}

theorem session?_foldl (visits : Visits step change) {ids : List SessionId} (nodup : ids.Nodup)
    (service : Service) (id : SessionId) :
    (ids.foldl step service).session? id =
      if id ∈ ids then (service.session? id).map (change id) else service.session? id := by
  induction ids generalizing service with
  | nil => simp
  | cons first ids ih =>
      rw [List.nodup_cons] at nodup
      rw [List.foldl_cons, ih nodup.2, visits.session?]
      by_cases same : id = first
      · rw [same, if_neg nodup.1, if_pos rfl, if_pos (by simp)]
      · simp [same]

theorem lent_foldl (visits : Visits step change) (ids : List SessionId) (service : Service) :
    service.tree.Lent (ids.foldl step service).tree := by
  induction ids generalizing service with
  | nil => exact .refl
  | cons first ids ih => exact (visits.lent service first).trans (ih _)

theorem rest_foldl (visits : Visits step change) (ids : List SessionId) (service : Service) :
    (ids.foldl step service).nextSession = service.nextSession ∧
      (ids.foldl step service).maxBody = service.maxBody := by
  induction ids generalizing service with
  | nil => exact ⟨rfl, rfl⟩
  | cons first ids ih =>
      have now := visits.rest service first
      have later := ih (step service first)
      exact ⟨later.1.trans now.1, later.2.trans now.2⟩

end Visits

theorem visits_modifySession (change : Session → Session) :
    Visits (fun service id => service.modifySession id change) fun _ => change where
  session? service id other := service.session?_modifySession id change other
  lent _ _ := .refl
  rest _ _ := ⟨rfl, rfl⟩

theorem visits_abandonCalls (calls : SessionId → VisitOrder) (handler : SessionId) :
    Visits (fun service caller => (service.abandonCalls (calls caller) caller handler).2)
      (fun caller session => (session.abandonCalls (calls caller) handler).2) where
  session? := by
    intro service caller other
    unfold abandonCalls
    cases found : service.session? caller with
    | none =>
        dsimp only
        split
        · next same => rw [same, found, Option.map_none]
        · rfl
    | some session =>
        dsimp only
        rw [session?_releaseCalls, session?_modifySession]
        split
        · next same => rw [same, found, Option.map_some, Option.map_some]
        · rfl
  lent := by
    intro service caller
    unfold abandonCalls
    split
    · exact .refl
    · exact lent_releaseCalls _ _
  rest := by
    intro service caller
    unfold abandonCalls
    split <;> exact ⟨rfl, rfl⟩

/-- What becomes of a session when a change is announced. -/
def announcedTo (change : TreeChange) (session : Session) : Session :=
  if session.signedIn then session.push (.change change) else session

/-- Announcing a change visits the listed sessions one after the other. -/
theorem broadcast_eq_foldl (service : Service) (order : VisitOrder) (change : TreeChange) :
    service.broadcast order change =
      (order.arrange service.listed).foldl
        (fun service id => service.modifySession id (announcedTo change)) service := by
  have step : ∀ sessions id,
      ({ service with sessions } : Service).modifySession id (announcedTo change) =
        { service with sessions := sessions.modify id (announcedTo change) } := fun _ _ => rfl
  exact (List.foldl_hom (fun sessions => ({ service with sessions } : Service)) step).symm

theorem session?_broadcast (service : Service) (order : VisitOrder) (change : TreeChange)
    (id : SessionId) :
    (service.broadcast order change).session? id = (service.session? id).map fun session =>
      if session.listed then announcedTo change session else session := by
  have members := order.perm service.listed
  rw [broadcast_eq_foldl, (visits_modifySession (announcedTo change)).session?_foldl
    (members.nodup_iff.mpr service.nodup_listed)]
  simp only [members.mem_iff, mem_listed_iff]
  cases found : service.session? id with
  | none => simp
  | some session => by_cases listed : session.listed = true <;> simp [listed]

theorem broadcast_rest (service : Service) (order : VisitOrder) (change : TreeChange) :
    (service.broadcast order change).tree = service.tree ∧
      (service.broadcast order change).nextSession = service.nextSession ∧
      (service.broadcast order change).maxBody = service.maxBody := ⟨rfl, rfl, rfl⟩

/-! ## Leaving -/

/-- What becomes of another session when one leaves the list. -/
def bereft (order : VisitOrder) (handler : SessionId) (session : Session) : Session :=
  if session.listed then (session.abandonCalls order handler).2 else session

theorem session?_unlist {id : SessionId} {session : Session}
    (listed : service.listed? id = some session) (order : LeaveOrder) (other : SessionId) :
    (service.unlist order id).2.session? other =
      if other = id then
        (service.session? other).map fun session => { session with listed := false }
      else (service.session? other).map (bereft (order.calls other) id) := by
  have members (service : Service) := order.callers.perm service.listed
  simp only [unlist, listed, (visits_abandonCalls order.calls id).session?_foldl
    ((members _).nodup_iff.mpr (nodup_listed _)), (members _).mem_iff, mem_listed_iff,
    session?_modifySession]
  by_cases same : other = id
  · simp only [if_pos same]
    cases service.session? other <;> simp
  · simp only [if_neg same]
    cases found : service.session? other with
    | none => simp
    | some session => by_cases isListed : session.listed = true <;> simp [bereft, isListed]

theorem unlist_of_unlisted {id : SessionId} (unlisted : service.listed? id = none)
    (order : LeaveOrder) : (service.unlist order id).2 = service := by
  simp [unlist, unlisted]

theorem unlist_rest (service : Service) (order : LeaveOrder) (id : SessionId) :
    service.tree.Lent (service.unlist order id).2.tree ∧
      (service.unlist order id).2.nextSession = service.nextSession ∧
      (service.unlist order id).2.maxBody = service.maxBody := by
  cases listed : service.listed? id with
  | none =>
      rw [unlist_of_unlisted listed]
      exact ⟨.refl, rfl, rfl⟩
  | some session =>
      simp only [unlist, listed]
      exact ⟨(visits_abandonCalls order.calls id).lent_foldl _ (service.modifySession id _),
        (visits_abandonCalls order.calls id).rest_foldl _ _⟩

theorem session?_close (service : Service) (order : LeaveOrder) (id other : SessionId) :
    (service.close order id).2.session? other =
      if other = id then none else (service.unlist order id).2.session? other := by
  unfold close
  dsimp only
  split
  · next absent =>
    split
    · next same => rw [same, absent]
    · rfl
  · rw [session?_releaseCalls]
    exact Table.find?_erase _ _ _

theorem close_rest (service : Service) (order : LeaveOrder) (id : SessionId) :
    service.tree.Lent (service.close order id).2.tree ∧
      (service.close order id).2.nextSession = service.nextSession ∧
      (service.close order id).2.maxBody = service.maxBody := by
  have before := service.unlist_rest order id
  unfold close
  dsimp only
  split
  · exact before
  · exact ⟨before.1.trans (lent_releaseCalls _ _), before.2⟩

/-! ## Writing -/

theorem passive_reaction (observer : Observer) (update : ValueUpdate)
    (world : Tree × Table SessionId Session) : (reaction observer update world).2.1 = world.1 := by
  unfold reaction
  dsimp only
  split <;> rfl

theorem find?_reaction (observer : Observer) (update : ValueUpdate)
    (world : Tree × Table SessionId Session) (id : SessionId) :
    (reaction observer update world).2.2.find? id =
      if id = UInt64.ofNat observer then (world.2.find? id).map (·.push (.update update))
      else world.2.find? id := by
  unfold reaction
  dsimp only
  split
  · next absent =>
    split
    · next same => rw [same, absent, Option.map_none]
    · rfl
  · next session found =>
    rw [Table.find?_modify]
    split
    · next same =>
      rw [same, found, Option.map_some, Option.map_some, Session.notify_snd]
    · rfl

/-- A session, and what it is when updates with a payload have been pushed into its backlog. -/
def Updated (data : Bytes) (before after : Option Session) : Prop :=
  ∃ entries : List BacklogEntry,
    (∀ entry ∈ entries, ∃ uuid, entry = .update { uuid, data }) ∧
      after = before.map (·.pushAll entries)

theorem updated_of_setValue {order : VisitOrder} {uuid : Uuid} {data : Bytes} {tree : Tree}
    {sessions : Table SessionId Session}
    (success : Tree.setValue reaction order uuid data (service.tree, service.sessions) =
      (.ok (), tree, sessions)) (id : SessionId) :
    Updated data (service.session? id) (sessions.find? id) := by
  rcases Tree.setValue_eq_ok success with
    ⟨handle, property, watchers, unserved, delivered, _, _, _, delivery, rfl⟩
  have reacts : ∀ observer (world : Tree × Table SessionId Session),
      Updated data (service.session? id) (world.2.find? id) → Updated data (service.session? id)
        ((reaction observer { uuid := property.uuid, data } world).2.2.find? id) := by
    rintro observer world ⟨entries, updates, after⟩
    rw [find?_reaction, after]
    split
    · refine ⟨entries ++ [.update { uuid := property.uuid, data }], ?_, ?_⟩
      · intro entry mem
        rcases List.mem_append.mp mem with old | last
        · exact updates entry old
        · exact ⟨_, List.mem_singleton.mp last⟩
      · rw [Option.map_map]
        simp only [Function.comp_def, Session.pushAll_append]
        rfl
    · exact ⟨entries, updates, rfl⟩
  have before : Updated data (service.session? id) (service.sessions.find? id) := by
    refine ⟨[], by simp, ?_⟩
    show service.session? id = (service.session? id).map fun session => session.pushAll []
    cases service.session? id <;> rfl
  have result := Tree.deliver_preserves { uuid := property.uuid, data }
    (fun world : Tree × Table SessionId Session =>
      Updated data (service.session? id) (world.2.find? id)) reacts
    (order.arrange watchers.entries)
    ((service.tree.hold handle).overwrite handle data, service.sessions) before
  rw [delivery] at result
  exact result

/-! ## What requests come to

A request that the tree refuses leaves the service as it was, since a failing operation leaves the tree
and the sessions as they were.
-/

theorem create_outcome (service : Service) (order : VisitOrder) (sender : SessionId) (kind : PropertyKind)
    (data : Bytes) (path : String) :
    service.create order sender kind data path =
      if !service.creationFits kind path then (service, .createResponse .malformedPath noUuid)
      else if !service.updateFits data then (service, .createResponse .typeError noUuid)
      else
        match service.tree.create path kind data sender with
        | (.error error, _) => (service, .createResponse (createCode error) noUuid)
        | (.ok info, tree) =>
          (({ service with tree } : Service).broadcast order (.created info),
            .createResponse .ok info.uuid) := by
  simp only [create, Tree.on_createWith_eq]
  rcases result : service.tree.create path kind data sender with ⟨error | info, tree⟩
  · have untouched := Tree.create_of_error (congrArg Prod.fst result)
    rw [result] at untouched
    cases untouched
    rfl
  · rfl

theorem delete_outcome (service : Service) (order : VisitOrder) (path : String) :
    service.delete order path =
      match service.tree.delete path with
      | (.error error, _) => (service, .deleteResponse (deleteCode error))
      | (.ok uuid, tree) =>
        (({ service with tree } : Service).broadcast order (.deleted uuid), .deleteResponse .ok) := by
  simp only [delete, Tree.on_deleteWith_eq]
  rcases result : service.tree.delete path with ⟨error | uuid, tree⟩
  · have untouched := Tree.delete_of_error (congrArg Prod.fst result)
    rw [result] at untouched
    cases untouched
    rfl
  · rfl

theorem setValue_outcome (service : Service) (order : VisitOrder) (update : ValueUpdate) :
    service.setValue order update =
      if !service.updateFits update.data then service
      else
        match Tree.setValue reaction order update.uuid update.data
          (service.tree, service.sessions) with
        | (.error _, _) => service
        | (.ok _, tree, sessions) => { service with tree, sessions } := by
  unfold setValue
  split
  · rfl
  · rcases result : Tree.setValue reaction order update.uuid update.data
      (service.tree, service.sessions) with ⟨error | _, world⟩
    · have untouched := Tree.setValue_of_error (congrArg Prod.fst result)
      rw [result] at untouched
      cases untouched
      rfl
    · rfl

theorem subscribe_outcome (service : Service) (sender : Session) (uuid : Uuid) :
    service.subscribe sender uuid =
      match service.tree.subscribe uuid sender.id sender.observer with
      | (.error error, _) => (service, .subscribeResponse (subscribeCode error))
      | (.ok _, tree) => ({ service with tree }, .subscribeResponse .ok) := by
  unfold subscribe
  rcases result : service.tree.subscribe uuid sender.id sender.observer with ⟨error | _, tree⟩
  · have untouched := Tree.subscribe_of_error (congrArg Prod.fst result)
    rw [result] at untouched
    cases untouched
    rfl
  · rfl

theorem unsubscribe_outcome (service : Service) (sender : Session) (uuid : Uuid) :
    service.unsubscribe sender uuid =
      match service.tree.unsubscribe uuid sender.id with
      | (.error error, _) => (service, .unsubscribeResponse (unsubscribeCode error))
      | (.ok _, tree) => ({ service with tree }, .unsubscribeResponse .ok) := by
  unfold unsubscribe
  rcases result : service.tree.unsubscribe uuid sender.id with ⟨error | _, tree⟩
  · have untouched := Tree.unsubscribe_of_error (congrArg Prod.fst result)
    rw [result] at untouched
    cases untouched
    rfl
  · rfl

/-! ## Calls -/

theorem session?_addCall (service : Service) (caller : SessionId) (transaction : TransactionId)
    (endpoint : Handle) (other : SessionId) :
    (service.addCall caller transaction endpoint).session? other =
      if other = caller then
        (service.session? other).map fun session => (session.addCall transaction
          ⟨endpoint, (service.tree.property? endpoint).bind (·.handler?)⟩).2
      else service.session? other := by
  unfold addCall
  cases found : service.session? caller with
  | none =>
      dsimp only
      split
      · next same => rw [same, found, Option.map_none]
      · rfl
  | some session =>
      dsimp only
      rw [session?_releaseCalls, session?_modifySession]
      split
      · next same =>
        have foundNow : ({ service with tree := service.tree.hold endpoint } : Service).session?
          caller = some session := found
        rw [same, foundNow, found, Option.map_some, Option.map_some]
      · rfl

theorem addCall_rest (service : Service) (caller : SessionId) (transaction : TransactionId)
    (endpoint : Handle) :
    service.tree.Lent (service.addCall caller transaction endpoint).tree ∧
      (service.addCall caller transaction endpoint).nextSession = service.nextSession ∧
      (service.addCall caller transaction endpoint).maxBody = service.maxBody := by
  unfold addCall
  split
  · exact ⟨.refl, rfl, rfl⟩
  · refine ⟨(Tree.Lent.refl.hold endpoint).trans ?_, rfl, rfl⟩
    exact lent_releaseCalls
      (({ service with tree := service.tree.hold endpoint } : Service).modifySession caller _) _

theorem completeCall_eq {caller handler : SessionId} {transaction : TransactionId}
    {session : Session} {call : PendingCall} (found : service.session? caller = some session)
    (recorded : session.pending.find? transaction = some call)
    (mine : call.handler = some handler) :
    service.completeCall caller transaction handler =
      (true, (service.modifySession caller fun _ =>
        { session with pending := session.pending.erase transaction }).releaseCalls [call]) := by
  simp [completeCall, found, Session.completeCall, recorded, mine]

/-- A session that is put back as it was leaves the service as it was. -/
theorem modifySession_eq_self {id : SessionId} {session : Session}
    (found : service.session? id = some session) :
    (service.modifySession id fun _ => session) = service := by
  have kept : service.sessions.modify id (fun _ => session) = service.sessions :=
    Table.modify_eq_self fun other otherFound => Option.some.inj (found.symm.trans otherFound)
  rw [modifySession, kept]

theorem completeCall_eq_false {caller handler : SessionId} {transaction : TransactionId}
    {session : Session} (found : service.session? caller = some session)
    (foreign : ∀ call, session.pending.find? transaction = some call →
      call.handler ≠ some handler) :
    service.completeCall caller transaction handler = (false, service) := by
  have untouched : session.completeCall transaction handler = (none, session) := by
    unfold Session.completeCall
    cases recorded : session.pending.find? transaction with
    | none => rfl
    | some call => exact if_neg (foreign call recorded)
  simp only [completeCall, found, untouched, modifySession_eq_self found]
  rfl

end Service

end SharedTree
