import SharedTree.Proofs.Service.Offline
import Mathlib.Data.List.Perm.Basic

/-!
# The order of visiting

An announcement visits the listed sessions, and a write those who watch the value. What a visit does
to a session depends on that session alone, so the visits can be made in any order: a broadcast
changes different entries of one table, and whether a subscriber is served is settled before the
delivery begins, even for those whose session stops in the course of it.

`Runs.handleAll_eq` is about whole sequences of frames: whatever orders the frames are handled in,
they get the same answers and leave the same service.
-/

namespace SharedTree

/-- Visits members in the opposite order. -/
def VisitOrder.reversed : VisitOrder := ⟨List.reverse, List.reverse_perm⟩

namespace Tree

/-- Which registrations are removed counts, not in which order. -/
theorem prune_perm (tree : Tree) (handle : Handle) {unserved others : List Registration}
    (same : unserved.Perm others) : tree.prune handle unserved = tree.prune handle others := by
  simp only [prune, same.contains_eq]

end Tree

namespace Service

open Registration (Proper)

variable {service : Service} {update : ValueUpdate} {registrations others : List Registration}
  {sessions : Table SessionId Session} {tree : Tree} {bound : Nat}

/-! ## Announcements -/

theorem modifySession_comm (change : Session → Session) (service : Service) (id other : SessionId) :
    (service.modifySession id change).modifySession other change =
      (service.modifySession other change).modifySession id change := by
  by_cases same : id = other
  · rw [same]
  · exact congrArg (fun sessions => { service with sessions })
      (Table.modify_comm (fun _ _ => rfl) service.sessions)

theorem broadcast_eq (service : Service) (order other : VisitOrder) (change : TreeChange) :
    service.broadcast order change = service.broadcast other change := by
  have same := (order.perm service.listed).trans (other.perm service.listed).symm
  rw [broadcast_eq_foldl, broadcast_eq_foldl]
  exact same.foldl_eq' (fun id _ next _ service =>
    modifySession_comm (announcedTo change) service id next) service

/-! ## Deliveries -/

/-- An update reaches a session: it exists, receives, and has room. -/
def reaches (update : ValueUpdate) (sessions : Table SessionId Session) (id : SessionId) : Bool :=
  (sessions.find? id).any fun session => (session.notify update).1

theorem reaction_eq (observer : Observer) (update : ValueUpdate) (tree : Tree)
    (sessions : Table SessionId Session) :
    reaction observer update (tree, sessions) =
      (reaches update sessions (UInt64.ofNat observer), tree,
        sessions.modify (UInt64.ofNat observer) (·.push (.update update))) := by
  unfold reaction reaches
  dsimp only
  cases found : sessions.find? (UInt64.ofNat observer) with
  | none => rw [Table.modify_of_absent found, Option.any_none]
  | some session =>
      have told : sessions.modify (UInt64.ofNat observer) (fun _ => (session.notify update).2) =
          sessions.modify (UInt64.ofNat observer) (·.push (.update update)) := by
        apply Table.modify_congr
        intro value isThere
        rw [Option.some.inj (isThere.symm.trans found), Session.notify_snd]
      simp only [told, Option.any_some]

/-- Every subscriber is visited on its own: who is not served is known before the delivery, and what
is pushed to one session leaves the others as they are. -/
theorem deliver_eq (proper : Proper registrations) (update : ValueUpdate) (tree : Tree)
    (sessions : Table SessionId Session) :
    deliver reaction update registrations (tree, sessions) =
      (registrations.filter fun registration => !reaches update sessions registration.1, tree,
        registrations.foldl (fun sessions registration =>
          sessions.modify registration.1 (·.push (.update update))) sessions) := by
  induction registrations generalizing sessions with
  | nil => rfl
  | cons first rest ih =>
      -- The first visit changes its own subscriber only, so the rest are served as without it.
      have others : ∀ registration ∈ rest,
          (!reaches update (sessions.modify first.1 (·.push (.update update))) registration.1) =
            !reaches update sessions registration.1 := by
        intro registration mem
        have different : registration.1 ≠ first.1 := fun same =>
          proper.head_not_mem (same ▸ List.mem_map_of_mem mem)
        rw [reaches, Table.find?_modify, if_neg different]
        rfl
      simp only [deliver, reaction_eq, proper.observer_eq List.mem_cons_self, ih proper.tail,
        List.foldl_cons]
      rw [List.filter_congr others]
      cases reached : reaches update sessions first.1 <;> simp [reached]

theorem foldl_modify_perm (push : Session → Session) (same : registrations.Perm others)
    (sessions : Table SessionId Session) :
    registrations.foldl (fun sessions registration => sessions.modify registration.1 push) sessions =
      others.foldl (fun sessions registration => sessions.modify registration.1 push) sessions := by
  refine same.foldl_eq' (fun first _ second _ sessions => ?_) sessions
  by_cases equal : first.1 = second.1
  · rw [equal]
  · exact Table.modify_comm (fun _ _ => rfl) sessions

/-! ## Writes -/

theorem write_eq (attended : Attended bound tree) (order other : VisitOrder) (handle : Handle)
    (data : Bytes) (sessions : Table SessionId Session) :
    Tree.write reaction order handle data (tree, sessions) =
      Tree.write reaction other handle data (tree, sessions) := by
  simp only [Tree.write, Option.bind_eq_bind]
  cases found : tree.property? handle with
  | none => simp only [Option.bind_none]
  | some property =>
      cases isWatched : property.watchers? with
      | none => simp [isWatched]
      | some watchers =>
          have genuine : Genuine bound watchers := by
            rw [property.watchers?_eq_value?, Option.map_eq_some_iff] at isWatched
            rcases isWatched with ⟨value, isValue, rfl⟩
            exact attended handle value (Option.bind_eq_some_iff.mpr ⟨property, found, isValue⟩)
          have same := (order.perm watchers.entries).trans (other.perm watchers.entries).symm
          simp only [Option.bind_some, isWatched, deliver_eq (genuine.proper _)]
          rw [Tree.prune_perm _ handle (same.filter _), foldl_modify_perm _ same]

theorem setValue_eq (attended : Attended bound service.tree) (order other : VisitOrder)
    (update : ValueUpdate) : service.setValue order update = service.setValue other update := by
  have held (handle : Handle) : Attended bound (service.tree.hold handle) := by
    intro written value isValue
    rw [Tree.value?_hold] at isValue
    exact attended written value isValue
  have same : Tree.setValue reaction order update.uuid update.data
      (service.tree, service.sessions) = Tree.setValue reaction other update.uuid update.data
      (service.tree, service.sessions) := by
    simp only [Tree.setValue_eq, write_eq (held _) order other]
  rw [setValue, setValue, same]

/-! ## Frames -/

theorem create_eq (service : Service) (order other : VisitOrder) (sender : SessionId)
    (kind : PropertyKind) (data : Bytes) (path : String) :
    service.create order sender kind data path = service.create other sender kind data path := by
  simp only [create_outcome, broadcast_eq _ order other]

theorem delete_eq (service : Service) (order other : VisitOrder) (path : String) :
    service.delete order path = service.delete other path := by
  simp only [delete_outcome, broadcast_eq _ order other]

theorem handleMessage_eq (attended : Attended bound service.tree) (order other : VisitOrder)
    (sender : Session) (transaction : TransactionId) (message : Message) :
    service.handleMessage order sender transaction message =
      service.handleMessage other sender transaction message := by
  cases signedIn : sender.signedIn <;> cases message <;>
    simp only [handleMessage, signedIn, create_eq _ order other, delete_eq _ order other,
      setValue_eq attended order other]

theorem handle_eq (attended : Attended bound service.tree) (order other : VisitOrder)
    (sender : SessionId) (frame : Frame) :
    service.handle order sender frame = service.handle other sender frame := by
  simp only [handle, handleMessage_eq attended order other]

/-- Handles frames of sessions one after the other, each with an order of visiting of its own. Returns
the answers in turn. -/
def handleAll (service : Service) :
    List (VisitOrder × SessionId × Frame) → Service × List (Option Frame)
  | [] => (service, [])
  | (order, sender, frame) :: rest =>
    let (service, answer) := service.handle order sender frame
    let (service, answers) := service.handleAll rest
    (service, answer :: answers)

end Service

namespace Runs

variable {maxBody : Nat} {log : List Occurrence} {service : Service}

/-- Nothing that comes of handling frames shows in which order sessions and watchers were visited:
neither an answer, nor the tree, nor anything that is known of any session. -/
theorem handleAll_eq (run : Runs maxBody log service)
    {frames others : List (VisitOrder × SessionId × Frame)}
    (same : frames.map Prod.snd = others.map Prod.snd) :
    service.handleAll frames = service.handleAll others := by
  induction frames generalizing log service others with
  | nil => rw [List.map_eq_nil_iff.mp (same.symm.trans List.map_nil)]
  | cons first rest ih =>
      rcases first with ⟨order, sender, frame⟩
      rw [List.map_cons] at same
      rcases List.map_eq_cons_iff.mp same.symm with ⟨⟨other, asked⟩, others, rfl, isFirst, isRest⟩
      cases isFirst
      have handled := Service.handle_eq run.attended order other sender frame
      have later := ih (run.next (.frame other sender frame) trivial) isRest.symm
      simp only [Service.next] at later
      simp only [Service.handleAll, handled, later]

/-- Two watchers have room for one entry each, so the second write stops both. -/
theorem handleAll_eq_overflow :
    ∃ log service frame, Runs 64 log service ∧
      frame.message = .ok (.setValueIndication ⟨100, [2]⟩) ∧
      service.handleAll [(.stored, 1, frame), (.stored, 1, frame)] =
        service.handleAll [(.reversed, 1, frame), (.reversed, 1, frame)] ∧
      [2, 3].map (fun id => ((service.handleAll
        [(.stored, 1, frame)]).1.session? id).map (·.stopped)) = [some false, some false] ∧
      [2, 3].map (fun id => ((service.handleAll
        [(.stored, 1, frame), (.stored, 1, frame)]).1.session? id).map (·.stopped)) =
          [some true, some true] := by
  have run : Runs 64 [] (.new 64) := .new
  have run := run.next (.opened 8 .sink) (by decide)
  have run := run.next (.opened 1 .sink) (by decide)
  have run := run.next (.opened 1 .sink) (by decide)
  have run := run.serve 1 7 (.signinRequest protocolVersion 0 ⟨0⟩) rfl
  have run := run.serve 1 7 (.createRequest .value [1] "/a") rfl
  have run := run.serve 2 7 (.signinRequest protocolVersion 0 ⟨0⟩) rfl
  have run := run.serve 3 7 (.signinRequest protocolVersion 0 ⟨0⟩) rfl
  have run := run.serve 2 7 (.subscribeRequest 100) rfl
  have run := run.serve 3 7 (.subscribeRequest 100) rfl
  have asked : Frame.ofMessage (.setValueIndication ⟨100, [2]⟩) 7 =
      .ok ⟨⟨49, 18, 7⟩, [100, 0, 0, 0, 1, 0, 0, 0, 2]⟩ := rfl
  exact ⟨_, _, _, run, Frame.message_ofMessage asked, run.handleAll_eq rfl, rfl, rfl⟩

end Runs

end SharedTree
