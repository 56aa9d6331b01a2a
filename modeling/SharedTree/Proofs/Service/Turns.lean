import SharedTree.Proofs.Service.Events
import SharedTree.Proofs.Tree.Values

/-!
# What events make of the tree

`Service.Turns` lists everything that an event can make of the tree, with all that was
checked on the way: a frame may create or delete a property, write a value, or make its
sender begin or cease to watch one. Apart from that, properties are only held and let go
of.
-/

namespace SharedTree

namespace Service

variable {service : Service} {event : ServiceEvent}

/-- What an event turns the tree into. -/
inductive Turns (service : Service) : ServiceEvent → Tree → Prop where
  | lent {event : ServiceEvent} {after : Tree} (lent : service.tree.Lent after) :
      Turns service event after
  | created {order : VisitOrder} {sender : SessionId} {frame : Frame} {session : Session}
      {path : String} {kind : PropertyKind} {payload : Bytes} {info : PropertyInfo} {tree : Tree}
      (success : service.tree.create path kind payload session.id = (.ok info, tree))
      (pathFits : service.creationFits kind path = true)
      (dataFits : service.updateFits payload = true)
      (found : service.session? sender = some session) (allowed : session.signedIn = true)
      (asked : frame.message = .ok (.createRequest kind payload path)) :
      Turns service (.frame order sender frame) tree
  | deleted {order : VisitOrder} {sender : SessionId} {frame : Frame} {session : Session}
      {path : String} {uuid : Uuid} {tree : Tree}
      (success : service.tree.delete path = (.ok uuid, tree))
      (found : service.session? sender = some session) (allowed : session.signedIn = true)
      (asked : frame.message = .ok (.deleteRequest path)) :
      Turns service (.frame order sender frame) tree
  | written {order : VisitOrder} {sender : SessionId} {frame : Frame} {session : Session}
      {update : ValueUpdate} {tree : Tree} {sessions : Table SessionId Session}
      (success : Tree.setValue reaction order update.uuid update.data
        (service.tree, service.sessions) = (.ok (), tree, sessions))
      (found : service.session? sender = some session) (allowed : session.signedIn = true)
      (asked : frame.message = .ok (.setValueIndication update))
      (fits : service.updateFits update.data = true)
      (after : service.next (.frame order sender frame) = { service with tree, sessions }) :
      Turns service (.frame order sender frame) tree
  | watched {order : VisitOrder} {sender : SessionId} {frame : Frame} {session : Session}
      {tree : Tree} (watches : service.Watches session frame tree)
      (found : service.session? sender = some session) (allowed : session.signedIn = true) :
      Turns service (.frame order sender frame) tree

theorem turns_next (service : Service) (event : ServiceEvent) :
    service.Turns event (service.next event).tree := by
  cases event with
  | opened maxEntries transport => exact .lent .refl
  | frame order sender frame =>
      have handled := handled_handle service order sender frame
      generalize result : (service.handle order sender frame).1 = after at handled
      rw [next, result]
      cases handled with
      | nothing => exact .lent .refl
      | signedIn found asked => exact .lent .refl
      | created found allowed success asked pathFits dataFits =>
          rw [(broadcast_rest _ _ _).1]
          exact .created success pathFits dataFits found allowed asked
      | deleted success found allowed asked =>
          rw [(broadcast_rest _ _ _).1]
          exact .deleted success found allowed asked
      | written success found allowed asked fits =>
          exact .written success found allowed asked fits result
      | watched watches found allowed => exact .watched watches found allowed
      | called found allowed asked callee made => exact .lent (addCall_rest _ _ _ _).1
      | answered found asked listed recorded mine => exact .lent (lent_releaseCalls _ _)
  | stopped id => exact .lent .refl
  | unlisted order id => exact .lent (unlist_rest service order id).1
  | closed order id => exact .lent (close_rest service order id).1
  | drained id =>
      rw [next, (drain_rest _ _).1]
      exact .lent .refl

/-! ## Payloads -/

/-- An event that brings a payload into the tree. -/
inductive Brings (service : Service) : ServiceEvent → Bytes → Prop where
  | created {order : VisitOrder} {sender : SessionId} {frame : Frame} {kind : PropertyKind}
      {payload : Bytes} {path : String}
      (asked : frame.message = .ok (.createRequest kind payload path))
      (fits : service.updateFits payload = true) :
      Brings service (.frame order sender frame) payload
  | written {order : VisitOrder} {sender : SessionId} {frame : Frame} {update : ValueUpdate}
      (asked : frame.message = .ok (.setValueIndication update))
      (fits : service.updateFits update.data = true) :
      Brings service (.frame order sender frame) update.data

theorem Brings.fits {payload : Bytes} (brings : service.Brings event payload) :
    service.updateFits payload = true := by
  cases brings with
  | created asked fits => exact fits
  | written asked fits => exact fits

/-- A value has the payload that it had, or the event brings it. -/
theorem Turns.payload {tree : Tree} (turns : service.Turns event tree)
    (linked : service.tree.Linked) {handle : Handle} {payload : Bytes}
    {watchers : Table SessionId Observer} (found : tree.value? handle = some (payload, watchers)) :
    service.Brings event payload ∨
      ∃ before, service.tree.value? handle = some (payload, before) := by
  cases turns with
  | lent lent => exact Or.inr ⟨watchers, Tree.KeepsValues.lent lent _ _ found⟩
  | created success pathFits dataFits asker allowed asked =>
      rcases Tree.create_eq_ok success with ⟨_, _, _, _, _, _, _, _, _, rfl⟩
      rw [Tree.value?_attach] at found
      split at found
      · split at found
        · cases found
          exact Or.inl (.created asked dataFits)
        · cases found
      · exact Or.inr ⟨watchers, found⟩
  | deleted success => exact Or.inr ⟨watchers, Tree.KeepsValues.delete success _ _ found⟩
  | written success asker allowed asked fits after =>
      rcases Tree.setValue_values linked passive_reaction success with
        ⟨written, _, unserved, _, _, values⟩
      have was := values handle _ found
      split at was
      · cases was
        exact Or.inl (.written asked fits)
      · exact Or.inr ⟨watchers, was⟩
  | watched watches asker allowed =>
      rcases watches.exists_mapWatchers with ⟨watched, change, rfl⟩
      rw [Tree.value?_mapWatchers] at found
      split at found
      · rcases Option.map_eq_some_iff.mp found with ⟨⟨same, before⟩, beforeFound, made⟩
        cases made
        exact Or.inr ⟨before, beforeFound⟩
      · exact Or.inr ⟨watchers, found⟩

end Service

end SharedTree
