import SharedTree.Proofs.Service.Effects

/-!
# What one frame can do

`Service.Handled` lists everything that handling a frame can make of the service, with
what was found on the way. A request that fails, asks for nothing but an answer, or is
dropped leaves the service as it is. `Service.Sends` lists what is put into backlogs.
-/

namespace SharedTree

/-- A frame of a session that asks for a call to be passed on as a request. -/
def Frame.Forwards (frame : Frame) (sender : SessionId) (request : Frame) : Prop :=
  ∃ uuid parameter, frame.message = .ok (.rpcRequest uuid parameter) ∧
    Frame.ofMessage (.handleRpcRequest sender frame.transaction uuid parameter) unsolicited =
      .ok request

namespace Service

variable {service : Service} {order : VisitOrder} {sender : SessionId} {frame : Frame}

/-- A frame with which a session begins or ceases to watch a value. -/
inductive Watches (service : Service) (session : Session) (frame : Frame) : Tree → Prop where
  | begun {uuid : Uuid} {tree : Tree} (asked : frame.message = .ok (.subscribeRequest uuid))
      (success : service.tree.subscribe uuid session.id session.observer = (.ok (), tree)) :
      Watches service session frame tree
  | ceased {uuid : Uuid} {tree : Tree} (asked : frame.message = .ok (.unsubscribeRequest uuid))
      (success : service.tree.unsubscribe uuid session.id = (.ok (), tree)) :
      Watches service session frame tree

theorem Watches.exists_mapWatchers {session : Session} {tree : Tree}
    (watches : service.Watches session frame tree) :
    ∃ handle change, tree = service.tree.mapWatchers handle change := by
  cases watches with
  | begun asked success =>
      rcases Tree.subscribe_eq_ok success with ⟨handle, _, _, made⟩
      exact ⟨handle, _, made⟩
  | ceased asked success =>
      rcases Tree.unsubscribe_eq_ok success with ⟨handle, _, _, _, made⟩
      exact ⟨handle, _, made⟩

theorem Watches.alike {session : Session} {tree : Tree}
    (watches : service.Watches session frame tree) : service.tree.Alike tree := by
  rcases watches.exists_mapWatchers with ⟨handle, change, rfl⟩
  exact service.tree.alike_mapWatchers handle change

/-- What a frame makes of the service. -/
inductive Handled (service : Service) (order : VisitOrder) (sender : SessionId) (frame : Frame) :
    Service → Prop where
  | nothing : Handled service order sender frame service
  | signedIn {session : Session} {version refreshRate : UInt32} {features : FeatureFlags}
      (found : service.session? sender = some session)
      (asked : frame.message = .ok (.signinRequest version refreshRate features)) :
      Handled service order sender frame
        (service.modifySession session.id (·.signIn refreshRate features))
  | created {session : Session} {kind : PropertyKind} {data : Bytes} {path : String}
      {info : PropertyInfo} {tree : Tree} (found : service.session? sender = some session)
      (allowed : session.signedIn = true)
      (success : service.tree.create path kind data session.id = (.ok info, tree))
      (asked : frame.message = .ok (.createRequest kind data path))
      (pathFits : service.creationFits kind path = true)
      (dataFits : service.updateFits data = true) :
      Handled service order sender frame
        (({ service with tree } : Service).broadcast order (.created info))
  | deleted {session : Session} {path : String} {uuid : Uuid} {tree : Tree}
      (success : service.tree.delete path = (.ok uuid, tree))
      (found : service.session? sender = some session) (allowed : session.signedIn = true)
      (asked : frame.message = .ok (.deleteRequest path)) :
      Handled service order sender frame
        (({ service with tree } : Service).broadcast order (.deleted uuid))
  | written {session : Session} {update : ValueUpdate} {tree : Tree}
      {sessions : Table SessionId Session}
      (success : Tree.setValue reaction order update.uuid update.data
        (service.tree, service.sessions) = (.ok (), tree, sessions))
      (found : service.session? sender = some session) (allowed : session.signedIn = true)
      (asked : frame.message = .ok (.setValueIndication update))
      (fits : service.updateFits update.data = true) :
      Handled service order sender frame { service with tree, sessions }
  | watched {session : Session} {tree : Tree} (watches : service.Watches session frame tree)
      (found : service.session? sender = some session) (allowed : session.signedIn = true) :
      Handled service order sender frame { service with tree }
  | called {session : Session} {uuid : Uuid} {parameter : Bytes} {endpoint : Handle}
      {handler : SessionId} {request : Frame} (found : service.session? sender = some session)
      (allowed : session.signedIn = true)
      (asked : frame.message = .ok (.rpcRequest uuid parameter))
      (callee : service.callee? uuid = some (endpoint, handler))
      (made : Frame.ofMessage
        (.handleRpcRequest session.id frame.transaction uuid parameter) unsolicited = .ok request) :
      Handled service order sender frame
        ((service.addCall session.id frame.transaction endpoint).modifySession handler
          (·.push (.frame request)))
  | answered {session answeredTo : Session} {caller : SessionId} {transaction : TransactionId}
      {returnValue : Bytes} {call : PendingCall} (found : service.session? sender = some session)
      (asked : frame.message = .ok (.handleRpcResponse caller transaction returnValue))
      (listed : service.listed? caller = some answeredTo)
      (recorded : answeredTo.pending.find? transaction = some call)
      (mine : call.handler = some session.id) :
      Handled service order sender frame
        (((service.modifySession caller fun _ =>
          { answeredTo with pending := answeredTo.pending.erase transaction }).releaseCalls
            [call]).modifySession caller (·.pushAnswer transaction returnValue))

/-- What a frame puts into backlogs. -/
inductive Sends (service : Service) (sender : SessionId) (frame : Frame) : BacklogEntry → Prop where
  | creation {session : Session} {kind : PropertyKind} {data : Bytes} {path : String}
      {info : PropertyInfo} {tree : Tree} (fits : service.creationFits kind path = true)
      (success : service.tree.create path kind data session.id = (.ok info, tree)) :
      Sends service sender frame (.change (.created info))
  | deletion {path : String} {uuid : Uuid} {tree : Tree}
      (success : service.tree.delete path = (.ok uuid, tree)) :
      Sends service sender frame (.change (.deleted uuid))
  | update {session : Session} {update : ValueUpdate} {order : VisitOrder}
      {world : Tree × Table SessionId Session} (found : service.session? sender = some session)
      (allowed : session.signedIn = true)
      (asked : frame.message = .ok (.setValueIndication update))
      (fits : service.updateFits update.data = true)
      (success : Tree.setValue reaction order update.uuid update.data
        (service.tree, service.sessions) = (.ok (), world)) (uuid : Uuid) :
      Sends service sender frame (.update { uuid, data := update.data })
  | request {session : Session} {request : Frame} (found : service.session? sender = some session)
      (forwards : frame.Forwards session.id request) :
      Sends service sender frame (.frame request)
  | answer {caller : SessionId} {transaction : TransactionId} {returnValue : Bytes} {answer : Frame}
      (asked : frame.message = .ok (.handleRpcResponse caller transaction returnValue))
      (made : Frame.ofMessage (.rpcResponse returnValue) transaction = .ok answer) :
      Sends service sender frame (.frame answer)

theorem handled_create {session : Session} (found : service.session? sender = some session)
    (allowed : session.signedIn = true) {kind : PropertyKind} {data : Bytes} {path : String}
    (asked : frame.message = .ok (.createRequest kind data path)) :
    Handled service order sender frame (service.create order session.id kind data path).1 := by
  rw [create_outcome]
  split
  · exact .nothing
  · next pathFits =>
    split
    · exact .nothing
    · next dataFits =>
      split
      · exact .nothing
      · next success =>
        exact .created found allowed success asked (by simpa using pathFits)
          (by simpa using dataFits)

theorem handled_delete {session : Session} (found : service.session? sender = some session)
    (allowed : session.signedIn = true) {path : String}
    (asked : frame.message = .ok (.deleteRequest path)) :
    Handled service order sender frame (service.delete order path).1 := by
  rw [delete_outcome]
  split
  · exact .nothing
  · next success => exact .deleted success found allowed asked

theorem handled_setValue {session : Session} (found : service.session? sender = some session)
    (allowed : session.signedIn = true) {update : ValueUpdate}
    (asked : frame.message = .ok (.setValueIndication update)) :
    Handled service order sender frame (service.setValue order update) := by
  rw [setValue_outcome]
  split
  · exact .nothing
  · next fits =>
    split
    · exact .nothing
    · next success => exact .written success found allowed asked (by simpa using fits)

theorem handled_subscribe {session : Session} (found : service.session? sender = some session)
    (allowed : session.signedIn = true) {uuid : Uuid}
    (asked : frame.message = .ok (.subscribeRequest uuid)) :
    Handled service order sender frame (service.subscribe session uuid).1 := by
  rw [subscribe_outcome]
  split
  · exact .nothing
  · next success => exact .watched (.begun asked success) found allowed

theorem handled_unsubscribe {session : Session} (found : service.session? sender = some session)
    (allowed : session.signedIn = true) {uuid : Uuid}
    (asked : frame.message = .ok (.unsubscribeRequest uuid)) :
    Handled service order sender frame (service.unsubscribe session uuid).1 := by
  rw [unsubscribe_outcome]
  split
  · exact .nothing
  · next success => exact .watched (.ceased asked success) found allowed

theorem handled_call {session : Session} (found : service.session? sender = some session)
    (allowed : session.signedIn = true) {uuid : Uuid} {parameter : Bytes}
    (asked : frame.message = .ok (.rpcRequest uuid parameter)) :
    Handled service order sender frame
      (service.call session.id frame.transaction uuid parameter).1 := by
  unfold call
  split
  · exact .nothing
  · next endpoint handler callee =>
    dsimp only
    split
    · exact .nothing
    · next request made => exact .called found allowed asked callee made

theorem handled_answerCall {session : Session} (found : service.session? sender = some session)
    {caller : SessionId} {transaction : TransactionId} {returnValue : Bytes}
    (asked : frame.message = .ok (.handleRpcResponse caller transaction returnValue)) :
    Handled service order sender frame
      (service.answerCall session.id caller transaction returnValue) := by
  unfold answerCall
  split
  · exact .nothing
  · next answeredTo listed =>
    have isThere := session?_of_listed? listed
    by_cases recorded : ∃ call, answeredTo.pending.find? transaction = some call ∧
        call.handler = some session.id
    · rcases recorded with ⟨call, recorded, mine⟩
      rw [completeCall_eq isThere recorded mine]
      exact .answered found asked listed recorded mine
    · rw [completeCall_eq_false isThere fun call known mine => recorded ⟨call, known, mine⟩]
      exact .nothing

/-- Handling a frame does one of the listed things. -/
theorem handled_handle (service : Service) (order : VisitOrder) (sender : SessionId)
    (frame : Frame) : Handled service order sender frame (service.handle order sender frame).1 := by
  unfold handle
  split
  · next session message found asked =>
    dsimp only
    cases allowed : session.signedIn with
    | false =>
        cases message <;> simp only [handleMessage, allowed]
        case signinRequest version refreshRate features => exact .signedIn found asked
        all_goals exact .nothing
    | true =>
        cases message <;> simp only [handleMessage, allowed]
        case signinRequest version refreshRate features => exact .signedIn found asked
        case createRequest kind data path => exact handled_create found allowed asked
        case deleteRequest path => exact handled_delete found allowed asked
        case setValueIndication update => exact handled_setValue found allowed asked
        case subscribeRequest uuid => exact handled_subscribe found allowed asked
        case unsubscribeRequest uuid => exact handled_unsubscribe found allowed asked
        case rpcRequest uuid parameter => exact handled_call found allowed asked
        case handleRpcResponse caller transaction returnValue =>
          exact handled_answerCall found asked
        all_goals exact .nothing
  · exact .nothing

/-! ## Answers -/

theorem handle_answer {answer : Frame}
    (answered : (service.handle order sender frame).2 = some answer) :
    ∃ session message reply, service.session? sender = some session ∧
      frame.message = .ok message ∧
      (service.handleMessage order session frame.transaction message).2 = some reply ∧
      Frame.ofMessage reply frame.transaction = .ok answer := by
  unfold handle at answered
  split at answered
  · next session message found asked =>
    rcases Option.bind_eq_some_iff.mp answered with ⟨reply, replied, made⟩
    exact ⟨session, message, reply, found, asked, replied, Frame.ofMessage_of_toOption made⟩
  · cases answered

theorem handle_of_message {session : Session} {message : Message}
    (found : service.session? sender = some session) (asked : frame.message = .ok message) :
    service.handle order sender frame =
      ((service.handleMessage order session frame.transaction message).1,
        (service.handleMessage order session frame.transaction message).2.bind fun reply =>
          (Frame.ofMessage reply frame.transaction).toOption) := by
  rw [handle, found, asked]

theorem exists_answer {session : Session} {message reply : Message}
    (found : service.session? sender = some session) (asked : frame.message = .ok message)
    (replied : (service.handleMessage order session frame.transaction message).2 = some reply)
    (small : reply.size + Header.length < UInt32.size) :
    ∃ answer, (service.handle order sender frame).2 = some answer ∧
      Frame.ofMessage reply frame.transaction = .ok answer := by
  rcases Frame.exists_ofMessage small frame.transaction with ⟨answer, made⟩
  refine ⟨answer, ?_, made⟩
  rw [handle_of_message found asked, replied, Option.bind_some, made]
  rfl

theorem handle_rpcRequest {session : Session} (found : service.session? sender = some session)
    (signedIn : session.signedIn = true) {uuid : Uuid} {parameter : Bytes}
    (asked : frame.message = .ok (.rpcRequest uuid parameter)) :
    service.handle order sender frame =
      ((service.call session.id frame.transaction uuid parameter).1,
        (service.call session.id frame.transaction uuid parameter).2.bind fun message =>
          (Frame.ofMessage message frame.transaction).toOption) := by
  simp [handle, found, asked, handleMessage, signedIn]

theorem handle_handleRpcResponse {session : Session}
    (found : service.session? sender = some session) (signedIn : session.signedIn = true)
    {caller : SessionId} {transaction : TransactionId} {returnValue : Bytes}
    (asked : frame.message = .ok (.handleRpcResponse caller transaction returnValue)) :
    (service.handle order sender frame).1 =
      service.answerCall session.id caller transaction returnValue := by
  simp [handle, found, asked, handleMessage, signedIn]

end Service

end SharedTree
