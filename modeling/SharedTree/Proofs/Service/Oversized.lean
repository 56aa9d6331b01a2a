import SharedTree.Proofs.Service.Calls
import SharedTree.Proofs.Service.Limits

/-!
# Frames over the limit

Only notifications are kept within the limit on bodies. When a frame within the limit is
handled, what it is answered with and what is put into backlogs on its behalf are within the
limit too, with two exceptions. A call is passed on with the caller and the transaction in
front of it, which makes it twelve bytes longer; and a path that is looked up comes back with
a uuid and a kind, five bytes longer, even if nothing but the root is there. So just below
the limit a call or a look-up leads to a frame that no peer with the same limit takes.
-/

namespace SharedTree

namespace Message

theorem size_handleRpcRequest (caller : SessionId) (transaction : TransactionId) (uuid : Uuid)
    (parameter : Bytes) :
    (handleRpcRequest caller transaction uuid parameter).size = 20 + parameter.length := by
  show 8 + (4 + (4 + (4 + parameter.length))) = _
  omega

theorem size_getSpecificMetaResponse (info : PropertyInfo) :
    (getSpecificMetaResponse info).size = 9 + info.path.utf8ByteSize := by
  show 4 + (1 + (4 + info.path.utf8ByteSize)) = _
  omega

end Message

namespace Tree

variable {tree : Tree} {maxBody : Nat}

theorem path_of_info (linked : tree.Linked) {path : String} {info : PropertyInfo}
    (known : tree.info path = .ok info) : info.path = path := by
  unfold Tree.info find at known
  cases accepted : Path.segments? path with
  | none =>
      rw [accepted] at known
      cases known
  | some segments =>
      rw [accepted] at known
      cases ends : tree.resolve segments with
      | none =>
          simp only [ends] at known
          cases known
      | some handle =>
          simp only [ends, bind, Except.bind, info?_of_resolve linked ends] at known
          cases found : tree.property? handle with
          | none =>
              rw [found] at known
              cases known
          | some property =>
              rw [found] at known
              cases known
              exact (Path.eq_ofSegments_of_segments? accepted).1.symm

/-- The paths of live properties can be announced, all but that of the root. -/
theorem Announceable.eq_root_of_find (announceable : tree.Announceable maxBody)
    (linked : tree.Linked) {path : String} (long : maxBody < 17 + path.utf8ByteSize)
    {handle : Handle} (found : tree.find path = .ok handle) : handle = rootHandle := by
  unfold find at found
  cases accepted : Path.segments? path with
  | none =>
      rw [accepted] at found
      cases found
  | some segments =>
      rw [accepted] at found
      cases ends : tree.resolve segments with
      | none =>
          simp only [ends] at found
          cases found
      | some same =>
          simp only [ends, Except.ok.injEq] at found
          subst found
          by_cases nonempty : segments = []
          · rw [nonempty] at ends
            exact (Option.some.inj ends).symm
          · rcases linked.exists_property_of_resolve ends with ⟨property, isThere⟩
            have fits := announceable.creation _ same _
              (linked.indexed_of_resolve ends nonempty isThere) (info?_eq_some linked ends isThere)
            rw [← (Path.eq_ofSegments_of_segments? accepted).1] at fits
            exact absurd fits (Nat.not_le.mpr long)

theorem Announceable.getValue (announceable : tree.Announceable maxBody) {uuid : Uuid}
    {payload : Bytes} (found : tree.getValue uuid = .ok payload) :
    12 + payload.length ≤ maxBody := by
  rcases (getValue_eq_ok_iff _ _ _).mp found with ⟨watchers, isValue⟩
  rcases (valueAt?_eq_some_iff _ _ _).mp isValue with ⟨handle, _, isThere⟩
  exact announceable.payload handle _ isThere

end Tree

namespace Service

variable {service : Service} {order : VisitOrder} {sender : SessionId} {session : Session}
  {transaction : TransactionId} {message reply : Message} {frame answer : Frame}

/-! ## Answers -/

theorem size_lookUp (linked : service.tree.Linked) (path : String) :
    (service.lookUp path).size = 9 + path.utf8ByteSize := by
  unfold lookUp
  split
  · next info known => rw [Message.size_getSpecificMetaResponse, Tree.path_of_info linked known]
  · exact Message.size_getSpecificMetaResponse _

theorem size_getValue {bound : Nat} (least : 4 ≤ bound) (uuid : Uuid)
    (payloads : ∀ payload, service.tree.getValue uuid = .ok payload → 4 + payload.length ≤ bound) :
    (service.getValue uuid).size ≤ bound := by
  unfold getValue
  cases found : service.tree.getValue uuid with
  | error error => exact least
  | ok payload => exact payloads payload found

theorem exists_createResponse (service : Service) (order : VisitOrder) (owner : SessionId)
    (kind : PropertyKind) (data : Bytes) (path : String) :
    ∃ code uuid, (service.create order owner kind data path).2 = .createResponse code uuid := by
  rw [create_outcome]
  split
  · exact ⟨_, _, rfl⟩
  · split
    · exact ⟨_, _, rfl⟩
    · split <;> exact ⟨_, _, rfl⟩

theorem exists_deleteResponse (service : Service) (order : VisitOrder) (path : String) :
    ∃ code, (service.delete order path).2 = .deleteResponse code := by
  rw [delete_outcome]
  split <;> exact ⟨_, rfl⟩

theorem exists_subscribeResponse (service : Service) (session : Session) (uuid : Uuid) :
    ∃ code, (service.subscribe session uuid).2 = .subscribeResponse code := by
  rw [subscribe_outcome]
  split <;> exact ⟨_, rfl⟩

theorem exists_unsubscribeResponse (service : Service) (session : Session) (uuid : Uuid) :
    ∃ code, (service.unsubscribe session uuid).2 = .unsubscribeResponse code := by
  rw [unsubscribe_outcome]
  split <;> exact ⟨_, rfl⟩

theorem call_answer {uuid : Uuid} {parameter : Bytes}
    (answered : (service.call sender transaction uuid parameter).2 = some reply) :
    reply = .rpcResponse [] := by
  unfold call at answered
  split at answered
  · cases answered
    rfl
  · dsimp only at answered
    split at answered <;> cases answered

theorem lookUp_answer {path : String} (answered : (service.handleMessage order session transaction
      (.getSpecificMetaRequest path)).2 = some reply) : reply = service.lookUp path := by
  cases allowed : session.signedIn <;> simp only [handleMessage, allowed] at answered
  · cases answered
  · exact (Option.some.inj answered).symm

/-- An answer is within any bound that the request and the payloads of values are within, unless it is
to the look-up of a path. -/
theorem size_answer {bound : Nat} (fits : message.size ≤ bound)
    (payloads : ∀ uuid payload, service.tree.getValue uuid = .ok payload →
      4 + payload.length ≤ bound)
    (answered : (service.handleMessage order session transaction message).2 = some reply)
    (noLookUp : ∀ path, message ≠ .getSpecificMetaRequest path) :
    reply.size ≤ bound := by
  have signsIn {id : SessionId} {version refreshRate : UInt32} {features : FeatureFlags}
      (whole : 16 ≤ bound) :
      (service.signIn id version refreshRate features).2.size ≤ bound := by
    show 4 ≤ bound
    omega
  cases allowed : session.signedIn with
  | false =>
      cases message <;> simp only [handleMessage, allowed] at answered
      case signinRequest version refreshRate features =>
        cases answered
        exact signsIn fits
      all_goals cases answered
  | true =>
      cases message <;> simp only [handleMessage, allowed] at answered
      case signinRequest version refreshRate features =>
        cases answered
        exact signsIn fits
      case createRequest kind data path =>
        rcases service.exists_createResponse order session.id kind data path with
          ⟨code, uuid, created⟩
        rw [created] at answered
        cases answered
        have whole : 1 + (4 + data.length + (4 + path.utf8ByteSize)) ≤ bound := fits
        show 1 + 4 ≤ bound
        omega
      case deleteRequest path =>
        rcases service.exists_deleteResponse order path with ⟨code, deleted⟩
        rw [deleted] at answered
        cases answered
        have whole : 4 + path.utf8ByteSize ≤ bound := fits
        show 1 ≤ bound
        omega
      case subscribeRequest uuid =>
        rcases service.exists_subscribeResponse session uuid with ⟨code, subscribed⟩
        rw [subscribed] at answered
        cases answered
        have whole : 4 ≤ bound := fits
        show 1 ≤ bound
        omega
      case unsubscribeRequest uuid =>
        rcases service.exists_unsubscribeResponse session uuid with ⟨code, unsubscribed⟩
        rw [unsubscribed] at answered
        cases answered
        have whole : 4 ≤ bound := fits
        show 1 ≤ bound
        omega
      case getValueRequest uuid =>
        cases answered
        exact size_getValue fits uuid (payloads uuid)
      case rpcRequest uuid parameter =>
        rw [call_answer answered]
        have whole : 4 + (4 + parameter.length) ≤ bound := fits
        show 4 ≤ bound
        omega
      case getSpecificMetaRequest path => exact absurd rfl (noLookUp path)
      all_goals cases answered

/-- The answer to a frame within the limit is over it exactly when a path is looked up that is too
long, and then there is nothing but perhaps the root. -/
theorem oversized_answer_iff (sound : service.tree.Sound)
    (announceable : service.tree.Announceable service.maxBody)
    (fits : frame.body.length ≤ service.maxBody)
    (answered : (service.handle order sender frame).2 = some answer) :
    service.maxBody < answer.body.length ↔
      ∃ path, frame.message = .ok (.getSpecificMetaRequest path) ∧
        service.maxBody < 9 + path.utf8ByteSize ∧
        ∀ handle, service.tree.find path = .ok handle → handle = Tree.rootHandle := by
  rcases handle_answer answered with ⟨session, message, reply, _, asked, replied, made⟩
  rw [Frame.length_body_ofMessage made, asked]
  by_cases isLookUp : ∃ path, message = .getSpecificMetaRequest path
  · rcases isLookUp with ⟨path, rfl⟩
    rw [lookUp_answer replied, size_lookUp sound.toLinked]
    constructor
    · intro tooLong
      exact ⟨path, rfl, tooLong, fun handle =>
        announceable.eq_root_of_find sound.toLinked (by omega)⟩
    · rintro ⟨_, ⟨⟩, tooLong, _⟩
      exact tooLong
  · have payloads (uuid : Uuid) (payload : Bytes)
        (isValue : service.tree.getValue uuid = .ok payload) :
        4 + payload.length ≤ service.maxBody := by
      have deliverable := announceable.getValue isValue
      omega
    have within := size_answer ((Frame.size_le_of_message asked).trans fits) payloads replied
      fun path same => isLookUp ⟨path, same⟩
    constructor
    · exact fun tooLong => absurd within (Nat.not_le.mpr tooLong)
    · rintro ⟨path, ⟨⟩, _⟩
      exact absurd ⟨path, rfl⟩ isLookUp

/-! ## What is put into backlogs -/

/-- A whole frame that a frame within the limit puts into a backlog is over the limit exactly when it
passes on a call whose parameter is too long. -/
theorem Sends.over_limit_iff {sent : Frame} (sends : service.Sends sender frame (.frame sent))
    (fits : frame.body.length ≤ service.maxBody) :
    service.maxBody < sent.body.length ↔
      ∃ uuid parameter, frame.message = .ok (.rpcRequest uuid parameter) ∧
        service.maxBody < 20 + parameter.length := by
  cases sends with
  | request found forwards =>
      rcases forwards with ⟨uuid, parameter, asked, made⟩
      rw [Frame.length_body_ofMessage made, Message.size_handleRpcRequest, asked]
      constructor
      · exact fun tooLong => ⟨uuid, parameter, rfl, tooLong⟩
      · rintro ⟨_, _, ⟨⟩, tooLong⟩
        exact tooLong
  | answer asked made =>
      have whole := (Frame.size_le_of_message asked).trans fits
      rw [Message.size_handleRpcResponse] at whole
      rw [Frame.length_body_ofMessage made, Message.size_rpcResponse, asked]
      constructor
      · intro tooLong
        omega
      · rintro ⟨_, _, ⟨⟩, _⟩

end Service

namespace Runs

variable {maxBody : Nat} {log : List Occurrence} {service before : Service}
  {order : VisitOrder} {sender : SessionId} {frame : Frame}

/-- Which frames over the limit are caused by a frame within it: answers to the look-up of a path
where nothing but perhaps the root is, and calls that are passed on, when the path or the parameter
is too long for what is added to it. -/
theorem oversized_iff (run : Runs maxBody log service)
    (handled : ⟨before, .frame order sender frame⟩ ∈ log) (fits : frame.body.length ≤ maxBody) :
    (∀ answer, Occurrence.answer? ⟨before, .frame order sender frame⟩ = some answer →
        (maxBody < answer.body.length ↔
          ∃ path, frame.message = .ok (.getSpecificMetaRequest path) ∧
            maxBody < 9 + path.utf8ByteSize ∧
            ∀ handle, before.tree.find path = .ok handle → handle = Tree.rootHandle)) ∧
      ∀ id sent, .frame sent ∈ Occurrence.queued id ⟨before, .frame order sender frame⟩ →
        (maxBody < sent.body.length ↔
          ∃ uuid parameter, frame.message = .ok (.rpcRequest uuid parameter) ∧
            maxBody < 20 + parameter.length) := by
  rcases List.append_of_mem handled with ⟨earlier, later, rfl⟩
  have beforeRun := run.before_made.1
  rcases beforeRun.within with ⟨rfl, announceable, _⟩
  refine ⟨?_, ?_⟩
  · intro answer answered
    exact Service.oversized_answer_iff beforeRun.coherent.sound announceable fits answered
  · intro id sent mem
    cases beforeRun.coherent.queues_of_mem mem with
    | sent sends => exact sends.over_limit_iff fits

theorem oversized_iff_lookUp :
    ∃ log service before frame answer, Runs 24 log service ∧
      ⟨before, .frame .stored 1 frame⟩ ∈ log ∧ frame.body.length ≤ 24 ∧
      Occurrence.answer? ⟨before, .frame .stored 1 frame⟩ = some answer ∧
      24 < answer.body.length := by
  have run : Runs 24 [] (.new 24) := .new
  have run := run.next (.opened 8 .sink) (by decide)
  have serve {log : List Occurrence} {service : Service} {frame : Frame}
      (before : Runs 24 log service) (message : Message)
      (_ : Frame.ofMessage message 1 = .ok frame) :=
    before.next (.frame .stored 1 frame) trivial
  have run := serve run (.signinRequest protocolVersion 0 ⟨0⟩) rfl
  have run := serve run (.getSpecificMetaRequest "/nowhere-to-be-seen") rfl
  refine ⟨_, _, _, _, _, run, List.mem_concat_self, by decide, rfl, ?_⟩
  refine ((run.oversized_iff List.mem_concat_self (by decide)).1 _ rfl).mpr ?_
  exact ⟨"/nowhere-to-be-seen", rfl, by decide, fun _ found => nomatch found⟩

/-- A call within the limit that is passed on over the limit. -/
theorem exists_oversized_call :
    ∃ log service before frame sent, Runs 24 log service ∧
      ⟨before, .frame .stored 1 frame⟩ ∈ log ∧ frame.body.length = 24 ∧
      .frame sent ∈ Occurrence.queued 2 ⟨before, .frame .stored 1 frame⟩ ∧
      sent.header.kind = .ok .handleRpcRequest ∧ sent.body.length = 36 := by
  have run : Runs 24 [] (.new 24) := .new
  have run := run.next (.opened 8 .sink) (by decide)
  have run := run.next (.opened 8 .sink) (by decide)
  have serve {log : List Occurrence} {service : Service} {frame : Frame}
      (before : Runs 24 log service) (sender : SessionId) (message : Message)
      (_ : Frame.ofMessage message 1 = .ok frame) :=
    before.next (.frame .stored sender frame) trivial
  have run := serve run 1 (.signinRequest protocolVersion 0 ⟨0⟩) rfl
  have run := serve run 2 (.signinRequest protocolVersion 0 ⟨0⟩) rfl
  have run := serve run 2 (.createRequest .rpc [] "/r") rfl
  have run := serve run 1 (.rpcRequest 100 (List.replicate 16 7)) rfl
  exact ⟨_, _, _, _, _, run, List.mem_concat_self, rfl, List.mem_singleton.mpr rfl, rfl, rfl⟩

end Runs

end SharedTree
