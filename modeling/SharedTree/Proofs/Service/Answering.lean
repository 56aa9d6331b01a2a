import SharedTree.Proofs.Service.Rejected
import SharedTree.Proofs.Tree.Entries

/-!
# Every request is answered

`MessageKind.response?` pairs requests with the answers to them. A request gets exactly one frame, with
its transaction id and an answer of the kind that is paired with it. A call is answered with nothing
at once, or it is pending afterwards at the endpoint that it names. What else clients may send
gets no answer, and neither does what only the service sends.

The answers to requests to create and to delete are compared with what has become of the tree:
`Tree.Gains` and `Tree.Loses` say that under every path but one the tree stores what it stored.
-/

namespace SharedTree

namespace MessageKind

/-- The kind of the answers to requests of a kind. -/
def response? : MessageKind → Option MessageKind
  | .signinRequest => some .signinResponse
  | .createRequest => some .createResponse
  | .deleteRequest => some .deleteResponse
  | .subscribeRequest => some .subscribeResponse
  | .unsubscribeRequest => some .unsubscribeResponse
  | .getValueRequest => some .getValueResponse
  | .rpcRequest => some .rpcResponse
  | .getSpecificMetaRequest => some .getSpecificMetaResponse
  | _ => none

theorem fromClient_of_response? {kind answer : MessageKind}
    (paired : kind.response? = some answer) : kind.FromClient := by
  cases kind with
  | signinRequest => exact Or.inl ⟨{}, .signIn, rfl⟩
  | createRequest => exact Or.inl ⟨{}, .create "" .node [], rfl⟩
  | deleteRequest => exact Or.inl ⟨{}, .delete "", rfl⟩
  | subscribeRequest => exact Or.inl ⟨{}, .subscribe 0, rfl⟩
  | unsubscribeRequest => exact Or.inl ⟨{}, .unsubscribe 0, rfl⟩
  | getValueRequest => exact Or.inl ⟨{}, .getValue 0, rfl⟩
  | rpcRequest => exact Or.inl ⟨{}, .call 0 [], rfl⟩
  | getSpecificMetaRequest => exact Or.inl ⟨{}, .lookUp "", rfl⟩
  | _ => cases paired

end MessageKind

/-- What is made of a request fits into a frame: the request that passes a call on, and the answer
that repeats a path. -/
def Message.LeavesRoom : Message → Prop
  | .rpcRequest uuid parameter => ∀ caller transaction,
    (handleRpcRequest caller transaction uuid parameter).size + Header.length < UInt32.size
  | .getSpecificMetaRequest path => ∀ uuid kind,
    (getSpecificMetaResponse { uuid, kind, path }).size + Header.length < UInt32.size
  | _ => True

/-! ## What a tree gains and loses -/

namespace Tree

variable {tree next : Tree} {path : String}

/-- A tree stores what another stored, and an entry at a path where there was none. -/
def Gains (before after : Tree) (path : String) (entry : FlatEntry) : Prop :=
  ∃ segments, Path.segments? path = some segments ∧ before.stored? segments = none ∧
    ∀ other, after.stored? other = if other = segments then some entry else before.stored? other

/-- A tree stores what another stored, apart from an entry at a path. -/
def Loses (before after : Tree) (path : String) : Prop :=
  ∃ segments entry, Path.segments? path = some segments ∧ before.stored? segments = some entry ∧
    ∀ other, after.stored? other = if other = segments then none else before.stored? other

theorem not_gains_self (tree : Tree) (path : String) (entry : FlatEntry) :
    ¬tree.Gains tree path entry := by
  rintro ⟨segments, _, absent, stored⟩
  have gained := stored segments
  rw [if_pos rfl, absent] at gained
  cases gained

theorem not_loses_self (tree : Tree) (path : String) : ¬tree.Loses tree path := by
  rintro ⟨segments, entry, _, isThere, stored⟩
  have lost := stored segments
  rw [if_pos rfl, isThere] at lost
  cases lost

theorem Linked.gains_create (linked : tree.Linked) {kind : PropertyKind} {payload : Bytes}
    {owner : SessionId} {info : PropertyInfo}
    (success : tree.create path kind payload owner = (.ok info, next)) :
    tree.Gains next path (.new info.uuid kind payload owner) := by
  rcases create_eq_ok success with ⟨ancestors, name, _, _, _, _, found, _, rfl, rfl⟩
  refine ⟨ancestors ++ [name], found.accepted, ?_,
    linked.stored?_attach found.ends found.node found.absent⟩
  rw [stored?, resolve_concat, found.ends, Option.bind_some, found.absent, Option.bind_none]

theorem Linked.loses_delete (linked : tree.Linked) {uuid : Uuid}
    (success : tree.delete path = (.ok uuid, next)) : tree.Loses next path := by
  rcases delete_eq_ok success with ⟨ancestors, name, _, _, property, found, _, rfl⟩
  refine ⟨ancestors ++ [name], property.entry, found.accepted, ?_,
    linked.stored?_detach found.ends found.detachable⟩
  rw [stored?, resolve_concat, found.ends, Option.bind_some, found.detachable.named,
    Option.bind_some, entryAt?, found.detachable.found, Option.map_some]

end Tree

/-- The answer to a request to create a property tells what has become of the tree. -/
structure TellsCreation (before after : Tree) (owner : SessionId) (kind : PropertyKind)
    (data : Bytes) (path : String) (code : CreateCode) (uuid : Uuid) : Prop where
  success : code = .ok ↔ ∃ entry, before.Gains after path entry ∧ entry.uuid = uuid
  created : code = .ok → before.Gains after path (.new uuid kind data owner)
  failure : code ≠ .ok → uuid = noUuid ∧ after = before

/-- The answer to a request to delete a property tells what has become of the tree. -/
structure TellsDeletion (before after : Tree) (path : String) (code : DeleteCode) : Prop where
  success : code = .ok ↔ before.Loses after path
  failure : code ≠ .ok → after = before

theorem TellsCreation.refused {code : CreateCode} (refused : code ≠ .ok) (tree : Tree)
    (owner : SessionId) (kind : PropertyKind) (data : Bytes) (path : String) :
    TellsCreation tree tree owner kind data path code noUuid where
  success := ⟨fun isOk => absurd isOk refused,
    fun ⟨entry, gains, _⟩ => absurd gains (tree.not_gains_self path entry)⟩
  created isOk := absurd isOk refused
  failure _ := ⟨rfl, rfl⟩

theorem TellsDeletion.refused {code : DeleteCode} (refused : code ≠ .ok) (tree : Tree)
    (path : String) : TellsDeletion tree tree path code where
  success := ⟨fun isOk => absurd isOk refused, fun loses => absurd loses (tree.not_loses_self path)⟩
  failure _ := rfl

namespace Service

variable {service : Service} {order : VisitOrder} {sender : SessionId} {session : Session}
  {transaction : TransactionId} {message reply : Message} {frame : Frame}

theorem createCode_ne_ok (error : TreeError) : createCode error ≠ .ok := by
  cases error <;> nofun

theorem deleteCode_ne_ok (error : TreeError) : deleteCode error ≠ .ok := by
  cases error <;> nofun

theorem exists_tellsCreation (linked : service.tree.Linked) (order : VisitOrder)
    (owner : SessionId) (kind : PropertyKind) (data : Bytes) (path : String) :
    ∃ code uuid, (service.create order owner kind data path).2 = .createResponse code uuid ∧
      TellsCreation service.tree (service.create order owner kind data path).1.tree owner kind data
        path code uuid := by
  rw [create_outcome]
  split
  · exact ⟨_, _, rfl, .refused (nofun : CreateCode.malformedPath ≠ .ok) _ _ _ _ _⟩
  · split
    · exact ⟨_, _, rfl, .refused (nofun : CreateCode.typeError ≠ .ok) _ _ _ _ _⟩
    · split
      · next error _ _ => exact ⟨_, _, rfl, .refused (createCode_ne_ok error) _ _ _ _ _⟩
      · next success =>
        have gains := linked.gains_create success
        refine ⟨_, _, rfl, ?_⟩
        rw [(broadcast_rest _ _ _).1]
        exact ⟨⟨fun _ => ⟨_, gains, rfl⟩, fun _ => rfl⟩, fun _ => gains, fun no => absurd rfl no⟩

theorem exists_tellsDeletion (linked : service.tree.Linked) (order : VisitOrder) (path : String) :
    ∃ code, (service.delete order path).2 = .deleteResponse code ∧
      TellsDeletion service.tree (service.delete order path).1.tree path code := by
  rw [delete_outcome]
  split
  · next error _ _ => exact ⟨_, rfl, .refused (deleteCode_ne_ok error) _ _⟩
  · next success =>
    have loses := linked.loses_delete success
    refine ⟨_, rfl, ?_⟩
    rw [(broadcast_rest _ _ _).1]
    exact ⟨⟨fun _ => loses, fun _ => rfl⟩, fun no => absurd rfl no⟩

/-! ## Replies -/

/-- A request is answered with a message of the kind that is paired with it. Calls may be answered
later. -/
theorem exists_reply {kind : MessageKind}
    (allowed : session.signedIn = true ∨ message.kind = .signinRequest)
    (noCall : message.kind ≠ .rpcRequest) (paired : message.kind.response? = some kind) :
    ∃ reply, (service.handleMessage order session transaction message).2 = some reply ∧
      reply.kind = kind := by
  by_cases signingIn : message.kind = .signinRequest
  · cases message with
    | signinRequest version refreshRate features =>
        cases paired
        exact ⟨(service.signIn session.id version refreshRate features).2,
          by simp only [handleMessage], rfl⟩
    | _ => cases signingIn
  · have signedIn := allowed.resolve_right signingIn
    cases message with
    | signinRequest version refreshRate features => exact absurd rfl signingIn
    | createRequest kind data path =>
        cases paired
        rcases service.exists_createResponse order session.id kind data path with
          ⟨code, uuid, created⟩
        exact ⟨.createResponse code uuid, by simp only [handleMessage, signedIn, created], rfl⟩
    | deleteRequest path =>
        cases paired
        rcases service.exists_deleteResponse order path with ⟨code, deleted⟩
        exact ⟨.deleteResponse code, by simp only [handleMessage, signedIn, deleted], rfl⟩
    | subscribeRequest uuid =>
        cases paired
        rcases service.exists_subscribeResponse session uuid with ⟨code, subscribed⟩
        exact ⟨.subscribeResponse code, by simp only [handleMessage, signedIn, subscribed], rfl⟩
    | unsubscribeRequest uuid =>
        cases paired
        rcases service.exists_unsubscribeResponse session uuid with ⟨code, unsubscribed⟩
        exact ⟨.unsubscribeResponse code, by simp only [handleMessage, signedIn, unsubscribed],
          rfl⟩
    | getValueRequest uuid =>
        cases paired
        exact ⟨service.getValue uuid, by simp only [handleMessage, signedIn], rfl⟩
    | rpcRequest uuid parameter => exact absurd rfl noCall
    | getSpecificMetaRequest path =>
        cases paired
        refine ⟨service.lookUp path, by simp only [handleMessage, signedIn], ?_⟩
        unfold lookUp
        split <;> rfl
    | _ => cases paired

theorem reply_of_unpaired (unpaired : message.kind.response? = none) :
    (service.handleMessage order session transaction message).2 = none := by
  cases message with
  | setValueIndication _ | handleRpcResponse _ _ _ =>
      cases allowed : session.signedIn <;> simp only [handleMessage, allowed]
  | signinResponse _ | createResponse _ _ | metaUpdateNotification _ _ | deleteResponse _
  | subscribeResponse _ | propertyUpdateNotification _ | unsubscribeResponse _
  | getValueResponse _ | rpcResponse _ | handleRpcRequest _ _ _ _ | getSpecificMetaResponse _ =>
      cases session.signedIn <;> rfl
  | _ => cases unpaired

theorem unpaired_of_silent (silent : message.kind = .setValueIndication ∨
      message.kind = .handleRpcResponse ∨ ¬message.kind.FromClient) :
    message.kind.response? = none := by
  rcases silent with isUpdate | isReturn | foreign
  · rw [isUpdate]
    rfl
  · rw [isReturn]
    rfl
  · rw [Option.eq_none_iff_forall_ne_some]
    exact fun kind paired => foreign (MessageKind.fromClient_of_response? paired)

theorem size_reply (linked : service.tree.Linked)
    (fits : message.size + Header.length < UInt32.size) (room : message.LeavesRoom)
    (payloads : ∀ uuid payload, service.tree.getValue uuid = .ok payload →
      payload.length + 8 + Header.length < UInt32.size)
    (replied : (service.handleMessage order session transaction message).2 = some reply) :
    reply.size + Header.length < UInt32.size := by
  -- Only the answer to a look-up may be longer than the request, because it repeats the path.
  by_cases isLookUp : ∃ path, message = .getSpecificMetaRequest path
  · rcases isLookUp with ⟨path, rfl⟩
    rw [lookUp_answer replied, size_lookUp linked, ← Message.size_getSpecificMetaResponse
      ⟨noUuid, .value, path⟩]
    exact room noUuid .value
  · have within : reply.size ≤ UInt32.size - 1 - Header.length := by
      refine size_answer (by omega) ?_ replied fun path same => isLookUp ⟨path, same⟩
      intro uuid payload isValue
      have short := payloads uuid payload isValue
      omega
    omega

/-- The service answers a frame with exactly one frame, which has the same transaction id and carries the
reply. -/
def Replies (service : Service) (order : VisitOrder) (sender : SessionId) (frame : Frame)
    (reply : Message) : Prop :=
  ∃ answer, (service.handle order sender frame).2 = some answer ∧
    answer.transaction = frame.transaction ∧ answer.message = .ok reply

theorem replies_of_handleMessage (found : service.session? sender = some session)
    (asked : frame.message = .ok message)
    (replied : (service.handleMessage order session frame.transaction message).2 = some reply)
    (small : reply.size + Header.length < UInt32.size) :
    service.Replies order sender frame reply := by
  rcases exists_answer found asked replied small with ⟨answer, answered, made⟩
  exact ⟨answer, answered, Frame.transaction_ofMessage made, Frame.message_ofMessage made⟩

/-- The service gives no answer yet: the call of a frame is pending afterwards, at the endpoint that it
names. -/
def Suspends (service : Service) (order : VisitOrder) (sender : SessionId) (frame : Frame)
    (uuid : Uuid) : Prop :=
  (service.handle order sender frame).2 = none ∧
    ∃ later call, (service.handle order sender frame).1.session? sender = some later ∧
      later.pending.find? frame.transaction = some call ∧
      service.tree.index.find? uuid = some call.endpoint

theorem Coherent.calls (coherent : service.Coherent) (found : service.session? sender = some session)
    (signedIn : session.signedIn = true) {uuid : Uuid} {parameter : Bytes}
    (asked : frame.message = .ok (.rpcRequest uuid parameter))
    (room : (Message.rpcRequest uuid parameter).LeavesRoom) :
    service.Replies order sender frame (.rpcResponse []) ∨
      service.Suspends order sender frame uuid := by
  have asks : (ServiceEvent.frame order sender frame).call? =
      some ⟨sender, frame.transaction, uuid, parameter⟩ := by
    simp only [ServiceEvent.call?, asked]
  cases callee : service.callee? uuid with
  | none =>
      rcases next_of_callee?_eq_none asks found signedIn callee with ⟨_, answer, made, answered⟩
      exact Or.inl ⟨answer, answered, Frame.transaction_ofMessage made,
        Frame.message_ofMessage made⟩
  | some both =>
      rcases both with ⟨endpoint, handler⟩
      rcases Frame.exists_ofMessage (room sender frame.transaction) unsolicited with ⟨request, made⟩
      rcases coherent.next_of_callee? asks found signedIn callee made with ⟨after, silent⟩
      rcases passOn_caller frame.transaction endpoint handler made found with
        ⟨later, _, laterFound, pending, _⟩
      rw [← after] at laterFound
      exact Or.inr ⟨silent, later, _, laterFound, pending,
        (Tree.findUuid_eq_ok_iff _ _ _).mp (callee?_eq_some callee).1⟩

/-- How the service responds to a message of a session. -/
structure Responds (service : Service) (order : VisitOrder) (sender : SessionId) (frame : Frame)
    (session : Session) (message : Message) : Prop where
  /-- A request that is no call gets the answer that is paired with it. -/
  answered : session.signedIn = true ∨ message.kind = .signinRequest →
    message.kind ≠ .rpcRequest → ∀ kind, message.kind.response? = some kind →
      ∃ reply, service.Replies order sender frame reply ∧ reply.kind = kind
  /-- A call is answered with nothing, or it is pending. -/
  called : session.signedIn = true → ∀ uuid parameter, message = .rpcRequest uuid parameter →
    service.Replies order sender frame (.rpcResponse []) ∨
      service.Suspends order sender frame uuid
  /-- What is no request gets no answer. -/
  silent : message.kind = .setValueIndication ∨ message.kind = .handleRpcResponse ∨
    ¬message.kind.FromClient → (service.handle order sender frame).2 = none
  created : session.signedIn = true → ∀ kind data path, message = .createRequest kind data path →
    ∃ code uuid, service.Replies order sender frame (.createResponse code uuid) ∧
      TellsCreation service.tree (service.handle order sender frame).1.tree sender kind data path
        code uuid
  deleted : session.signedIn = true → ∀ path, message = .deleteRequest path →
    ∃ code, service.Replies order sender frame (.deleteResponse code) ∧
      TellsDeletion service.tree (service.handle order sender frame).1.tree path code

theorem Coherent.responds (coherent : service.Coherent)
    (found : service.session? sender = some session) (asked : frame.message = .ok message)
    (fits : frame.body.length + Header.length < UInt32.size) (room : message.LeavesRoom)
    (payloads : ∀ uuid payload, service.tree.getValue uuid = .ok payload →
      payload.length + 8 + Header.length < UInt32.size) :
    service.Responds order sender frame session message := by
  have linked := coherent.sound.toLinked
  have small : message.size + Header.length < UInt32.size := by
    have whole := Frame.size_le_of_message asked
    omega
  have replies {reply : Message}
      (replied : (service.handleMessage order session frame.transaction message).2 = some reply) :
      service.Replies order sender frame reply :=
    replies_of_handleMessage found asked replied (size_reply linked small room payloads replied)
  refine ⟨?_, ?_, ?_, ?_, ?_⟩
  · intro allowed noCall kind paired
    rcases exists_reply allowed noCall paired with ⟨reply, replied, isKind⟩
    exact ⟨reply, replies replied, isKind⟩
  · rintro signedIn uuid parameter rfl
    exact coherent.calls found signedIn asked room
  · intro silent
    rw [handle_of_message found asked, reply_of_unpaired (unpaired_of_silent silent), Option.bind_none]
  · rintro signedIn kind data path rfl
    rcases exists_tellsCreation linked order sender kind data path with ⟨code, uuid, created, tells⟩
    refine ⟨code, uuid, replies ?_, ?_⟩
    · simp only [handleMessage, signedIn, (coherent.numbered _ _ found).1, created]
    · rw [handle_of_message found asked]
      simpa only [handleMessage, signedIn, (coherent.numbered _ _ found).1] using tells
  · rintro signedIn path rfl
    rcases exists_tellsDeletion linked order path with ⟨code, deleted, tells⟩
    refine ⟨code, replies ?_, ?_⟩
    · simp only [handleMessage, signedIn, deleted]
    · rw [handle_of_message found asked]
      simpa only [handleMessage, signedIn] using tells

theorem Brings.length_lt {event : ServiceEvent} {payload : Bytes}
    (brings : service.Brings event payload) (sized : event.Sized) :
    payload.length + 8 + Header.length < UInt32.size := by
  cases brings with
  | @created order sender frame kind _ path asked fits =>
      have whole : 1 + (4 + payload.length + (4 + path.utf8ByteSize)) ≤ frame.body.length :=
        Frame.size_le_of_message asked
      have total : frame.body.length + Header.length < UInt32.size := sized
      omega
  | @written order sender frame update asked fits =>
      have whole : 4 + (4 + update.data.length) ≤ frame.body.length :=
        Frame.size_le_of_message asked
      have total : frame.body.length + Header.length < UInt32.size := sized
      omega

end Service

namespace Runs

variable {maxBody : Nat} {log : List Occurrence} {service : Service} {order : VisitOrder}
  {sender : SessionId} {session : Session} {frame : Frame} {message : Message}

/-- Payloads come from frames, whose bodies are at least eight bytes longer. -/
theorem payload_lt (run : Runs maxBody log service)
    (sized : ∀ occurrence ∈ log, occurrence.event.Sized) {handle : Handle} {payload : Bytes}
    {watchers : Table SessionId Observer}
    (found : service.tree.value? handle = some (payload, watchers)) :
    payload.length + 8 + Header.length < UInt32.size := by
  induction run generalizing watchers with
  | new =>
      rw [show (Service.new maxBody).tree = Tree.new from rfl, Tree.value?_new] at found
      cases found
  | @next log service before event allowed ih =>
      rcases (service.turns_next event).payload before.coherent.sound.toLinked found with
        brings | ⟨earlier, was⟩
      · exact brings.length_lt (sized ⟨service, event⟩ List.mem_concat_self)
      · exact ih (fun occurrence mem => sized occurrence (List.mem_append_left _ mem)) was

/-- Every request gets its response, and what is answered to requests to create and to delete is what
has become of the tree. -/
theorem requests_answered (run : Runs maxBody log service)
    (sized : ∀ occurrence ∈ log, occurrence.event.Sized)
    (found : service.session? sender = some session) (asked : frame.message = .ok message)
    (fits : (ServiceEvent.frame order sender frame).Sized) (room : message.LeavesRoom) :
    service.Responds order sender frame session message := by
  refine run.coherent.responds found asked fits room ?_
  intro uuid payload isValue
  rcases (Tree.getValue_eq_ok_iff _ _ _).mp isValue with ⟨watchers, atUuid⟩
  rcases (Tree.valueAt?_eq_some_iff _ _ _).mp atUuid with ⟨handle, _, isThere⟩
  exact run.payload_lt sized isThere

theorem requests_answered_creation :
    ∃ log service frame session, Runs 64 log service ∧ service.session? 1 = some session ∧
      frame.message = .ok (.createRequest .value [1] "/a") ∧
      service.Responds .stored 1 frame session (.createRequest .value [1] "/a") ∧
      service.tree.Gains (service.handle .stored 1 frame).1.tree "/a" (.new 100 .value [1] 1) := by
  have run : Runs 64 [] (.new 64) := .new
  have run := run.next (.opened 8 .sink) (by decide)
  have run := run.serve 1 7 (.signinRequest protocolVersion 0 ⟨0⟩) rfl
  have asked : Frame.ofMessage (.createRequest .value [1] "/a") 7 =
      .ok ⟨⟨44, 21, 7⟩, [0, 1, 0, 0, 0, 1, 2, 0, 0, 0, 47, 97]⟩ := rfl
  have answer : Frame.ofMessage (.createResponse .ok 100) 7 =
      .ok ⟨⟨45, 14, 7⟩, [0, 100, 0, 0, 0]⟩ := rfl
  have responds : Service.Responds _ .stored 1 _ _ _ :=
    run.requests_answered (by decide +kernel) rfl (Frame.message_ofMessage asked) (by decide) trivial
  refine ⟨_, _, _, _, run, rfl, Frame.message_ofMessage asked, responds, ?_⟩
  rcases responds.created rfl _ _ _ rfl with ⟨code, uuid, ⟨sent, answered, _, carried⟩, tells⟩
  have isSent : (⟨⟨45, 14, 7⟩, [0, 100, 0, 0, 0]⟩ : Frame) = sent := Option.some.inj answered
  rw [← isSent, Frame.message_ofMessage answer] at carried
  cases carried
  exact tells.created rfl

end Runs

end SharedTree
