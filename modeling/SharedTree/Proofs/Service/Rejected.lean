import SharedTree.Client.Basic
import SharedTree.Proofs.Service.Oversized

/-!
# Frames without effect

Whatever the service finds wrong with a frame, it finds before it changes anything or records a
call, and an operation of the tree that fails leaves the tree and the sessions as they were: what it
checks comes before a uuid is taken, before a node is marked as deleted and before anything is
announced. `Service.Ineffective` lists the frames that come to nothing, those that only read
included.

The main result, `Service.handle_of_ineffective`, says that handling such a frame leaves the
service as it is, with every property, watcher, session, backlog and pending call.
-/

namespace SharedTree

/-- Clients send messages of the kind, to ask or to tell something. -/
def MessageKind.FromClient (kind : MessageKind) : Prop :=
  (∃ (config : ClientConfig) (question : Question), (question.message config).kind = kind) ∨
    ∃ statement : Statement, statement.message.kind = kind

/-- The message answers a request with a code other than success. -/
def Message.Refuses : Message → Prop
  | .createResponse code _ => code ≠ .ok
  | .deleteResponse code => code ≠ .ok
  | .subscribeResponse code => code ≠ .ok
  | .unsubscribeResponse code => code ≠ .ok
  | _ => False

namespace Service

variable {service : Service} {order : VisitOrder} {sender : SessionId} {frame : Frame}

/-- The frames that have no effect. -/
inductive Ineffective (service : Service) (order : VisitOrder) (sender : SessionId)
    (frame : Frame) : Prop where
  | unknownTag {error : WireError} (unknown : frame.header.kind = .error error)
  | undecodable {error : WireError} (unreadable : frame.message = .error error)
  | notSignedIn {session : Session} {message : Message}
      (found : service.session? sender = some session) (unsigned : session.signedIn = false)
      (asked : frame.message = .ok message) (other : message.kind ≠ .signinRequest)
  | unexpected {message : Message} (asked : frame.message = .ok message)
      (foreign : ¬message.kind.FromClient)
  | refused {answer : Frame} {reply : Message}
      (answered : (service.handle order sender frame).2 = some answer)
      (carried : answer.message = .ok reply) (refuses : reply.Refuses)
  | tooLarge {update : ValueUpdate} (asked : frame.message = .ok (.setValueIndication update))
      (large : service.maxBody < (Message.propertyUpdateNotification [update]).size)
  | noValue {update : ValueUpdate} (asked : frame.message = .ok (.setValueIndication update))
      (absent : ∀ handle, service.tree.index.find? update.uuid = some handle →
        service.tree.value? handle = none)
  | unmatched {session : Session} {caller : SessionId} {transaction : TransactionId}
      {returnValue : Bytes} (found : service.session? sender = some session)
      (asked : frame.message = .ok (.handleRpcResponse caller transaction returnValue))
      (foreign : ∀ answeredTo, service.listed? caller = some answeredTo →
        ¬answeredTo.Awaits transaction session.id)
  | answeredAtOnce {uuid : Uuid} {parameter : Bytes} {answer : Frame}
      (asked : frame.message = .ok (.rpcRequest uuid parameter))
      (answered : (service.handle order sender frame).2 = some answer)
      (empty : answer.message = .ok (.rpcResponse []))
  | reads {uuid : Uuid} (asked : frame.message = .ok (.getValueRequest uuid))
  | looksUp {path : String} (asked : frame.message = .ok (.getSpecificMetaRequest path))

/-! ## Requests that are refused -/

theorem create_of_refuses {owner : SessionId} {kind : PropertyKind} {data : Bytes} {path : String}
    (refuses : (service.create order owner kind data path).2.Refuses) :
    (service.create order owner kind data path).1 = service := by
  rw [create_outcome] at refuses ⊢
  split at refuses
  · next tooLong => rw [if_pos tooLong]
  · next pathFits =>
    rw [if_neg pathFits]
    split at refuses
    · next tooLarge => rw [if_pos tooLarge]
    · next dataFits =>
      rw [if_neg dataFits]
      split at refuses
      · rfl
      · exact absurd rfl refuses

theorem delete_of_refuses {path : String} (refuses : (service.delete order path).2.Refuses) :
    (service.delete order path).1 = service := by
  rw [delete_outcome] at refuses ⊢
  split at refuses
  · rfl
  · exact absurd rfl refuses

theorem subscribe_of_refuses {session : Session} {uuid : Uuid}
    (refuses : (service.subscribe session uuid).2.Refuses) :
    (service.subscribe session uuid).1 = service := by
  rw [subscribe_outcome] at refuses ⊢
  split at refuses
  · rfl
  · exact absurd rfl refuses

theorem unsubscribe_of_refuses {session : Session} {uuid : Uuid}
    (refuses : (service.unsubscribe session uuid).2.Refuses) :
    (service.unsubscribe session uuid).1 = service := by
  rw [unsubscribe_outcome] at refuses ⊢
  split at refuses
  · rfl
  · exact absurd rfl refuses

theorem setValue_of_tooLarge {update : ValueUpdate}
    (large : service.maxBody < (Message.propertyUpdateNotification [update]).size) :
    service.setValue order update = service := by
  have tooLarge : service.updateFits update.data = false := by
    rw [Bool.eq_false_iff, Ne, updateFits_iff]
    rw [Message.size_update] at large
    omega
  simp [setValue, tooLarge]

theorem setValue_of_noValue {update : ValueUpdate}
    (absent : ∀ handle, service.tree.index.find? update.uuid = some handle →
      service.tree.value? handle = none) :
    service.setValue order update = service := by
  rw [setValue_outcome]
  split
  · rfl
  · split
    · rfl
    · next tree sessions success =>
      rcases Tree.setValue_eq_ok success with ⟨handle, property, watchers, _, _, inIndex, found,
        watched, _⟩
      have isValue : service.tree.value? handle = property.value? := by
        rw [← Tree.value?_hold service.tree handle handle, Tree.value?, found, Option.bind_some]
      rw [absent handle inIndex] at isValue
      rw [Property.watchers?_eq_value?, ← isValue] at watched
      cases watched

theorem answerCall_of_unmatched {handler caller : SessionId} {transaction : TransactionId}
    {returnValue : Bytes} (foreign : ∀ answeredTo, service.listed? caller = some answeredTo →
      ¬answeredTo.Awaits transaction handler) :
    service.answerCall handler caller transaction returnValue = service := by
  unfold answerCall
  split
  · rfl
  · next answeredTo listed =>
    have others : ∀ call, answeredTo.pending.find? transaction = some call →
        call.handler ≠ some handler :=
      fun call pending mine => foreign answeredTo listed ⟨call, pending, mine⟩
    rw [completeCall_eq_false (session?_of_listed? listed) others]
    rfl

/-- A call that is answered at once is not recorded. -/
theorem call_of_answered {transaction : TransactionId} {uuid : Uuid} {parameter : Bytes}
    {reply : Message} (answered : (service.call sender transaction uuid parameter).2 = some reply) :
    (service.call sender transaction uuid parameter).1 = service := by
  unfold call at answered ⊢
  split at answered
  · rfl
  · dsimp only at answered
    split at answered <;> cases answered

/-! ## Messages without effect -/

section Messages

variable {session : Session} {transaction : TransactionId} {message : Message}

theorem handleMessage_of_notSignedIn (unsigned : session.signedIn = false)
    (other : message.kind ≠ .signinRequest) :
    (service.handleMessage order session transaction message).1 = service := by
  cases message with
  | signinRequest version refreshRate features => exact absurd rfl other
  | _ => simp only [handleMessage, unsigned]

theorem handleMessage_of_unexpected (foreign : ¬message.kind.FromClient) :
    (service.handleMessage order session transaction message).1 = service := by
  have notAsked (config : ClientConfig) (question : Question)
      (same : (question.message config).kind = message.kind) : False :=
    foreign (Or.inl ⟨config, question, same⟩)
  have notTold (statement : Statement) (same : statement.message.kind = message.kind) : False :=
    foreign (Or.inr ⟨statement, same⟩)
  cases message with
  | signinRequest version refreshRate features => exact (notAsked {} .signIn rfl).elim
  | createRequest kind data path => exact (notAsked {} (.create path kind data) rfl).elim
  | deleteRequest path => exact (notAsked {} (.delete path) rfl).elim
  | setValueIndication update => exact (notTold (.setValue update) rfl).elim
  | subscribeRequest uuid => exact (notAsked {} (.subscribe uuid) rfl).elim
  | unsubscribeRequest uuid => exact (notAsked {} (.unsubscribe uuid) rfl).elim
  | getValueRequest uuid => exact (notAsked {} (.getValue uuid) rfl).elim
  | rpcRequest uuid parameter => exact (notAsked {} (.call uuid parameter) rfl).elim
  | handleRpcResponse caller transaction returnValue =>
      exact (notTold (.answerCall caller transaction returnValue) rfl).elim
  | getSpecificMetaRequest path => exact (notAsked {} (.lookUp path) rfl).elim
  | _ => cases session.signedIn <;> rfl

theorem handleMessage_setValue {update : ValueUpdate}
    (kept : service.setValue order update = service) :
    (service.handleMessage order session transaction (.setValueIndication update)).1 = service := by
  cases allowed : session.signedIn <;> simp only [handleMessage, allowed, kept]

theorem handleMessage_answerCall {caller : SessionId} {callerTransaction : TransactionId}
    {returnValue : Bytes}
    (kept : service.answerCall session.id caller callerTransaction returnValue = service) :
    (service.handleMessage order session transaction
      (.handleRpcResponse caller callerTransaction returnValue)).1 = service := by
  cases allowed : session.signedIn <;> simp only [handleMessage, allowed, kept]

theorem handleMessage_call {uuid : Uuid} {parameter : Bytes} {reply : Message}
    (answered : (service.handleMessage order session transaction
      (.rpcRequest uuid parameter)).2 = some reply) :
    (service.handleMessage order session transaction (.rpcRequest uuid parameter)).1 = service := by
  cases allowed : session.signedIn <;> simp only [handleMessage, allowed] at answered ⊢
  exact call_of_answered answered

theorem handleMessage_of_refuses {reply : Message}
    (answered : (service.handleMessage order session transaction message).2 = some reply)
    (refuses : reply.Refuses) :
    (service.handleMessage order session transaction message).1 = service := by
  cases allowed : session.signedIn with
  | false =>
      cases message with
      | signinRequest version refreshRate features =>
          cases answered
          exact refuses.elim
      | _ => simp only [handleMessage, allowed]
  | true =>
      cases message with
      | signinRequest version refreshRate features =>
          cases answered
          exact refuses.elim
      | createRequest kind data path =>
          simp only [handleMessage, allowed, Option.some.injEq] at answered ⊢
          subst answered
          exact create_of_refuses refuses
      | deleteRequest path =>
          simp only [handleMessage, allowed, Option.some.injEq] at answered ⊢
          subst answered
          exact delete_of_refuses refuses
      | subscribeRequest uuid =>
          simp only [handleMessage, allowed, Option.some.injEq] at answered ⊢
          subst answered
          exact subscribe_of_refuses refuses
      | unsubscribeRequest uuid =>
          simp only [handleMessage, allowed, Option.some.injEq] at answered ⊢
          subst answered
          exact unsubscribe_of_refuses refuses
      | rpcRequest uuid parameter => exact handleMessage_call answered
      | setValueIndication update => simp only [handleMessage, allowed, reduceCtorEq] at answered
      | handleRpcResponse caller callerTransaction returnValue =>
          simp only [handleMessage, allowed, reduceCtorEq] at answered
      | _ => simp only [handleMessage, allowed]

end Messages

theorem handle_of_handleMessage
    (each : ∀ session message, service.session? sender = some session →
      frame.message = .ok message →
        (service.handleMessage order session frame.transaction message).1 = service) :
    (service.handle order sender frame).1 = service := by
  unfold handle
  split
  · next session message found asked => exact each session message found asked
  · rfl

/-- Handling a frame that comes to nothing leaves the service as it is. -/
theorem handle_of_ineffective (ineffective : service.Ineffective order sender frame) :
    (service.handle order sender frame).1 = service := by
  apply handle_of_handleMessage
  intro session message found asked
  have theSession {other : Session} (otherFound : service.session? sender = some other) :
      session = other := Option.some.inj (found.symm.trans otherFound)
  have theMessage {other : Message} (otherAsked : frame.message = .ok other) : message = other :=
    Except.ok.inj (asked.symm.trans otherAsked)
  cases ineffective with
  | unknownTag unknown =>
      simp only [Frame.message, unknown] at asked
      cases asked
  | undecodable unreadable =>
      rw [unreadable] at asked
      cases asked
  | notSignedIn sameFound unsigned sameAsked other =>
      obtain rfl := theSession sameFound
      obtain rfl := theMessage sameAsked
      exact handleMessage_of_notSignedIn unsigned other
  | unexpected sameAsked foreign =>
      obtain rfl := theMessage sameAsked
      exact handleMessage_of_unexpected foreign
  | refused answered carried refuses =>
      rcases handle_answer answered with ⟨_, _, reply, sameFound, sameAsked, replied, made⟩
      obtain rfl := theSession sameFound
      obtain rfl := theMessage sameAsked
      rw [Frame.message_ofMessage made] at carried
      cases carried
      exact handleMessage_of_refuses replied refuses
  | tooLarge sameAsked large =>
      obtain rfl := theMessage sameAsked
      exact handleMessage_setValue (setValue_of_tooLarge large)
  | noValue sameAsked absent =>
      obtain rfl := theMessage sameAsked
      exact handleMessage_setValue (setValue_of_noValue absent)
  | unmatched sameFound sameAsked foreign =>
      obtain rfl := theSession sameFound
      obtain rfl := theMessage sameAsked
      exact handleMessage_answerCall (answerCall_of_unmatched foreign)
  | answeredAtOnce sameAsked answered empty =>
      rcases handle_answer answered with ⟨_, _, reply, sameFound, askedToo, replied, _⟩
      obtain rfl := theSession sameFound
      obtain rfl := theMessage askedToo
      obtain rfl := theMessage sameAsked
      exact handleMessage_call replied
  | reads sameAsked =>
      obtain rfl := theMessage sameAsked
      cases allowed : session.signedIn <;> simp only [handleMessage, allowed]
  | looksUp sameAsked =>
      obtain rfl := theMessage sameAsked
      cases allowed : session.signedIn <;> simp only [handleMessage, allowed]

theorem handle_of_ineffective_notEmpty :
    ∃ log service frame answer,
      Runs 64 log service ∧ frame.message = .ok (.deleteRequest "/a") ∧
      (service.handle .stored 1 frame).2 = some answer ∧
      answer.message = .ok (.deleteResponse .notEmpty) ∧
      (service.handle .stored 1 frame).1 = service := by
  have serve {log : List Occurrence} {service : Service} {frame : Frame}
      (before : Runs 64 log service) (message : Message)
      (_ : Frame.ofMessage message 7 = .ok frame) :=
    before.next (.frame .stored 1 frame) trivial
  have run : Runs 64 [] (.new 64) := .new
  have run := run.next (.opened 8 .sink) (by decide)
  have run := serve run (.signinRequest protocolVersion 0 ⟨0⟩) rfl
  have run := serve run (.createRequest .node [] "/a") rfl
  have run := serve run (.createRequest .value [1] "/a/b") rfl
  have asked : Frame.ofMessage (.deleteRequest "/a") 7 =
      .ok ⟨⟨47, 15, 7⟩, [2, 0, 0, 0, 47, 97]⟩ := rfl
  have answered : Frame.ofMessage (.deleteResponse .notEmpty) 7 = .ok ⟨⟨48, 10, 7⟩, [3]⟩ := rfl
  have refuses : DeleteCode.notEmpty ≠ .ok := by decide
  refine ⟨_, _, _, _, run, Frame.message_ofMessage asked, rfl, Frame.message_ofMessage answered, ?_⟩
  exact handle_of_ineffective (.refused rfl (Frame.message_ofMessage answered) refuses)

end Service

end SharedTree
