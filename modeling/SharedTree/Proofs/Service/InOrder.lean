import SharedTree.Proofs.Service.Conversation
import SharedTree.Proofs.Service.Hosting

/-!
# Leaving in order

Whatever the order in which entries are queued for a session, its backlog is flushed and its
requests are handled and answered: entries leave in the order in which they were queued, answers in
the order of the requests, and no answer overtakes an entry that was queued before its request was
done. What a request does to the tree is among these entries.

`Converses.in_order` says so of every moment of every conversation.
-/

namespace SharedTree

/-- How what a session has been handed to write comes from the log of its conversation. -/
structure Books (id : SessionId) (log : List ConversationOccurrence) (conversation : Conversation)
    (session : Session) (pieces : List Piece) (parcels : List Parcel) : Prop where
  regular : ∀ entry ∈ session.backlog.entries, Session.Regular entry
  handed : (pieces.map (·.handing)).flatMap (·.frames) = parcels.map Parcel.frame
  account : Account pieces (log.flatMap (·.reads id)) session
  answers : Ledger id (·.answer? id) log parcels session.backlog.entries
    (session.awaiting ++ conversation.toAnswer.join.toList)
  sends : Ledger id (·.begun?) log parcels session.backlog.entries session.awaiting

theorem answers_singleton (send : Send) : [send].filterMap (·.answer) = send.answer.toList := by
  cases answer : send.answer <;> simp [answer]

namespace Books

variable {id : SessionId} {log : List ConversationOccurrence} {conversation : Conversation}
  {session later : Session} {pieces : List Piece} {parcels : List Parcel}
  {step : ConversationStep}

theorem queued_eq {entries : List BacklogEntry}
    (found : conversation.service.session? id = some session)
    (laterFound : (conversation.next id step).service.session? id = some later)
    (appended : later.backlog.entries = session.backlog.entries ++ entries) :
    ConversationOccurrence.queued id ⟨conversation, step⟩ = entries := by
  rw [ConversationOccurrence.queued, ConversationOccurrence.after, Service.waiting_of_found found,
    Service.waiting_of_found laterFound, appended, List.drop_left]

theorem fed {entries : List BacklogEntry} (books : Books id log conversation session pieces parcels)
    (found : conversation.service.session? id = some session)
    (laterFound : (conversation.next id step).service.session? id = some later)
    (fed : session.Fed entries later)
    (unread : ConversationOccurrence.reads id ⟨conversation, step⟩ = [])
    (owes : (conversation.next id step).toAnswer.join.toList = conversation.toAnswer.join.toList ++
      (ConversationOccurrence.answer? id ⟨conversation, step⟩).toList)
    (begins : ConversationOccurrence.begun? ⟨conversation, step⟩ = none) :
    Books id (log ++ [⟨conversation, step⟩]) (conversation.next id step) later pieces parcels where
  regular entry mem := by
    rw [fed.appended] at mem
    rcases List.mem_append.mp mem with waited | isNew
    · exact books.regular entry waited
    · exact fed.regular entry isNew
  handed := books.handed
  account := by
    rw [List.flatMap_append, List.flatMap_singleton, unread, List.append_nil]
    exact books.account.of_same (congrArg _ fed.channel) (congrArg _ fed.channel) fed.stays
  answers := by
    have noted := books.answers.note ⟨conversation, step⟩
    rw [queued_eq found laterFound fed.appended, ← fed.appended, List.append_assoc, ← owes,
      Session.awaiting, ← fed.channel] at noted
    exact noted
  sends := by
    have noted := books.sends.note ⟨conversation, step⟩
    rw [queued_eq found laterFound fed.appended, ← fed.appended, begins, Option.toList_none,
      List.append_nil, Session.awaiting, ← fed.channel] at noted
    exact noted

theorem sent {begun : List Send} {sends : SessionStep}
    (books : Books id log conversation session pieces parcels)
    (found : conversation.service.session? id = some session)
    (acts : (conversation.next id step).service = (conversation.act id sends).service)
    (proceeds : session.Proceeds begun (session.takesUp? sends) (session.step sends))
    (fits : conversation.Fits id)
    (reads : ConversationOccurrence.reads id ⟨conversation, step⟩ = session.reads sends)
    (silent : ConversationOccurrence.answer? id ⟨conversation, step⟩ = none)
    (begins : (ConversationOccurrence.begun? ⟨conversation, step⟩).toList =
      begun.filterMap (·.answer))
    (owes : conversation.toAnswer.join.toList = begun.filterMap (·.answer) ++
      (conversation.next id step).toAnswer.join.toList) :
    ∃ pieces parcels, Books id (log ++ [⟨conversation, step⟩]) (conversation.next id step)
      (session.step sends) pieces parcels := by
  have laterFound : (conversation.next id step).service.session? id = some (session.step sends) := by
    rw [acts, Conversation.act, Service.session?_modifySession, if_pos rfl, found, Option.map_some]
  have unqueued : ConversationOccurrence.queued id ⟨conversation, step⟩ = [] := by
    rw [ConversationOccurrence.queued, ConversationOccurrence.after,
      Service.waiting_of_found found, Service.waiting_of_found laterFound, proceeds.backlog]
    split <;> simp [Backlog.clear]
  rcases books.account.step sends with ⟨later, handings, account⟩
  have account : Account later ((log ++ [(⟨conversation, step⟩ : ConversationOccurrence)]).flatMap
      (·.reads id)) (session.step sends) := by
    rw [List.flatMap_append, List.flatMap_singleton, reads]
    exact account
  -- Sends get the channel in the order in which they were begun.
  have queue := congrArg (List.filterMap (·.answer)) proceeds.queue
  rw [List.filterMap_append, List.filterMap_append] at queue
  have answers := books.answers.note ⟨conversation, step⟩
  rw [unqueued, silent, Option.toList_none, List.append_nil, List.append_nil, owes,
    ← List.append_assoc, Session.awaiting, queue] at answers
  have inTurn := books.sends.note ⟨conversation, step⟩
  rw [unqueued, begins, List.append_nil, Session.awaiting, queue] at inTurn
  have backlog := proceeds.backlog
  cases taken : session.takesUp? sends with
  | none =>
      rw [taken, Option.isSome_none, if_neg Bool.false_ne_true] at backlog
      rw [taken, ← backlog] at answers inTurn
      refine ⟨later, parcels, by rw [backlog]; exact books.regular, ?_, account, answers, inTurn⟩
      rw [handings, Session.handing?, taken, Option.map_none, Option.toList_none, List.append_nil]
      exact books.handed
  | some send =>
      rw [taken, Option.isSome_some, if_pos rfl] at backlog
      rw [taken, Option.toList_some, answers_singleton] at answers inTurn
      have whole := Backlog.flatMap_entries_frames (fits session found)
        fun frame mem => (books.regular _ mem).entries_eq
      refine ⟨later, parcels ++ Parcel.handed session.backlog.frames send.answer, ?_, ?_, account,
        ?_, ?_⟩
      · rw [backlog]
        exact List.forall_mem_nil _
      · rw [handings, Session.handing?, taken, List.flatMap_append, List.map_append, books.handed,
          Parcel.map_frame_handed]
        exact congrArg _ (List.flatMap_singleton _ _)
      · rw [List.append_assoc] at answers
        rw [backlog]
        exact answers.hand whole
      · rw [backlog]
        exact inTurn.hand whole

end Books

/-! ## Whole conversations -/

/-- The session of a conversation is there. As long as it goes on, books can be kept, and the session
hears of what it does itself. -/
structure Booked (id : SessionId) (log : List ConversationOccurrence) (conversation : Conversation)
    (session : Session) : Prop where
  hosts : conversation.service.Hosts id session
  books : session.stopped = false → (∀ occurrence ∈ log, occurrence.before.Fits id) →
    ∃ pieces parcels, Books id log conversation session pieces parcels
  echoes : session.stopped = false → ∀ occurrence ∈ log, occurrence.Echoes id

namespace Booked

variable {id : SessionId} {log : List ConversationOccurrence} {conversation : Conversation}
  {session later : Session} {step : ConversationStep}

theorem fed {entries : List BacklogEntry} (booked : Booked id log conversation session)
    (laterHosts : (conversation.next id step).service.Hosts id later)
    (fed : later.stopped = false → session.Fed entries later)
    (unread : ConversationOccurrence.reads id ⟨conversation, step⟩ = [])
    (owes : (conversation.next id step).toAnswer.join.toList = conversation.toAnswer.join.toList ++
      (ConversationOccurrence.answer? id ⟨conversation, step⟩).toList)
    (begins : ConversationOccurrence.begun? ⟨conversation, step⟩ = none)
    (echoes : later.stopped = false → session.stopped = false →
      ConversationOccurrence.Echoes id ⟨conversation, step⟩) :
    Booked id (log ++ [⟨conversation, step⟩]) (conversation.next id step) later := by
  have wasGoing (going : later.stopped = false) : session.stopped = false := by
    rw [← Bool.not_eq_true]
    intro stopped
    rw [(fed going).stays stopped] at going
    cases going
  refine ⟨laterHosts, fun going fits => ?_, fun going => ?_⟩
  · rcases booked.books (wasGoing going)
      fun occurrence mem => fits occurrence (List.mem_append_left _ mem) with ⟨pieces, parcels, books⟩
    exact ⟨pieces, parcels,
      books.fed booked.hosts.found laterHosts.found (fed going) unread owes begins⟩
  · rw [List.forall_mem_append, List.forall_mem_singleton]
    exact ⟨booked.echoes (wasGoing going), echoes going (wasGoing going)⟩

theorem sent {begun : List Send} {sends : SessionStep} (booked : Booked id log conversation session)
    (acts : (conversation.next id step).service = (conversation.act id sends).service)
    (proceeds : (session.step sends).stopped = false →
      session.Proceeds begun (session.takesUp? sends) (session.step sends))
    (reads : ConversationOccurrence.reads id ⟨conversation, step⟩ = session.reads sends)
    (silent : ConversationOccurrence.answer? id ⟨conversation, step⟩ = none)
    (begins : (ConversationOccurrence.begun? ⟨conversation, step⟩).toList =
      begun.filterMap (·.answer))
    (owes : conversation.toAnswer.join.toList = begun.filterMap (·.answer) ++
      (conversation.next id step).toAnswer.join.toList)
    (echoes : ConversationOccurrence.Echoes id ⟨conversation, step⟩) :
    Booked id (log ++ [⟨conversation, step⟩]) (conversation.next id step) (session.step sends) := by
  refine ⟨acts ▸ booked.hosts.step sends, fun going fits => ?_, fun going => ?_⟩
  · rcases booked.books (proceeds going).going
      fun occurrence mem => fits occurrence (List.mem_append_left _ mem) with ⟨pieces, parcels, books⟩
    exact books.sent booked.hosts.found acts (proceeds going)
      (fits ⟨conversation, step⟩ List.mem_concat_self) reads silent begins owes
  · rw [List.forall_mem_append, List.forall_mem_singleton]
    exact ⟨booked.echoes (proceeds going).going, echoes⟩

theorem next (booked : Booked id log conversation session)
    (allowed : conversation.Allows id step) :
    ∃ later, Booked id (log ++ [⟨conversation, step⟩]) (conversation.next id step) later := by
  have hosts := booked.hosts
  have unread {count : Nat} : ConversationOccurrence.reads id ⟨conversation, .read count⟩ =
      session.reads (.read count) := by
    simp only [ConversationOccurrence.reads, hosts.found]
  cases step with
  | happened event =>
      rcases allowed with ⟨allowed, spares⟩
      rcases hosts.next allowed (by rintro rfl; exact spares rfl)
        (by rintro ⟨order, rfl⟩; exact spares rfl) (by rintro ⟨order, rfl⟩; exact spares rfl) with ⟨later, laterHosts, fed⟩
      exact ⟨later, booked.fed laterHosts (fun _ => fed) rfl (List.append_nil _).symm rfl nofun⟩
  | handled order frame =>
      rcases (hosts.next trivial nofun nofun nofun :
        ∃ later, (conversation.service.next (.frame order id frame)).Hosts id later ∧
          session.Fed _ later) with ⟨later, laterHosts, fed⟩
      refine ⟨later, booked.fed laterHosts (fun _ => fed) rfl ?_ rfl ?_⟩
      · rw [allowed.1]
        rfl
      · intro laterGoing going order frame same
        cases same
        exact hosts.coherent.echoes hosts.attended hosts.found hosts.listed going laterHosts.found
          laterGoing
  | queued entry =>
      exact ⟨_, booked.fed (hosts.step (.queued entry)) (Session.fed_push allowed) rfl
        (List.append_nil _).symm rfl nofun⟩
  | answered choice deadline =>
      refine ⟨_, booked.sent rfl Session.proceeds_called rfl rfl ?_ ?_ nofun⟩
      · rw [answers_singleton]
        rfl
      · rw [answers_singleton]
        exact (List.append_nil _).symm
  | flushed choice deadline =>
      exact ⟨_, booked.sent rfl Session.proceeds_called rfl rfl rfl rfl nofun⟩
  | turned choice => exact ⟨_, booked.sent rfl Session.proceeds_turned rfl rfl rfl rfl nofun⟩
  | read count =>
      refine ⟨_, booked.sent rfl Session.proceeds_read unread rfl ?_ ?_ nofun⟩ <;> rfl

end Booked

/-- What a session sends its client. -/
structure InOrder (id : SessionId) (log : List ConversationOccurrence) (conversation : Conversation)
    (session : Session) (parcels : List Parcel) : Prop where
  bytes : log.flatMap (·.reads id) ++ session.channel.transport.held ++ session.unwritten =
    parcels.flatMap (·.frame.encode)
  /-- Answers leave behind what was queued while their requests were handled. -/
  answers : Ledger id (·.answer? id) log parcels session.backlog.entries
    (session.awaiting ++ conversation.toAnswer.join.toList)
  /-- They even leave behind what was queued until the session began to send them. -/
  sends : Ledger id (·.begun?) log parcels session.backlog.entries session.awaiting

namespace Converses

variable {id : SessionId} {log : List ConversationOccurrence} {conversation : Conversation}

theorem booked (conversed : Converses id log conversation) :
    ∃ session, Booked id log conversation session := by
  induction conversed with
  | opened capacity attended maxEntries run isNext allowed =>
      have hosts := Service.Hosts.opened run isNext allowed
      exact ⟨_, hosts, fun _ _ => ⟨[], [], nofun, rfl, .opened rfl, .new id _, .new id _⟩, nofun⟩
  | next before step allowed ih =>
      rcases ih with ⟨session, booked⟩
      exact booked.next allowed

theorem in_order (conversed : Converses id log conversation) :
    ∃ session, conversation.service.session? id = some session ∧
      (session.stopped = false →
        (∀ occurrence ∈ log, occurrence.Echoes id) ∧
        ((∀ occurrence ∈ log, occurrence.before.Fits id) →
          ∃ parcels, InOrder id log conversation session parcels)) := by
  rcases conversed.booked with ⟨session, booked⟩
  refine ⟨session, booked.hosts.found, fun going => ⟨booked.echoes going, fun fits => ?_⟩⟩
  rcases booked.books going fits with ⟨pieces, parcels, books⟩
  refine ⟨parcels, ?_, books.answers, books.sends⟩
  rw [books.account.complete going, flatMap_bytes, books.handed, List.flatMap_map]

theorem in_order_interleaved :
    ∃ log conversation session, Converses 1 log conversation ∧
      conversation.service.session? 1 = some session ∧ session.stopped = false ∧
      (log.flatMap (·.queued 1)).length = 3 ∧ (log.filterMap (·.answer? 1)).length = 2 ∧
      (log.flatMap (·.reads 1)).length = 40 ∧
      (∀ occurrence ∈ log, occurrence.Echoes 1) ∧
      ∃ parcels, InOrder 1 log conversation session parcels := by
  have start : Runs 64 [] (Service.new 64).offline := .new
  have run : Converses 1 [] _ := .opened 20 false 8 start rfl (by decide)
  have elsewhereIs : (2 : SessionId) ≠ 1 := by decide
  have serve {log : List ConversationOccurrence} {conversation : Conversation} {frame : Frame}
      (before : Converses 1 log conversation) (message : Message)
      (_ : Frame.ofMessage message 7 = .ok frame)
      (allowed : conversation.Allows 1 (.handled .stored frame)) :=
    before.next (.handled .stored frame) allowed
  have elsewhere {log : List ConversationOccurrence} {conversation : Conversation} {frame : Frame}
      (before : Converses 1 log conversation) (message : Message)
      (_ : Frame.ofMessage message 9 = .ok frame) :=
    before.next (.happened (.frame .stored 2 frame)) ⟨trivial, elsewhereIs⟩
  have run := run.next (.happened (.opened 8 .sink)) ⟨by decide, trivial⟩
  have run := elsewhere run (.signinRequest protocolVersion 0 ⟨0⟩) rfl
  have run := serve run (.signinRequest protocolVersion 0 ⟨0⟩) rfl ⟨rfl, rfl⟩
  have run := run.next (.answered .giveUp 10) rfl
  have run := serve run (.createRequest .value [] "/a") rfl ⟨rfl, rfl⟩
  have run := run.next (.flushed .giveUp 10) rfl
  have run := elsewhere run (.createRequest .value [] "/b") rfl
  have run := run.next (.answered .giveUp 10) rfl
  have run := run.next (.read 20) trivial
  have run := run.next (.turned .giveUp) trivial
  have run := elsewhere run (.deleteRequest "/b") rfl
  have run := run.next (.read 20) trivial
  have run := run.next (.turned .giveUp) trivial
  have run := run.next (.turned .giveUp) trivial
  rcases run.in_order with ⟨session, found, ordered⟩
  refine ⟨_, _, session, run, found, ?_, rfl, rfl, rfl, ?_⟩
  · cases found
    rfl
  · cases found
    exact ⟨(ordered rfl).1, (ordered rfl).2 (by decide +kernel)⟩
end Converses

end SharedTree
