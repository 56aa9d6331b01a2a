import SharedTree.Proofs.Places
import SharedTree.Proofs.Service.Echoes
import SharedTree.Proofs.Service.Offline
import SharedTree.Proofs.Session.Writing

/-!
# Conversations

A conversation is what goes on between a session and its client. The session handles requests one
after the other: it handles one, and then sends the answer behind whatever waits in its backlog.
Meanwhile other sessions do what they like, entries are put into the backlog, and the backlog is
flushed at any time.

A `Ledger` says how what leaves the session comes from the log of its conversation.
-/

namespace SharedTree

/-- An event that another session takes part in, or none. -/
def ServiceEvent.Spares (id : SessionId) : ServiceEvent → Prop
  | .opened _ _ => True
  | .frame _ sender _ => sender ≠ id
  | .stopped other | .unlisted _ other | .closed _ other | .drained other => other ≠ id

instance (id : SessionId) (event : ServiceEvent) : Decidable (event.Spares id) := by
  cases event <;> unfold ServiceEvent.Spares <;> infer_instance

/-- The service while one session talks to its client. -/
structure Conversation where
  service : Service
  /-- What the request handled last is to be answered with, until that is sent. -/
  toAnswer : Option (Option Frame) := none

/-- Something that happens in a conversation. -/
inductive ConversationStep where
  /-- Something happens elsewhere. -/
  | happened (event : ServiceEvent)
  | queued (entry : BacklogEntry)
  /-- The session handles a request. -/
  | handled (order : VisitOrder) (frame : Frame)
  /-- The answer to the request is sent. -/
  | answered (choice : Choice) (deadline : Nat)
  | flushed (choice : Choice) (deadline : Nat)
  /-- The send goes on whose turn it is. -/
  | turned (choice : Choice)
  /-- The client reads. -/
  | read (count : Nat)

namespace Conversation

/-- The session does something. -/
def act (conversation : Conversation) (id : SessionId) (step : SessionStep) : Conversation :=
  { conversation with service := conversation.service.modifySession id (·.step step) }

/-- A conversation after a step. -/
def next (conversation : Conversation) (id : SessionId) : ConversationStep → Conversation
  | .happened event => { conversation with service := conversation.service.next event }
  | .queued entry => conversation.act id (.queued entry)
  | .handled order frame =>
    { service := conversation.service.next (.frame order id frame)
      toAnswer := some (conversation.service.handle order id frame).2 }
  | .answered choice deadline =>
    { conversation.act id (.called choice ⟨.answering, conversation.toAnswer.join, deadline⟩) with
      toAnswer := none }
  | .flushed choice deadline => conversation.act id (.called choice ⟨.flushing, none, deadline⟩)
  | .turned choice => conversation.act id (.turned choice)
  | .read count => conversation.act id (.read count)

/-- Whether a sender of the session has a send that is not done. -/
def isSending (conversation : Conversation) (id : SessionId) (sender : Sender) : Bool :=
  (conversation.service.session? id).any (·.isSending sender)

/-- Whether a step can happen. A request is handled when the one before is done, and a flush begins
when the one before is done. -/
def Allows (conversation : Conversation) (id : SessionId) : ConversationStep → Prop
  | .happened event => conversation.service.Allows event ∧ event.Spares id
  | .queued entry => Session.Regular entry
  | .handled _ _ =>
    conversation.toAnswer = none ∧ conversation.isSending id .answering = false
  | .answered _ _ => conversation.toAnswer.isSome = true
  | .flushed _ _ => conversation.isSending id .flushing = false
  | .turned _ | .read _ => True

/-- Everything that waits fits in frames. -/
def Fits (conversation : Conversation) (id : SessionId) : Prop :=
  ∀ session, conversation.service.session? id = some session →
    ∀ batch ∈ Batch.gather session.backlog.maxBody session.backlog.entries, batch.toFrame? ≠ none

instance (conversation : Conversation) (id : SessionId) : Decidable (conversation.Fits id) :=
  match found : conversation.service.session? id with
  | none => .isTrue (by simp [Fits, found])
  | some session =>
    decidable_of_iff (∀ batch ∈ Batch.gather session.backlog.maxBody session.backlog.entries,
      batch.toFrame? ≠ none) (by simp [Fits, found])

end Conversation

/-- The answers whose sends wait for the channel, first come first. -/
def Session.awaiting (session : Session) : List Frame :=
  session.channel.waiting.filterMap (·.answer)

/-- A step of a conversation, with the conversation before it. -/
structure ConversationOccurrence where
  before : Conversation
  step : ConversationStep

namespace ConversationOccurrence

def after (id : SessionId) (occurrence : ConversationOccurrence) : Conversation :=
  occurrence.before.next id occurrence.step

/-- What is put into the backlog of the session. -/
def queued (id : SessionId) (occurrence : ConversationOccurrence) : List BacklogEntry :=
  ((occurrence.after id).service.waiting id).drop (occurrence.before.service.waiting id).length

/-- What the request handled in a step is to be answered with. -/
def answer? (id : SessionId) (occurrence : ConversationOccurrence) : Option Frame :=
  match occurrence.step with
  | .handled order frame => (occurrence.before.service.handle order id frame).2
  | _ => none

/-- The answer whose send is begun in a step. -/
def begun? (occurrence : ConversationOccurrence) : Option Frame :=
  match occurrence.step with
  | .answered _ _ => occurrence.before.toAnswer.join
  | _ => none

/-- What the client reads in a step. -/
def reads (id : SessionId) (occurrence : ConversationOccurrence) : Bytes :=
  match occurrence.step, occurrence.before.service.session? id with
  | .read count, some session => session.reads (.read count)
  | _, _ => []

/-- The session hears of what its own request does, if one is handled in the step. -/
def Echoes (id : SessionId) (occurrence : ConversationOccurrence) : Prop :=
  ∀ order frame, occurrence.step = .handled order frame →
    occurrence.before.service.Echoes order id frame (occurrence.queued id)

end ConversationOccurrence

/-- The conversations of a session from its opening on, with their logs. -/
inductive Converses (id : SessionId) : List ConversationOccurrence → Conversation → Prop where
  | opened {maxBody : Nat} {past : List Occurrence} {service : Service} (capacity : Nat)
      (attended : Bool) (maxEntries : Nat) (run : Runs maxBody past service.offline)
      (isNext : service.nextSession = id)
      (allowed : service.Allows (.opened maxEntries (.pipe { capacity, attended }))) :
      Converses id []
        { service := service.next (.opened maxEntries (.pipe { capacity, attended })) }
  | next {log : List ConversationOccurrence} {conversation : Conversation}
      (before : Converses id log conversation) (step : ConversationStep)
      (allowed : conversation.Allows id step) :
      Converses id (log ++ [⟨conversation, step⟩]) (conversation.next id step)

/-- A frame on its way to the client. -/
inductive Parcel where
  /-- It was in the backlog. -/
  | notice (frame : Frame)
  | answer (frame : Frame)

namespace Parcel

def frame : Parcel → Frame
  | .notice frame => frame
  | .answer frame => frame

/-- The entries that were queued and that the frame stands for. -/
def entries : Parcel → List BacklogEntry
  | .notice frame => frame.entries
  | .answer _ => []

def answer? : Parcel → Option Frame
  | .notice _ => none
  | .answer frame => some frame

/-- What a send has to write. -/
def handed (notices : List Frame) (answer : Option Frame) : List Parcel :=
  notices.map .notice ++ (answer.map .answer).toList

variable (notices : List Frame) (answer : Option Frame)

@[simp] theorem map_frame_handed :
    (handed notices answer).map frame = notices ++ answer.toList := by
  cases answer <;> simp [handed, frame, Function.comp_def]

@[simp] theorem flatMap_entries_handed :
    (handed notices answer).flatMap entries = notices.flatMap Frame.entries := by
  cases answer <;> simp [handed, entries, List.flatMap_map]

@[simp] theorem filterMap_answer?_handed :
    (handed notices answer).filterMap answer? = answer.toList := by
  cases answer <;> simp [handed, answer?, List.filterMap_map, Function.comp_def]

end Parcel

/-- How the parcels come from the steps of a conversation. The answers are taken from the steps that
have the mark. -/
structure Ledger (id : SessionId) (mark : ConversationOccurrence → Option Frame)
    (log : List ConversationOccurrence) (parcels : List Parcel) (waiting : List BacklogEntry)
    (owed : List Frame) : Prop where
  entries : parcels.flatMap Parcel.entries ++ waiting = log.flatMap (·.queued id)
  answers : parcels.filterMap Parcel.answer? ++ owed = log.filterMap mark
  /-- Before an answer leaves, all earlier answers have left, and everything that was queued up to the
  step that has its mark. -/
  preceded : ∀ earlier made later reply, log = earlier ++ made :: later → mark made = some reply →
    parcels.filterMap Parcel.answer? <+: earlier.filterMap mark ∨
      ∃ front back, parcels = front ++ .answer reply :: back ∧
        front.filterMap Parcel.answer? = earlier.filterMap mark ∧
        (earlier ++ [made]).flatMap (·.queued id) <+: front.flatMap Parcel.entries

namespace Ledger

variable {id : SessionId} {mark : ConversationOccurrence → Option Frame}
  {log : List ConversationOccurrence} {parcels : List Parcel} {waiting : List BacklogEntry}
  {owed : List Frame}

theorem new (id : SessionId) (mark : ConversationOccurrence → Option Frame) :
    Ledger id mark [] [] [] [] := ⟨rfl, rfl, by simp⟩

theorem note (ledger : Ledger id mark log parcels waiting owed) (last : ConversationOccurrence) :
    Ledger id mark (log ++ [last]) parcels (waiting ++ last.queued id)
      (owed ++ (mark last).toList) where
  entries := by
    rw [← List.append_assoc, ledger.entries, List.flatMap_append, List.flatMap_singleton]
  answers := by
    rw [← List.append_assoc, ledger.answers, List.filterMap_append]
    cases found : mark last <;> simp [found]
  preceded earlier made later reply split answered := by
    rcases concat_eq_split split with ⟨_, rfl, _⟩ | ⟨rest, _, split⟩
    · left
      rw [← ledger.answers]
      exact List.prefix_append _ _
    · exact ledger.preceded earlier made rest reply split answered

theorem hand {notices : List Frame} {answer : Option Frame}
    (ledger : Ledger id mark log parcels waiting (answer.toList ++ owed))
    (whole : notices.flatMap Frame.entries = waiting) :
    Ledger id mark log (parcels ++ Parcel.handed notices answer) [] owed where
  entries := by
    rw [List.flatMap_append, Parcel.flatMap_entries_handed, whole, List.append_nil]
    exact ledger.entries
  answers := by
    rw [List.filterMap_append, Parcel.filterMap_answer?_handed, List.append_assoc]
    exact ledger.answers
  preceded earlier made later reply split answered := by
    rcases ledger.preceded earlier made later reply split answered with
      unsent | ⟨front, back, sent, before, queued⟩
    · cases answer with
      | none =>
          left
          simpa [List.filterMap_append] using unsent
      | some first =>
          rcases unsent with ⟨gap, upTo⟩
          have answers := ledger.answers
          rw [split, List.filterMap_append, List.filterMap_cons_some answered, ← upTo,
            List.append_assoc] at answers
          have next := List.append_cancel_left answers
          cases gap with
          | nil =>
              right
              cases next
              refine ⟨parcels ++ notices.map .notice, [], by simp [Parcel.handed], ?_, ?_⟩
              · rw [← upTo, List.append_nil, List.filterMap_append]
                simp [List.filterMap_map, Function.comp_def, Parcel.answer?]
              · have queued : (parcels ++ notices.map Parcel.notice).flatMap Parcel.entries =
                    log.flatMap (·.queued id) := by
                  rw [← ledger.entries, ← whole]
                  simp [List.flatMap_map, Parcel.entries]
                rw [queued, split, List.append_cons earlier made later]
                exact ⟨_, List.flatMap_append.symm⟩
          | cons other gap =>
              left
              cases next
              exact ⟨gap, by simpa [List.filterMap_append] using upTo⟩
    · right
      exact ⟨front, back ++ Parcel.handed notices answer, by simp [sent], before, queued⟩

end Ledger

end SharedTree
