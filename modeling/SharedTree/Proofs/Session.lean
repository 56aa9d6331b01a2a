import SharedTree.Proofs.Backlog
import SharedTree.Proofs.Table
import SharedTree.Session.Basic

/-!
# Putting things into backlogs

Whatever is sent to a session without its asking is pushed into its backlog. This file
says what a sequence of pushes does: as long as the session goes on, all entries are in
the backlog, in order; once it stops, the backlog stays as it is. Pushes change nothing
else of a session.
-/

namespace SharedTree

namespace Session

/-- Puts entries into the backlog one after the other. -/
def pushAll (entries : List BacklogEntry) (session : Session) : Session :=
  entries.foldl (fun session entry => session.push entry) session

/-- What a session becomes when entries are pushed into its backlog, whatever else happens to it. -/
structure Pushed (before after : Session) (entries : List BacklogEntry) : Prop where
  id : after.id = before.id
  listed : after.listed = true → before.listed = true
  signedIn : before.signedIn = true → after.signedIn = true
  kept : ∃ kept, kept.Sublist entries ∧ after.backlog.entries = before.backlog.entries ++ kept
  going : after.stopped = false →
    before.stopped = false ∧ after.backlog.entries = before.backlog.entries ++ entries

variable {before middle after session : Session} {entries later : List BacklogEntry}

theorem push_cases (entry : BacklogEntry) (session : Session) :
    (session.stopped = true ∧ session.push entry = session) ∨
      (session.stopped = false ∧ session.backlog.maxEntries ≤ session.backlog.size ∧
        session.push entry = session.stop) ∨
      (session.stopped = false ∧ session.backlog.size < session.backlog.maxEntries ∧
        session.push entry = { session with
          backlog := { session.backlog with entries := session.backlog.entries ++ [entry] } }) := by
  unfold push Backlog.push?
  by_cases stopped : session.stopped = true
  · simp [stopped]
  · by_cases full : session.backlog.maxEntries ≤ session.backlog.size
    · simp [stopped, full]
    · simp [stopped, full, Nat.lt_of_not_le full]

@[simp] theorem id_push (entry : BacklogEntry) (session : Session) :
    (session.push entry).id = session.id := by
  rcases session.push_cases entry with ⟨_, same⟩ | ⟨_, _, same⟩ | ⟨_, _, same⟩ <;>
    simp [same, stop]

@[simp] theorem listed_push (entry : BacklogEntry) (session : Session) :
    (session.push entry).listed = session.listed := by
  rcases session.push_cases entry with ⟨_, same⟩ | ⟨_, _, same⟩ | ⟨_, _, same⟩ <;>
    simp [same, stop]

@[simp] theorem signedIn_push (entry : BacklogEntry) (session : Session) :
    (session.push entry).signedIn = session.signedIn := by
  rcases session.push_cases entry with ⟨_, same⟩ | ⟨_, _, same⟩ | ⟨_, _, same⟩ <;>
    simp [same, stop]

@[simp] theorem pending_push (entry : BacklogEntry) (session : Session) :
    (session.push entry).pending = session.pending := by
  rcases session.push_cases entry with ⟨_, same⟩ | ⟨_, _, same⟩ | ⟨_, _, same⟩ <;>
    simp [same, stop]

namespace Pushed

theorem refl (session : Session) : session.Pushed session [] :=
  ⟨rfl, fun listed => listed, fun signedIn => signedIn, ⟨[], .slnil, by simp⟩,
    fun going => ⟨going, by simp⟩⟩

theorem trans (first : before.Pushed middle entries) (second : middle.Pushed after later) :
    before.Pushed after (entries ++ later) := by
  refine ⟨second.id.trans first.id, fun listed => first.listed (second.listed listed),
    fun signedIn => second.signedIn (first.signedIn signedIn), ?_, ?_⟩
  · rcases first.kept with ⟨firstKept, firstSub, middleEntries⟩
    rcases second.kept with ⟨secondKept, secondSub, afterEntries⟩
    exact ⟨firstKept ++ secondKept, firstSub.append secondSub,
      by rw [afterEntries, middleEntries, List.append_assoc]⟩
  · intro going
    rcases second.going going with ⟨middleGoing, afterEntries⟩
    rcases first.going middleGoing with ⟨beforeGoing, middleEntries⟩
    exact ⟨beforeGoing, by rw [afterEntries, middleEntries, List.append_assoc]⟩

theorem push (entry : BacklogEntry) (session : Session) :
    session.Pushed (session.push entry) [entry] := by
  refine ⟨session.id_push entry, fun listed => by rwa [listed_push] at listed,
    fun signedIn => by rwa [signedIn_push], ?_, ?_⟩
  · rcases session.push_cases entry with ⟨_, same⟩ | ⟨_, _, same⟩ | ⟨_, _, same⟩
    · exact ⟨[], List.nil_sublist _, by rw [same, List.append_nil]⟩
    · exact ⟨[], List.nil_sublist _, by rw [same, List.append_nil]; rfl⟩
    · exact ⟨[entry], .refl _, by rw [same]⟩
  · intro going
    rcases session.push_cases entry with ⟨stopped, same⟩ | ⟨_, _, same⟩ | ⟨wasGoing, _, same⟩
    · rw [same, stopped] at going
      cases going
    · rw [same] at going
      cases going
    · exact ⟨wasGoing, by rw [same]⟩

theorem pushAll (entries : List BacklogEntry) (session : Session) :
    session.Pushed (session.pushAll entries) entries := by
  induction entries generalizing session with
  | nil => exact .refl session
  | cons entry entries ih => exact (Pushed.push entry session).trans (ih (session.push entry))

/-- A change of a session that its backlog takes no part in. -/
theorem of_same (id : after.id = before.id) (listed : after.listed = true → before.listed = true)
    (signedIn : before.signedIn = true → after.signedIn = true)
    (stopped : after.stopped = false → before.stopped = false)
    (backlog : after.backlog = before.backlog) : before.Pushed after [] :=
  ⟨id, listed, signedIn, ⟨[], .refl _, by rw [backlog, List.append_nil]⟩,
    fun going => ⟨stopped going, by rw [backlog, List.append_nil]⟩⟩

theorem signIn (refreshRate : UInt32) (features : FeatureFlags) (session : Session) :
    session.Pushed (session.signIn refreshRate features) [] :=
  .of_same rfl (fun listed => listed) (fun _ => rfl) (fun going => going) rfl

theorem withPending (pending : Table TransactionId PendingCall) (session : Session) :
    session.Pushed { session with pending } [] :=
  .of_same rfl (fun listed => listed) (fun signedIn => signedIn) (fun going => going) rfl

theorem addCall (transaction : TransactionId) (call : PendingCall) (session : Session) :
    session.Pushed (session.addCall transaction call).2 [] :=
  .withPending _ session

theorem stop (session : Session) : session.Pushed session.stop [] :=
  .of_same rfl (fun listed => listed) (fun signedIn => signedIn) (fun going => nomatch going) rfl

theorem unlist (session : Session) : session.Pushed { session with listed := false } [] :=
  .of_same rfl (fun listed => nomatch listed) (fun signedIn => signedIn) (fun going => going) rfl

theorem mem_of_mem (pushed : before.Pushed after entries) {entry : BacklogEntry}
    (mem : entry ∈ after.backlog.entries) : entry ∈ before.backlog.entries ∨ entry ∈ entries := by
  rcases pushed.kept with ⟨kept, sub, same⟩
  rw [same] at mem
  exact (List.mem_append.mp mem).imp_right fun inKept => sub.subset inKept

end Pushed

@[simp] theorem pending_pushAll (entries : List BacklogEntry) (session : Session) :
    (session.pushAll entries).pending = session.pending := by
  induction entries generalizing session with
  | nil => rfl
  | cons entry entries ih => exact (ih (session.push entry)).trans (session.pending_push entry)

/-- Nothing gets into the backlog of a session that has stopped. -/
theorem pushAll_of_stopped (session : Session) (stopped : session.stopped = true)
    (entries : List BacklogEntry) : session.pushAll entries = session := by
  have idle (entry : BacklogEntry) : session.push entry = session := by
    simp [push, stopped]
  induction entries with
  | nil => rfl
  | cons entry entries ih =>
      have whole : session.pushAll (entry :: entries) = (session.push entry).pushAll entries := rfl
      rw [whole, idle, ih]

theorem pushAll_append (entries later : List BacklogEntry) (session : Session) :
    session.pushAll (entries ++ later) = (session.pushAll entries).pushAll later :=
  List.foldl_append

/-! ## What is pushed -/

theorem notify_snd (update : ValueUpdate) (session : Session) :
    (session.notify update).2 = session.push (.update update) := by
  unfold notify
  split
  · next stopped => simp [push, stopped]
  · rfl

/-- The answer to a call as it is put into the backlog, if a frame can hold it. -/
def answerEntries (transaction : TransactionId) (returnValue : Bytes) : List BacklogEntry :=
  ((Frame.ofMessage (.rpcResponse returnValue) transaction).toOption.map .frame).toList

theorem pushAnswer_eq (transaction : TransactionId) (returnValue : Bytes) (session : Session) :
    session.pushAnswer transaction returnValue =
      session.pushAll (answerEntries transaction returnValue) := by
  unfold pushAnswer answerEntries
  cases Frame.ofMessage (.rpcResponse returnValue) transaction <;> rfl

theorem foldl_pushAnswer (calls : List (TransactionId × PendingCall)) (session : Session) :
    calls.foldl (fun session call => session.pushAnswer call.1 []) session =
      session.pushAll (calls.flatMap fun call => answerEntries call.1 []) := by
  induction calls generalizing session with
  | nil => rfl
  | cons call calls ih =>
      rw [List.foldl_cons, List.flatMap_cons, pushAll_append, ← pushAnswer_eq]
      exact ih _

theorem abandonCalls_snd (order : VisitOrder) (handler : SessionId) (session : Session) :
    (session.abandonCalls order handler).2 =
      ({ session with pending := session.pending.filter fun _ call =>
          call.handler ≠ some handler } : Session).pushAll
        ((session.callsTo order handler).flatMap fun call => answerEntries call.1 []) :=
  foldl_pushAnswer _ _

/-- The calls that a handler is to answer are the same in every order. -/
theorem callsTo_perm (session : Session) (order : VisitOrder) (handler : SessionId) :
    (session.callsTo order handler).Perm
      (session.pending.entries.filter fun entry => entry.2.handler = some handler) :=
  (order.perm _).filter _

/-! ## Relations that steps of the service keep -/

/-- A relation that holds between a session before and after all that happens to it, except signing
in and leaving the list, as long as only allowed entries are pushed. -/
structure Kept (allowed : BacklogEntry → Prop) (relation : Session → Session → Prop) : Prop where
  refl : ∀ session, relation session session
  trans : ∀ before middle after, relation before middle → relation middle after →
    relation before after
  push : ∀ entry session, allowed entry → relation session (session.push entry)
  withPending : ∀ pending session, relation session { session with pending }
  stop : ∀ session, relation session session.stop

namespace Kept

variable {allowed : BacklogEntry → Prop} {relation : Session → Session → Prop}

theorem pushAll (kept : Kept allowed relation) (allows : ∀ entry ∈ entries, allowed entry)
    (session : Session) : relation session (session.pushAll entries) := by
  induction entries generalizing session with
  | nil => exact kept.refl session
  | cons entry entries ih =>
      exact kept.trans _ _ _ (kept.push entry session (allows entry (by simp)))
        (ih (fun other mem => allows other (List.mem_cons_of_mem _ mem)) _)

theorem pushAnswer (kept : Kept allowed relation) {transaction : TransactionId}
    {returnValue : Bytes} (allows : ∀ entry ∈ answerEntries transaction returnValue, allowed entry)
    (session : Session) : relation session (session.pushAnswer transaction returnValue) := by
  rw [pushAnswer_eq]
  exact kept.pushAll allows session

theorem abandonCalls (kept : Kept allowed relation)
    (allows : ∀ transaction, ∀ entry ∈ answerEntries transaction [], allowed entry)
    (order : VisitOrder) (handler : SessionId) (session : Session) :
    relation session (session.abandonCalls order handler).2 := by
  rw [abandonCalls_snd]
  refine kept.trans _ _ _ (kept.withPending _ session) (kept.pushAll ?_ _)
  intro entry isAnswer
  rcases List.mem_flatMap.mp isAnswer with ⟨call, _, isAnswer⟩
  exact allows _ entry isAnswer

end Kept

/-- A relation that is kept when updates and answers to calls are pushed. -/
structure Closed (allowed : BacklogEntry → Prop) (relation : Session → Session → Prop) : Prop
    extends Kept allowed relation where
  update : ∀ update, allowed (.update update)
  answer : ∀ transaction returnValue, ∀ entry ∈ answerEntries transaction returnValue, allowed entry

namespace Closed

variable {allowed : BacklogEntry → Prop} {relation : Session → Session → Prop}

theorem pushUpdates (closed : Closed allowed relation)
    (updates : ∀ entry ∈ entries, ∃ update, entry = .update update) (session : Session) :
    relation session (session.pushAll entries) := by
  refine closed.pushAll ?_ session
  intro entry mem
  rcases updates entry mem with ⟨update, rfl⟩
  exact closed.update update

end Closed

/-- What a session becomes when only allowed entries are pushed into its backlog. -/
def Served (allowed : BacklogEntry → Prop) (before after : Session) : Prop :=
  ∃ entries, before.Pushed after entries ∧ ∀ entry ∈ entries, allowed entry

namespace Served

variable {allowed : BacklogEntry → Prop}

theorem of_same (pushed : before.Pushed after []) : before.Served allowed after :=
  ⟨[], pushed, by simp⟩

theorem trans (first : before.Served allowed middle) (second : middle.Served allowed after) :
    before.Served allowed after := by
  rcases first with ⟨entries, first, allows⟩
  rcases second with ⟨more, second, moreAllowed⟩
  refine ⟨entries ++ more, first.trans second, ?_⟩
  intro entry mem
  exact (List.mem_append.mp mem).elim (allows entry) (moreAllowed entry)

theorem imp {wider : BacklogEntry → Prop} (served : before.Served allowed after)
    (allows : ∀ entry, allowed entry → wider entry) : before.Served wider after := by
  rcases served with ⟨entries, pushed, each⟩
  exact ⟨entries, pushed, fun entry mem => allows entry (each entry mem)⟩

theorem push {entry : BacklogEntry} (allows : allowed entry) (session : Session) :
    session.Served allowed (session.push entry) :=
  ⟨[entry], .push entry session, by simpa using allows⟩

theorem kept (allowed : BacklogEntry → Prop) : Kept allowed (Served allowed) where
  refl session := of_same (.refl session)
  trans _ _ _ := trans
  push _ session allows := push allows session
  withPending pending session := of_same (.withPending pending session)
  stop session := of_same (.stop session)

theorem signIn (allowed : BacklogEntry → Prop) (refreshRate : UInt32) (features : FeatureFlags)
    (session : Session) : session.Served allowed (session.signIn refreshRate features) :=
  of_same (.signIn refreshRate features session)

theorem unlist (allowed : BacklogEntry → Prop) (session : Session) :
    session.Served allowed { session with listed := false } :=
  of_same (.unlist session)

end Served

theorem frame_of_mem_answerEntries {transaction : TransactionId} {returnValue : Bytes}
    {entry : BacklogEntry} (isAnswer : entry ∈ answerEntries transaction returnValue) :
    ∃ frame, Frame.ofMessage (.rpcResponse returnValue) transaction = .ok frame ∧
      entry = .frame frame := by
  simp only [answerEntries, Option.mem_toList, Option.map_eq_some_iff] at isAnswer
  rcases isAnswer with ⟨frame, made, rfl⟩
  exact ⟨frame, Frame.ofMessage_of_toOption made, rfl⟩

/-- Announcements, updates, calls and answers to calls: all that is sent without asking. -/
def Regular : BacklogEntry → Prop
  | .frame frame => frame.header.kind = .ok .handleRpcRequest ∨ frame.header.kind = .ok .rpcResponse
  | _ => True

theorem Regular.answer {transaction : TransactionId} {returnValue : Bytes} {entry : BacklogEntry}
    (isAnswer : entry ∈ answerEntries transaction returnValue) : Regular entry := by
  rcases frame_of_mem_answerEntries isAnswer with ⟨frame, made, rfl⟩
  exact Or.inr (Frame.kind_ofMessage made)

/-- The changes that wait to be announced. -/
def changes (session : Session) : List TreeChange :=
  session.backlog.entries.filterMap BacklogEntry.change?

theorem changes_of_pushed (pushed : before.Pushed after entries) (going : after.stopped = false) :
    after.changes = before.changes ++ entries.filterMap BacklogEntry.change? := by
  rw [changes, (pushed.going going).2, List.filterMap_append]
  rfl

/-- What a session becomes when it neither signs in nor hears an announcement. -/
structure Unannounced (before after : Session) : Prop where
  signedIn : after.signedIn = before.signedIn
  going : after.stopped = false → before.stopped = false ∧ after.changes = before.changes

namespace Unannounced

theorem of_same (signedIn : after.signedIn = before.signedIn)
    (pushed : before.Pushed after []) : before.Unannounced after := by
  refine ⟨signedIn, fun going => ⟨(pushed.going going).1, ?_⟩⟩
  rw [changes_of_pushed pushed going]
  simp

theorem closed : Closed (fun entry => entry.change? = none) Unannounced where
  update _ := rfl
  answer _ _ entry isAnswer := by
    rcases frame_of_mem_answerEntries isAnswer with ⟨frame, _, rfl⟩
    rfl
  refl session := of_same rfl (.refl session)
  trans _ _ _ first second := by
    refine ⟨second.signedIn.trans first.signedIn, fun going => ?_⟩
    have middle := second.going going
    have before := first.going middle.1
    exact ⟨before.1, middle.2.trans before.2⟩
  push entry session noChange := by
    refine ⟨signedIn_push entry session, fun going => ?_⟩
    have pushed := Pushed.push entry session
    refine ⟨(pushed.going going).1, ?_⟩
    rw [changes_of_pushed pushed going]
    simp [noChange]
  withPending pending session := of_same rfl (.withPending pending session)
  stop session := of_same rfl (.stop session)

theorem unlist (session : Session) : session.Unannounced { session with listed := false } :=
  of_same rfl (.unlist session)

end Unannounced

/-! ## How much is pushed -/

/-- How many more entries find room in the backlog. -/
def room (session : Session) : Nat := session.backlog.maxEntries - session.backlog.size

/-- A session takes as many entries as find room, and stops if there are more. -/
theorem pushAll_of_going (entries : List BacklogEntry) (going : session.stopped = false) :
    (session.pushAll entries).backlog =
        { session.backlog with
          entries := session.backlog.entries ++ entries.take session.room } ∧
      ((session.pushAll entries).stopped = true ↔ session.room < entries.length) := by
  induction entries generalizing session with
  | nil => simp [pushAll, going]
  | cons entry entries ih =>
      have whole : session.pushAll (entry :: entries) = (session.push entry).pushAll entries := rfl
      rw [whole]
      rcases session.push_cases entry with ⟨stopped, _⟩ | ⟨_, full, same⟩ | ⟨_, free, same⟩
      · rw [going] at stopped
        cases stopped
      · have noRoom : session.room = 0 := Nat.sub_eq_zero_of_le full
        rw [same, pushAll_of_stopped session.stop rfl, noRoom]
        simp [stop]
      · have goesOn : (session.push entry).stopped = false := by rw [same, going]
        have less : session.room = (session.push entry).room + 1 := by
          rw [same]
          simp only [room, Backlog.size, List.length_append, List.length_singleton] at free ⊢
          omega
        rcases ih goesOn with ⟨backlog, stops⟩
        refine ⟨?_, ?_⟩
        · rw [backlog, less, List.take_succ_cons, same]
          simp
        · rw [stops, less, List.length_cons, Nat.add_lt_add_iff_right]

theorem push_withPending (pending : Table TransactionId PendingCall) (entry : BacklogEntry)
    (session : Session) :
    ({ session with pending } : Session).push entry =
      { session.push entry with pending := pending } := by
  unfold push
  dsimp only
  split
  · rfl
  · cases session.backlog.push? entry <;> rfl

theorem pushAll_withPending (pending : Table TransactionId PendingCall)
    (entries : List BacklogEntry) (session : Session) :
    ({ session with pending } : Session).pushAll entries =
      { session.pushAll entries with pending := pending } := by
  induction entries generalizing session with
  | nil => rfl
  | cons entry entries ih => exact (congrArg (pushAll entries) (push_withPending _ _ _)).trans (ih _)

/-- What a session becomes when entries are pushed into its backlog, and its backlog changes in no
other way. -/
structure Receives (before : Session) (entries : List BacklogEntry) (after : Session) : Prop where
  backlog : after.backlog = (before.pushAll entries).backlog
  stopped : after.stopped = (before.pushAll entries).stopped

namespace Receives

theorem nothing (session : Session) : session.Receives [] session := ⟨rfl, rfl⟩

theorem push (entry : BacklogEntry) (session : Session) :
    session.Receives [entry] (session.push entry) := ⟨rfl, rfl⟩

theorem withPending (pending : Table TransactionId PendingCall) (entries : List BacklogEntry)
    (session : Session) :
    session.Receives entries (({ session with pending } : Session).pushAll entries) := by
  rw [pushAll_withPending]
  exact ⟨rfl, rfl⟩

end Receives

theorem Regular.notifies_eq_false {frame : Frame} (regular : Regular (.frame frame)) :
    frame.notifies = false := by
  rcases regular with isCall | isAnswer
  · simp [Frame.notifies, isCall]
  · simp [Frame.notifies, isAnswer]

theorem Regular.entries_eq {frame : Frame} (regular : Regular (.frame frame)) :
    frame.entries = [.frame frame] :=
  Frame.entries_of_not_notifies regular.notifies_eq_false

end Session

end SharedTree
