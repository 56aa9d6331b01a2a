import SharedTree.Proofs.Session.Writing

/-!
# Sessions that only answer

As long as its client does not hang up and nobody tells it to stop, a session that sends nothing
but answers goes on: its sends are done or blocked, but never fail. It has at most one send at a
time, and that has the channel.
-/

namespace SharedTree

namespace Transport

variable {transport : Transport}

/-- The reader has not hung up. -/
def Intact : Transport → Prop
  | .sink => True
  | .pipe line => line.broken = false

/-- The reader is not attentive, and nothing more fits. -/
def Full : Transport → Prop
  | .sink => False
  | .pipe line => line.attended = false ∧ line.capacity ≤ line.unread.length

theorem write?_intact (intact : transport.Intact) (bytes : Bytes) :
    ∃ rest after, transport.write? bytes = some (rest, after) ∧ after.Intact ∧
      (rest ≠ [] → after.Full) := by
  cases transport with
  | sink => exact ⟨_, _, rfl, trivial, fun some => absurd rfl some⟩
  | pipe line =>
      have unbroken : line.broken = false := intact
      have stays : (line.write bytes).2.broken = line.broken := by
        unfold Pipe.write
        split <;> rfl
      refine ⟨(line.write bytes).1, .pipe (line.write bytes).2, ?_, stays.trans unbroken, ?_⟩
      · rw [write?, unbroken]
        rfl
      · unfold Pipe.write
        split
        · exact fun some => absurd rfl some
        · next unattended =>
          intro some
          have long : line.capacity - line.unread.length < bytes.length := by
            simpa [List.drop_eq_nil_iff] using some
          refine ⟨by simpa using unattended, ?_⟩
          simp only [List.length_append, List.length_take]
          omega

theorem intact_release (intact : transport.Intact) (count : Nat) :
    (transport.mapPipe (·.release count)).Intact := by
  cases transport with
  | sink => trivial
  | pipe line => exact intact

end Transport

namespace Session

/-- The session goes on, and nothing but an answer is being sent. -/
structure Flows (session : Session) : Prop where
  going : session.stopped = false
  alone : session.channel.waiting = []
  answering : ∀ send rest, session.channel.current = some (send, rest) → send.sender = .answering
  intact : session.channel.transport.Intact

/-- Nothing but a full transport blocks a send. -/
def Smooth (session : Session) : Prop :=
  session.channel.current ≠ none → session.channel.transport.Full

variable {session : Session} {send : Send}

theorem flows_carryOn (going : session.stopped = false) (alone : session.channel.waiting = [])
    (intact : session.channel.transport.Intact) (answers : send.sender = .answering)
    (bytes : Bytes) :
    (conclude (pause (session.carryOn send bytes))).Flows ∧
      (conclude (pause (session.carryOn send bytes))).Smooth := by
  unfold carryOn
  dsimp only
  split
  · exact ⟨⟨going, alone, nofun, intact⟩, fun blocked => absurd rfl blocked⟩
  · rcases Transport.write?_intact intact bytes with ⟨rest, after, written, stillIntact, full⟩
    rw [written]
    dsimp only
    split
    · exact ⟨⟨going, alone, nofun, stillIntact⟩, fun blocked => absurd rfl blocked⟩
    · next unfinished =>
      simp only [pause, going, Bool.false_eq_true, if_false, conclude_blocked]
      refine ⟨⟨rfl, alone, ?_, stillIntact⟩, fun _ => full fun done => unfinished (by simp [done])⟩
      rintro other left ⟨rfl⟩
      exact answers

namespace Flows

theorem of_same {after : Session} (flows : session.Flows) (going : after.stopped = false)
    (channel : after.channel = session.channel) : after.Flows := by
  refine ⟨going, ?_, ?_, ?_⟩ <;> rw [channel]
  · exact flows.alone
  · exact flows.answering
  · exact flows.intact

variable (flows : session.Flows)

include flows

theorem isSending_answering : session.isSending .answering = session.channel.current.isSome := by
  unfold isSending unfinished
  rw [flows.alone]
  cases current : session.channel.current with
  | none => rfl
  | some holder => simp [flows.answering holder.1 holder.2 current]

theorem unfinished_of_free (free : session.channel.current = none) : session.unfinished = [] := by
  rw [unfinished, free, flows.alone]
  rfl

theorem takesUp?_called (free : session.channel.current = none) (choice : Choice) (send : Send) :
    session.takesUp? (.called choice send) = some send := by
  simp [takesUp?, declines, flows.going, flows.unfinished_of_free free]

theorem takesUp?_turned (choice : Choice) : session.takesUp? (.turned choice) = none := by
  simp [takesUp?, flows.alone]

theorem called (free : session.channel.current = none) (choice : Choice)
    (answers : send.sender = .answering) :
    (session.step (.called choice send)).Flows ∧ (session.step (.called choice send)).Smooth := by
  have begins : session.beginSend choice send = pause (session.transmit send) := by
    simp [beginSend, declines, flows.going, flows.unfinished_of_free free]
  rw [step, begins]
  exact session.drain.2.flows_carryOn flows.going flows.alone flows.intact answers _

/-- A session that begins an answer gives away all of its backlog. -/
theorem called_rest (free : session.channel.current = none) (choice : Choice)
    (answers : send.sender = .answering) :
    ∃ channel, session.step (.called choice send) =
      { session with backlog := session.backlog.clear, channel } := by
  have proceeds := proceeds_called (flows.called free choice answers).1.going
  have cleared := proceeds.backlog
  rw [flows.takesUp?_called free] at cleared
  exact ⟨_, proceeds.rest.trans (by rw [cleared]; rfl)⟩

theorem turned (choice : Choice) :
    (session.step (.turned choice)).Flows ∧ (session.step (.turned choice)).Smooth := by
  rw [step]
  cases current : session.channel.current with
  | none =>
      have unchanged : session.turn choice = (.done, session) := by
        simp [turn, current, flows.alone]
      rw [unchanged]
      exact ⟨flows, fun blocked => absurd current blocked⟩
  | some holder =>
      rcases holder with ⟨holder, bytes⟩
      have goesOn : session.turn choice = pause (session.carryOn holder bytes) := by
        simp [turn, current, declines, flows.going]
      rw [goesOn]
      exact flows_carryOn flows.going flows.alone flows.intact (flows.answering _ _ current) bytes

theorem read (count : Nat) : (session.step (.read count)).Flows :=
  ⟨flows.going, flows.alone, flows.answering, Transport.intact_release flows.intact count⟩

/-- Going on with the sends is one turn. -/
theorem resume_eq : session.resume = session.step (.turned .giveUp) := by
  unfold resume unfinished
  rw [flows.alone, List.append_nil]
  cases current : session.channel.current with
  | none => simp [resumeFor, step, turn, current, flows.alone]
  | some holder =>
      change session.resumeFor 1 = conclude (session.turn .giveUp)
      rw [resumeFor]
      rcases session.turn .giveUp with ⟨_ | _ | _, next⟩ <;> rfl

end Flows

end Session

end SharedTree
