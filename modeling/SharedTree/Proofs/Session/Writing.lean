import SharedTree.Proofs.Session
import SharedTree.Session.Sending

/-!
# Writing

A session that sends goes through small steps: entries are queued, sends are begun and have their
turns, deadlines come, the peer reads, and the session is told to stop. When a send gets the
channel it is handed the frames that it is to write (`Session.handing?`); from then on the
transport takes their bytes piece by piece.

`Account` says how the bytes that the transport has taken come from what was handed over, and
`Account.step` that every step keeps the account.
-/

namespace SharedTree

namespace Transport

/-- The bytes in a pipe, oldest first. -/
def held : Transport → Bytes
  | .sink => []
  | .pipe line => line.taken ++ line.unread

/-- A pipe whose reader has left nothing unread if it is attentive. -/
def Orderly : Transport → Prop
  | .sink => False
  | .pipe line => line.attended = true → line.unread = []

end Transport

/-- The reader takes the oldest bytes. -/
def Pipe.release (count : Nat) (pipe : Pipe) : Pipe :=
  { pipe with
    taken := pipe.taken.drop count
    unread := pipe.unread.drop (count - pipe.taken.length) }

/-- Something that happens to a session that sends. -/
inductive SessionStep where
  | queued (entry : BacklogEntry)
  /-- A send is begun. -/
  | called (choice : Choice) (send : Send)
  /-- The send goes on whose turn it is. -/
  | turned (choice : Choice)
  /-- The deadline of the send that has the channel has come. -/
  | expired
  /-- A send that waits for the channel is given up. -/
  | withdrawn (place : Nat)
  /-- The peer reads. -/
  | read (count : Nat)
  | stopped

/-- What a send is handed to write when it gets the channel. -/
structure Handing where
  frames : List Frame
  /-- Whether the session had been stopped by then. -/
  late : Bool
  deriving DecidableEq

/-- The bytes that are to be written. -/
def Handing.bytes (handing : Handing) : Bytes := handing.frames.flatMap Frame.encode

theorem flatMap_bytes (handings : List Handing) :
    handings.flatMap Handing.bytes = (handings.flatMap (·.frames)).flatMap Frame.encode :=
  List.flatMap_assoc.symm

namespace Session

/-- What becomes of a session when a send has had its turn. It stops if the send has failed. -/
def conclude : SendStatus × Session → Session
  | (.failed _, session) => session.stop
  | (_, session) => session

@[simp] theorem conclude_failed (error : SendError) (session : Session) :
    conclude (.failed error, session) = session.stop := rfl

@[simp] theorem conclude_blocked (session : Session) : conclude (.blocked, session) = session := rfl

@[simp] theorem conclude_done (session : Session) : conclude (.done, session) = session := rfl

/-- A session after a step. -/
def step (session : Session) : SessionStep → Session
  | .queued entry => session.push entry
  | .called choice send => conclude (session.beginSend choice send)
  | .turned choice => conclude (session.turn choice)
  | .expired => if session.channel.current.isSome then session.giveUpSend.stop else session
  | .withdrawn place =>
    if place < session.channel.waiting.length then
      { session with
        stopped := true
        channel := { session.channel with waiting := session.channel.waiting.eraseIdx place } }
    else session
  | .read count => session.mapLine (·.release count)
  | .stopped => session.stop

/-- The send that a step gives the channel to. -/
def takesUp? (session : Session) : SessionStep → Option Send
  | .called choice send =>
    if session.declines choice || !session.unfinished.isEmpty then none else some send
  | .turned choice =>
    if session.declines choice || session.channel.current.isSome then none
    else session.channel.waiting.head?
  | _ => none

/-- What a step hands to the send that it gives the channel to. -/
def handing? (session : Session) (step : SessionStep) : Option Handing :=
  (session.takesUp? step).map fun send =>
    { frames := session.backlog.frames ++ send.answer.toList, late := session.stopped }

/-- What the peer reads in a step. -/
def reads (session : Session) : SessionStep → Bytes
  | .read count => session.channel.transport.held.take count
  | _ => []

/-- The bytes that the send with the channel has still to write. -/
def unwritten (session : Session) : Bytes := (session.channel.current.map (·.2)).getD []

end Session

/-- What a send was handed, and how much of it the transport has taken. -/
structure Piece where
  handing : Handing
  took : Bytes
  left : Bytes
  whole : handing.bytes = took ++ left

/-- How the bytes that the peer has read and those in the pipe come from what was handed over: from
every handing some bytes were taken. What has not been taken of a handing follows later only if
nothing else is handed over before, or if what is handed over comes late. -/
structure Account (pieces : List Piece) (received : Bytes) (session : Session) : Prop where
  orderly : session.channel.transport.Orderly
  written : received ++ session.channel.transport.held = pieces.flatMap (·.took)
  inOrder : pieces.Pairwise fun piece later => piece.left = [] ∨ later.handing.late = true
  current : ∀ send rest, session.channel.current = some (send, rest) →
    ∃ front last, pieces = front ++ [last] ∧ last.left = rest
  going : session.stopped = false → pieces.flatMap (·.left) = session.unwritten

namespace Transport

variable {transport after : Transport} {bytes rest : Bytes}

theorem write?_spec (orderly : transport.Orderly)
    (written : transport.write? bytes = some (rest, after)) :
    after.Orderly ∧ ∃ took, bytes = took ++ rest ∧ after.held = transport.held ++ took := by
  cases transport with
  | sink => cases orderly
  | pipe line =>
      unfold write? Pipe.write at written
      cases attended : line.attended with
      | true =>
          have nothing : line.unread = [] := orderly attended
          simp only [attended, if_true] at written
          split at written
          · cases written
          · cases written
            exact ⟨fun _ => nothing, bytes, by simp, by simp [held, nothing]⟩
      | false =>
          simp only [attended, Bool.false_eq_true, if_false] at written
          split at written
          · cases written
          · cases written
            refine ⟨?_, bytes.take _, (List.take_append_drop _ _).symm, by simp [held]⟩
            intro nowAttended
            cases nowAttended

theorem release_spec (count : Nat) (orderly : transport.Orderly) :
    (transport.mapPipe (·.release count)).Orderly ∧
      (transport.mapPipe (·.release count)).held = transport.held.drop count := by
  cases transport with
  | sink => cases orderly
  | pipe line =>
      constructor
      · intro attended
        have nothing : line.unread = [] := orderly attended
        simp [Pipe.release, nothing]
      · exact List.drop_append.symm

end Transport

namespace Session

variable {before after session : Session} {status : SendStatus} {send : Send}
  {bytes took left : Bytes}

/-- Of the bytes that a send has to write, the transport takes some, and nothing else changes but
who has the channel. -/
structure Writes (before : Session) (send : Send) (bytes took left : Bytes) (status : SendStatus)
    (after : Session) : Prop where
  whole : bytes = took ++ left
  orderly : after.channel.transport.Orderly
  held : after.channel.transport.held = before.channel.transport.held ++ took
  rest : after = { before with
    channel := { before.channel with
      transport := after.channel.transport
      current := after.channel.current } }
  current : after.channel.current = none ∨ after.channel.current = some (send, left)
  going : (∀ error, status ≠ .failed error) → after.unwritten = left

theorem writes_carryOn (session : Session) (send : Send) (bytes : Bytes)
    (orderly : session.channel.transport.Orderly) :
    ∃ took left, session.Writes send bytes took left (session.carryOn send bytes).1
      (session.carryOn send bytes).2 := by
  unfold carryOn
  dsimp only
  split
  · next nothing =>
    refine ⟨[], [], ?_⟩
    exact ⟨by simpa using nothing, orderly, by simp, rfl, .inl rfl, fun _ => rfl⟩
  · split
    · exact ⟨[], bytes, rfl, orderly, by simp, rfl, .inl rfl,
        fun unfailed => absurd rfl (unfailed _)⟩
    · next rest transport written =>
      rcases Transport.write?_spec orderly written with ⟨stillOrderly, took, whole, held⟩
      split
      · next done =>
        refine ⟨took, rest, whole, stillOrderly, held, rfl, .inl rfl, fun _ => ?_⟩
        exact (List.isEmpty_iff.mp done).symm
      · exact ⟨took, rest, whole, stillOrderly, held, rfl, .inr rfl, fun _ => rfl⟩

theorem Writes.pause (writes : before.Writes send bytes took left status after) :
    before.Writes send bytes took left (pause (status, after)).1 (pause (status, after)).2 := by
  cases status with
  | done => exact writes
  | failed error => exact writes
  | blocked =>
      unfold Session.pause
      dsimp only
      split
      · refine ⟨writes.whole, writes.orderly, writes.held, ?_, .inl rfl,
          fun unfailed => absurd rfl (unfailed _)⟩
        rw [writes.rest]
        rfl
      · exact writes

/-! ## Who waits for the channel -/

/-- What a send does to a session that goes on: sends get the channel in the order in which they
were begun, and the one that gets it takes everything out of the backlog. -/
structure Proceeds (before : Session) (begun : List Send) (taken : Option Send) (after : Session) :
    Prop where
  going : before.stopped = false
  queue : before.channel.waiting ++ begun = taken.toList ++ after.channel.waiting
  backlog : after.backlog = if taken.isSome then before.backlog.clear else before.backlog
  rest : after = { before with backlog := after.backlog, channel := after.channel }

theorem conclude_of_going {outcome : SendStatus × Session}
    (going : (conclude outcome).stopped = false) :
    conclude outcome = outcome.2 ∧ ∀ error, outcome.1 ≠ .failed error := by
  rcases outcome with ⟨status, session⟩
  cases status with
  | done => exact ⟨rfl, nofun⟩
  | blocked => exact ⟨rfl, nofun⟩
  | failed error => cases going

/-- Going on with a send changes nothing but the transport and who has the channel. -/
theorem pause_carryOn (session : Session) (send : Send) (bytes : Bytes) :
    ∃ transport current, (pause (session.carryOn send bytes)).2 =
      { session with channel := { session.channel with transport, current } } := by
  have carried : ∃ transport current, (session.carryOn send bytes).2 =
      { session with channel := { session.channel with transport, current } } := by
    unfold carryOn
    dsimp only
    split
    · exact ⟨_, _, rfl⟩
    · split
      · exact ⟨_, _, rfl⟩
      · split <;> exact ⟨_, _, rfl⟩
  generalize session.carryOn send bytes = outcome at carried ⊢
  rcases outcome with ⟨status, after⟩
  rcases carried with ⟨transport, current, same⟩
  cases (same : after = _)
  cases status with
  | blocked =>
      unfold pause
      dsimp only
      split <;> exact ⟨_, _, rfl⟩
  | done => exact ⟨_, _, rfl⟩
  | failed error => exact ⟨_, _, rfl⟩

theorem proceeds_transmit {begun waiting : List Send}
    (queue : session.channel.waiting ++ begun = send :: waiting)
    (going : (conclude (pause (({ session with
      channel := { session.channel with waiting } } : Session).transmit send))).stopped = false) :
    session.Proceeds begun (some send) (conclude (pause (({ session with
      channel := { session.channel with waiting } } : Session).transmit send))) := by
  have unfailed := (conclude_of_going going).1
  rw [unfailed] at going ⊢
  rcases pause_carryOn
    { session with
      backlog := session.backlog.clear
      channel := { session.channel with waiting } } send
    ((session.backlog.frames ++ send.answer.toList).flatMap Frame.encode) with
    ⟨transport, current, after⟩
  change (pause (({ session with
    channel := { session.channel with waiting } } : Session).transmit send)).2 = _ at after
  rw [after] at going ⊢
  exact ⟨going, queue, rfl, rfl⟩

theorem proceeds_called {choice : Choice}
    (going : (conclude (session.beginSend choice send)).stopped = false) :
    session.Proceeds [send] (session.takesUp? (.called choice send))
      (conclude (session.beginSend choice send)) := by
  have taken : session.takesUp? (.called choice send) =
      if session.declines choice || !session.unfinished.isEmpty then none else some send := rfl
  rw [taken]
  unfold beginSend at going ⊢
  cases declines : session.declines choice with
  | true =>
      rw [if_pos declines] at going
      cases going
  | false =>
      simp only [declines, Bool.false_eq_true, if_false, Bool.false_or] at going ⊢
      cases first : session.unfinished.isEmpty with
      | true =>
          have alone : session.channel.waiting = [] := by
            rw [List.isEmpty_iff, unfinished] at first
            exact (List.append_eq_nil_iff.mp first).2
          simp only [first, if_true] at going ⊢
          exact proceeds_transmit (by rw [alone]; rfl) going
      | false =>
          simp only [first, Bool.false_eq_true, if_false] at going ⊢
          cases stopped : session.stopped with
          | true =>
              rw [if_pos stopped] at going
              cases going
          | false =>
              simp only [Bool.false_eq_true, if_false]
              exact ⟨stopped, rfl, rfl, by simp [stopped]⟩

theorem proceeds_turned {choice : Choice} (going : (conclude (session.turn choice)).stopped = false) :
    session.Proceeds [] (session.takesUp? (.turned choice)) (conclude (session.turn choice)) := by
  have taken : session.takesUp? (.turned choice) =
      if session.declines choice || session.channel.current.isSome then none
      else session.channel.waiting.head? := rfl
  rw [taken]
  unfold turn at going ⊢
  cases current : session.channel.current with
  | some holder =>
      rcases holder with ⟨holder, bytes⟩
      cases declines : session.declines choice with
      | true =>
          simp only [current, declines, if_true] at going
          cases going
      | false =>
          simp only [current, declines, Bool.false_eq_true, if_false] at going ⊢
          have unfailed := (conclude_of_going going).1
          rw [unfailed] at going ⊢
          rcases session.pause_carryOn holder bytes with ⟨transport, next, after⟩
          rw [after] at going ⊢
          exact ⟨going, List.append_nil _, rfl, rfl⟩
  | none =>
      cases waiting : session.channel.waiting with
      | nil =>
          simp only [current, waiting] at going ⊢
          refine ⟨going, ?_, ?_, rfl⟩
          · simp [waiting]
          · simp
      | cons send others =>
          cases declines : session.declines choice with
          | true =>
              simp only [current, waiting, declines, if_true] at going
              cases going
          | false =>
              simp only [current, waiting, declines, Bool.false_eq_true, if_false] at going ⊢
              exact proceeds_transmit (by rw [waiting]; exact List.append_nil _) going

theorem proceeds_read {count : Nat} (going : (session.step (.read count)).stopped = false) :
    session.Proceeds [] (session.takesUp? (.read count)) (session.step (.read count)) :=
  ⟨going, List.append_nil _, rfl, rfl⟩

/-! ## What stays -/

theorem conclude_rest {outcome : SendStatus × Session}
    (rest : ∃ backlog channel, outcome.2 = { session with backlog, channel }) :
    ∃ backlog channel stopped, conclude outcome = { session with backlog, channel, stopped } := by
  rcases outcome with ⟨status, after⟩
  rcases rest with ⟨backlog, channel, same⟩
  cases (same : after = _)
  cases status <;> exact ⟨_, _, _, rfl⟩

theorem transmit_rest (session : Session) (send : Send) :
    ∃ backlog channel, (pause (session.transmit send)).2 = { session with backlog, channel } := by
  rcases pause_carryOn session.drain.2 send
    ((session.backlog.frames ++ send.answer.toList).flatMap Frame.encode) with ⟨_, _, after⟩
  exact ⟨_, _, after⟩

/-- A step changes nothing but the backlog, the channel and whether the session has stopped. -/
theorem step_rest (session : Session) (step : SessionStep) :
    ∃ backlog channel stopped, session.step step = { session with backlog, channel, stopped } := by
  cases step with
  | queued entry =>
      change ∃ backlog channel stopped, session.push entry = _
      rcases session.push_cases entry with ⟨_, same⟩ | ⟨_, _, same⟩ | ⟨_, _, same⟩ <;> rw [same]
      · exact ⟨_, _, _, rfl⟩
      · exact ⟨_, _, _, rfl⟩
      · exact ⟨_, _, _, rfl⟩
  | called choice send =>
      apply conclude_rest
      unfold beginSend
      split
      · exact ⟨_, _, rfl⟩
      · split
        · exact session.transmit_rest send
        · split <;> exact ⟨_, _, rfl⟩
  | turned choice =>
      apply conclude_rest
      unfold turn
      split
      · next holder bytes _ =>
        split
        · exact ⟨_, _, rfl⟩
        · rcases session.pause_carryOn holder bytes with ⟨_, _, after⟩
          exact ⟨_, _, after⟩
      · next send others _ _ =>
        split
        · exact ⟨_, _, rfl⟩
        · exact ({ session with channel := { session.channel with waiting := others } } :
            Session).transmit_rest send
      · exact ⟨_, _, rfl⟩
  | expired =>
      unfold Session.step
      dsimp only
      split <;> exact ⟨_, _, _, rfl⟩
  | withdrawn place =>
      unfold Session.step
      dsimp only
      split <;> exact ⟨_, _, _, rfl⟩
  | read count => exact ⟨_, _, _, rfl⟩
  | stopped => exact ⟨_, _, _, rfl⟩

end Session

namespace Account

open Session (conclude)

variable {pieces : List Piece} {received : Bytes} {before after session : Session} {send : Send}
  {status : SendStatus} {bytes took left : Bytes}

theorem opened {capacity : Nat} {attended : Bool}
    (unused : session.channel = { transport := .pipe { capacity, attended } }) :
    Account [] [] session := by
  refine ⟨?_, ?_, .nil, ?_, ?_⟩
  · rw [unused]
    exact fun _ => rfl
  · rw [unused]
    rfl
  · rw [unused]
    nofun
  · rw [Session.unwritten, unused]
    exact fun _ => rfl

/-- Only the channel counts, and whether the session goes on. -/
theorem of_same (account : Account pieces received before)
    (transport : after.channel.transport = before.channel.transport)
    (current : after.channel.current = before.channel.current)
    (stays : before.stopped = true → after.stopped = true) : Account pieces received after := by
  refine ⟨?_, ?_, account.inOrder, ?_, ?_⟩
  · rw [transport]
    exact account.orderly
  · rw [transport]
    exact account.written
  · rw [current]
    exact account.current
  · intro going
    have wasGoing : before.stopped = false := by
      rw [← Bool.not_eq_true]
      intro stopped
      rw [stays stopped] at going
      cases going
    rw [account.going wasGoing, Session.unwritten, Session.unwritten, current]

theorem stop (account : Account pieces received session) : Account pieces received session.stop :=
  account.of_same rfl rfl fun _ => rfl

theorem giveUp (account : Account pieces received session) :
    Account pieces received session.giveUpSend.stop :=
  ⟨account.orderly, account.written, account.inOrder, nofun, nofun⟩

/-- Nothing is left of what was handed over while the session goes on and nobody has the channel. -/
theorem left_eq_nil (account : Account pieces received session)
    (free : session.channel.current = none) (going : session.stopped = false) :
    ∀ piece ∈ pieces, piece.left = [] := by
  have nothing : pieces.flatMap (·.left) = [] := by
    rw [account.going going, Session.unwritten, free]
    rfl
  exact List.flatMap_eq_nil_iff.mp nothing

/-- A send has written some of the last piece, and everything before was taken. -/
theorem of_writes {front : List Piece} {last : Piece}
    (writes : before.Writes send bytes took left status after) (isLeft : last.left = left)
    (taken : received ++ before.channel.transport.held ++ took = (front ++ [last]).flatMap (·.took))
    (inOrder : (front ++ [last]).Pairwise fun piece later =>
      piece.left = [] ∨ later.handing.late = true)
    (earlier : before.stopped = false → ∀ piece ∈ front, piece.left = []) :
    Account (front ++ [last]) received (conclude (status, after)) := by
  have written : received ++ after.channel.transport.held = (front ++ [last]).flatMap (·.took) := by
    rw [writes.held, ← List.append_assoc, taken]
  have current : ∀ send rest, after.channel.current = some (send, rest) →
      ∃ others final, front ++ [last] = others ++ [final] ∧ final.left = rest := by
    intro holder rest isCurrent
    refine ⟨front, last, rfl, ?_⟩
    rcases writes.current with free | held
    · rw [free] at isCurrent
      cases isCurrent
    · rw [held] at isCurrent
      cases isCurrent
      exact isLeft
  have going : (∀ error, status ≠ .failed error) → after.stopped = false →
      (front ++ [last]).flatMap (·.left) = after.unwritten := by
    intro unfailed going
    have wasGoing : before.stopped = false := by
      rw [writes.rest] at going
      exact going
    rw [writes.going unfailed, List.flatMap_append,
      List.flatMap_eq_nil_iff.mpr (earlier wasGoing)]
    simp [isLeft]
  cases status with
  | done => exact ⟨writes.orderly, written, inOrder, current, going nofun⟩
  | blocked => exact ⟨writes.orderly, written, inOrder, current, going nofun⟩
  | failed error => exact ⟨writes.orderly, written, inOrder, current, nofun⟩

theorem takeUp (account : Account pieces received before) (free : before.channel.current = none)
    (handing : Handing) (late : handing.late = before.stopped)
    (writes : before.Writes send handing.bytes took left status after) :
    Account (pieces ++ [⟨handing, took, left, writes.whole⟩]) received
      (conclude (status, after)) := by
  apply of_writes writes
  · rfl
  · rw [account.written]
    simp
  · refine List.pairwise_append.mpr ⟨account.inOrder, List.pairwise_singleton _ _, ?_⟩
    intro piece mem last isLast
    cases List.mem_singleton.mp isLast
    cases stopped : before.stopped with
    | true => exact .inr (late.trans stopped)
    | false => exact .inl (account.left_eq_nil free stopped piece mem)
  · exact account.left_eq_nil free

theorem carryOn (account : Account pieces received before)
    (current : before.channel.current = some (send, bytes))
    (writes : before.Writes send bytes took left status after) :
    ∃ later, later.map (·.handing) = pieces.map (·.handing) ∧
      Account later received (conclude (status, after)) := by
  rcases account.current send bytes current with ⟨front, last, rfl, isLeft⟩
  have whole : last.handing.bytes = (last.took ++ took) ++ left := by
    rw [last.whole, isLeft, writes.whole, List.append_assoc]
  refine ⟨front ++ [⟨last.handing, last.took ++ took, left, whole⟩], by simp, ?_⟩
  have inOrder := List.pairwise_append.mp account.inOrder
  apply of_writes writes
  · rfl
  · rw [account.written]
    simp
  · refine List.pairwise_append.mpr ⟨inOrder.1, List.pairwise_singleton _ _, ?_⟩
    intro piece mem final isFinal
    cases List.mem_singleton.mp isFinal
    exact inOrder.2.2 piece mem last (List.mem_singleton_self _)
  · intro going piece mem
    have left := account.going going
    rw [Session.unwritten, current, List.flatMap_append] at left
    simp only [List.flatMap_singleton, isLeft, Option.map_some, Option.getD_some] at left
    exact List.flatMap_eq_nil_iff.mp (List.append_left_eq_self.mp left) piece mem

/-- The channel is given to a send, whatever has happened to those that wait. -/
theorem transmit (account : Account pieces received session)
    (free : session.channel.current = none) (waiting : List Send) (send : Send) :
    ∃ later, later.map (·.handing) = pieces.map (·.handing) ++
        [{ frames := session.backlog.frames ++ send.answer.toList, late := session.stopped }] ∧
      Account later received (conclude (Session.pause
        (({ session with channel := { session.channel with waiting } } : Session).transmit
          send))) := by
  have prepared : Account pieces received
      { session with
        backlog := session.backlog.clear
        channel := { session.channel with waiting } } :=
    account.of_same rfl rfl id
  rcases Session.writes_carryOn
      { session with
        backlog := session.backlog.clear
        channel := { session.channel with waiting } } send
      ((session.backlog.frames ++ send.answer.toList).flatMap Frame.encode)
      prepared.orderly with ⟨took, left, writes⟩
  refine ⟨_, ?_, prepared.takeUp free ⟨_, session.stopped⟩ rfl writes.pause⟩
  simp

theorem beginSend (account : Account pieces received session) (choice : Choice) (send : Send) :
    ∃ later, later.map (·.handing) = pieces.map (·.handing) ++
        (session.handing? (.called choice send)).toList ∧
      Account later received (conclude (session.beginSend choice send)) := by
  cases declines : session.declines choice with
  | true =>
      refine ⟨pieces, by simp [Session.handing?, Session.takesUp?, declines], ?_⟩
      rw [Session.beginSend, if_pos declines]
      exact account.stop
  | false =>
      cases first : session.unfinished.isEmpty with
      | true =>
          have free : session.channel.current = none := by
            cases isCurrent : session.channel.current with
            | none => rfl
            | some holder => simp [Session.unfinished, isCurrent] at first
          simpa [Session.beginSend, Session.handing?, Session.takesUp?, declines, first] using
            account.transmit free session.channel.waiting send
      | false =>
          refine ⟨pieces, by simp [Session.handing?, Session.takesUp?, first], ?_⟩
          simp only [Session.beginSend, declines, first, Bool.false_eq_true, if_false]
          split
          · exact account.stop
          · exact account.of_same rfl rfl id

theorem turn (account : Account pieces received session) (choice : Choice) :
    ∃ later, later.map (·.handing) = pieces.map (·.handing) ++
        (session.handing? (.turned choice)).toList ∧
      Account later received (conclude (session.turn choice)) := by
  cases current : session.channel.current with
  | some holder =>
      rcases holder with ⟨holder, bytes⟩
      have nothing : session.handing? (.turned choice) = none := by
        simp [Session.handing?, Session.takesUp?, current]
      rw [nothing]
      cases declines : session.declines choice with
      | true =>
          refine ⟨pieces, by simp, ?_⟩
          simpa [Session.turn, current, declines] using account.giveUp
      | false =>
          rcases Session.writes_carryOn session holder bytes account.orderly with
            ⟨took, left, writes⟩
          rcases account.carryOn current writes.pause with ⟨later, same, continued⟩
          exact ⟨later, by simp [same], by simpa [Session.turn, current, declines] using continued⟩
  | none =>
      cases waiting : session.channel.waiting with
      | nil =>
          refine ⟨pieces, by simp [Session.handing?, Session.takesUp?, waiting], ?_⟩
          simpa [Session.turn, current, waiting] using account
      | cons send others =>
          cases declines : session.declines choice with
          | true =>
              refine ⟨pieces, by simp [Session.handing?, Session.takesUp?, declines], ?_⟩
              simp only [Session.turn, current, waiting, declines, if_true]
              exact account.of_same rfl current.symm fun _ => rfl
          | false =>
              simpa [Session.turn, Session.handing?, Session.takesUp?, current, waiting, declines]
                using account.transmit current others send

theorem step (account : Account pieces received session) (step : SessionStep) :
    ∃ later, later.map (·.handing) = pieces.map (·.handing) ++ (session.handing? step).toList ∧
      Account later (received ++ session.reads step) (session.step step) := by
  have kept {step : SessionStep} (silent : session.takesUp? step = none)
      (unread : session.reads step = []) (same : Account pieces received (session.step step)) :
      ∃ later, later.map (·.handing) = pieces.map (·.handing) ++ (session.handing? step).toList ∧
        Account later (received ++ session.reads step) (session.step step) :=
    ⟨pieces, by simp [Session.handing?, silent], by rwa [unread, List.append_nil]⟩
  cases step with
  | queued entry =>
      apply kept rfl rfl
      change Account pieces received (session.push entry)
      rcases session.push_cases entry with ⟨_, same⟩ | ⟨_, _, same⟩ | ⟨_, _, same⟩
      · rw [same]
        exact account
      · rw [same]
        exact account.stop
      · rw [same]
        exact account.of_same rfl rfl id
  | called choice send =>
      have unread : session.reads (.called choice send) = [] := rfl
      rw [unread, List.append_nil]
      exact account.beginSend choice send
  | turned choice =>
      have unread : session.reads (.turned choice) = [] := rfl
      rw [unread, List.append_nil]
      exact account.turn choice
  | expired =>
      apply kept rfl rfl
      unfold Session.step
      dsimp only
      split
      · exact account.giveUp
      · exact account
  | withdrawn place =>
      apply kept rfl rfl
      unfold Session.step
      dsimp only
      split
      · exact account.of_same rfl rfl fun _ => rfl
      · exact account
  | read count =>
      rcases Transport.release_spec count account.orderly with ⟨orderly, held⟩
      refine ⟨pieces, by simp [Session.handing?, Session.takesUp?], orderly, ?_, account.inOrder,
        account.current, account.going⟩
      rw [← account.written, List.append_assoc]
      congr 1
      exact (congrArg (_ ++ ·) held).trans (List.take_append_drop count _)
  | stopped => exact kept rfl rfl account.stop

/-- While the session goes on, what was handed over has been taken or is still to be written. -/
theorem complete (account : Account pieces received session) (going : session.stopped = false) :
    received ++ session.channel.transport.held ++ session.unwritten =
      (pieces.map (·.handing)).flatMap Handing.bytes := by
  have whole (piece : Piece) (taken : piece.left = []) : piece.handing.bytes = piece.took := by
    rw [piece.whole, taken, List.append_nil]
  rw [account.written]
  cases current : session.channel.current with
  | none =>
      have taken := account.left_eq_nil current going
      rw [Session.unwritten, current, List.flatMap_map]
      simpa using List.flatMap_congr fun piece mem => (whole piece (taken piece mem)).symm
  | some holder =>
      rcases account.current holder.1 holder.2 current with ⟨front, last, rfl, isLeft⟩
      have left := account.going going
      rw [Session.unwritten, current, List.flatMap_append] at left
      simp only [List.flatMap_singleton, isLeft, Option.map_some, Option.getD_some] at left
      have taken := List.flatMap_eq_nil_iff.mp (List.append_left_eq_self.mp left)
      have earlier : front.flatMap (·.took) = front.flatMap fun piece => piece.handing.bytes :=
        List.flatMap_congr fun piece mem => (whole piece (taken piece mem)).symm
      simp [Session.unwritten, current, List.flatMap_map, earlier, last.whole, isLeft]

end Account

end SharedTree
