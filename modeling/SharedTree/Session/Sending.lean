import SharedTree.Duration
import SharedTree.Session.Basic

/-!
# Sending

A send waits until it has the channel of its session. It then takes everything out of the backlog, adds its
answer, and writes the frames to the transport. A send that the transport does not take at once stays
blocked until the transport has room, its deadline passes, the transport breaks or the session is stopped.
When a send fails in the middle of a frame, the bytes already taken stay taken.

A send that can write although its session has been stopped does one or the other first: it gives up, or it
writes what the transport takes. Nothing determines which. When it has written and is not done, it gives
up as well.
-/

namespace SharedTree

/-- Why a send fails. -/
inductive SendError where
  /-- It was not done within the given number of milliseconds. -/
  | timedOut (allowed : Nat)
  | stopped
  | brokenPipe
  deriving DecidableEq, Repr

/-- The wording of an error. -/
def SendError.message : SendError → String
  | .timedOut allowed => "write timed out after " ++ Duration.text allowed
  | .stopped => "session stopped"
  | .brokenPipe => "transport error: broken pipe"

/-- The one-word name of an error. -/
def SendError.name : SendError → String
  | .timedOut _ => "WriteTimeout"
  | .stopped => "Stopped"
  | .brokenPipe => "Io"

/-- What a send does first that finds its session stopped and could as well write. -/
inductive Choice where
  | giveUp
  | write
  deriving DecidableEq, Repr

/-- How a send stands. -/
inductive SendStatus where
  | done
  | blocked
  | failed (error : SendError)
  deriving DecidableEq, Repr

namespace Session

/-- Writes bytes on behalf of the send that has the channel. -/
def carryOn (session : Session) (send : Send) (bytes : Bytes) : SendStatus × Session :=
  let leave (transport : Transport) (current : Option (Send × Bytes)) : Session :=
    { session with channel := { session.channel with transport, current } }
  if bytes.isEmpty then (.done, leave session.channel.transport none)
  else
    match session.channel.transport.write? bytes with
    | none => (.failed .brokenPipe, leave session.channel.transport none)
    | some (rest, transport) =>
      if rest.isEmpty then (.done, leave transport none)
      else (.blocked, leave transport (some (send, rest)))

/-- Gives the channel to a send. -/
def transmit (session : Session) (send : Send) : SendStatus × Session :=
  let (frames, drained) := session.drain
  drained.carryOn send ((frames ++ send.answer.toList).flatMap Frame.encode)

/-- The sends that are not done. -/
def unfinished (session : Session) : List Send :=
  (session.channel.current.map (·.1)).toList ++ session.channel.waiting

/-- Whether a sender has a send that is not done. -/
def isSending (session : Session) (sender : Sender) : Bool :=
  session.unfinished.any fun send => send.sender = sender

/-- Gives up the send that has the channel. What the transport has taken of it stays taken. -/
def giveUpSend (session : Session) : Session :=
  { session with channel := { session.channel with current := none } }

/-- Whether a send gives up before it writes anything. -/
def declines (session : Session) (choice : Choice) : Bool := session.stopped && choice = .giveUp

/-- What becomes of a send that has written what the transport takes. One that is blocked gives up if the
session has been stopped. -/
def pause : SendStatus × Session → SendStatus × Session
  | (.blocked, session) =>
    if session.stopped then (.failed .stopped, session.giveUpSend) else (.blocked, session)
  | outcome => outcome

/-- Begins a send. It waits for its turn if others are not done. -/
def beginSend (session : Session) (choice : Choice) (send : Send) : SendStatus × Session :=
  if session.declines choice then (.failed .stopped, session)
  else if session.unfinished.isEmpty then pause (session.transmit send)
  else if session.stopped then (.failed .stopped, session)
  else
    (.blocked,
      { session with
        channel := { session.channel with waiting := session.channel.waiting ++ [send] } })

/-- Goes on with the send whose turn it is: the one that has the channel, or else the first that wants
it. -/
def turn (session : Session) (choice : Choice) : SendStatus × Session :=
  match session.channel.current, session.channel.waiting with
  | some (send, bytes), _ =>
    if session.declines choice then (.failed .stopped, session.giveUpSend)
    else pause (session.carryOn send bytes)
  | none, send :: others =>
    let next := { session with channel := { session.channel with waiting := others } }
    if session.declines choice then (.failed .stopped, next) else pause (next.transmit send)
  | none, [] => (.done, session)

/-- Goes on with at most the given number of sends, until one is blocked. The session stops if one
fails. -/
def resumeFor : Nat → Session → Session
  | 0, session => session
  | sends + 1, session =>
    match session.turn .giveUp with
    | (.done, next) => next.resumeFor sends
    | (.blocked, next) => next
    | (.failed _, next) => next.stop

/-- Goes on with the sends after the transport has changed. -/
def resume (session : Session) : Session := session.resumeFor session.unfinished.length

/-- Sends while nobody reads: a send that is blocked ends by its deadline. On a stopped session it writes
first. -/
def sendAlone (session : Session) (answer : Option Frame) (allowed : Nat) :
    Except SendError Unit × Session :=
  match session.beginSend .write { sender := .answering, answer, deadline := allowed } with
  | (.done, next) => (.ok (), next)
  | (.failed error, next) => (.error error, next)
  | (.blocked, next) => (.error (.timedOut allowed), next.giveUpSend)

/-- Sends while nobody reads, and stops the session when the send is done or blocked. -/
def sendThenStop (session : Session) (answer : Option Frame) :
    Except SendError Unit × Session :=
  match session.beginSend .write { sender := .answering, answer, deadline := 0 } with
  | (.done, next) => (.ok (), next.stop)
  | (.failed error, next) => (.error error, next.stop)
  | (.blocked, next) => (.error .stopped, next.giveUpSend.stop)

end Session

end SharedTree
