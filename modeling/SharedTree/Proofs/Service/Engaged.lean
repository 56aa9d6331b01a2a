import SharedTree.Proofs.Service.Serving
import SharedTree.Proofs.Session.Flowing

/-!
# Sessions at work

A session that has served messages has been handed exactly what `Service.serveAll` says, and has made
of the service what that says. Its channel may block it at any time, and then it goes on later;
this makes no difference to what it is handed.
-/

namespace SharedTree

/-- Whether a message was given up. -/
def AssemblerEvent.isGivenUp : AssemblerEvent → Bool
  | .completed _ => false
  | .gaveUp _ => true

namespace Service

variable {service : Service} {id : SessionId} {session : Session}

/-- For the service, to begin an answer is to empty the backlog. -/
theorem offline_called {send : Send} (found : service.session? id = some session)
    (flows : session.Flows) (free : session.channel.current = none)
    (isAnswer : send.sender = .answering) :
    (service.modifySession id (·.step (.called .giveUp send))).offline =
      (service.drain id).2.offline := by
  rcases flows.called_rest free .giveUp isAnswer with ⟨channel, rest⟩
  rw [drain, found]
  apply offline_modifySession_congr found
  rw [rest]
  rfl

/-- A session has served messages, and its client has received the given bytes. -/
structure Engaged (opened : Service) (id : SessionId) (handled : List AssemblerEvent)
    (received : Bytes) (service : Service) (session : Session) : Prop where
  run : ∃ maxBody log, Runs maxBody log service.offline
  found : service.session? id = some session
  listed : session.listed = true
  flows : session.Flows
  drained : session.backlog.entries = []
  room : 1 ≤ session.backlog.maxEntries
  store : service.offline = (opened.serveAll id handled).2
  errors : session.framingErrors = handled.countP AssemblerEvent.isGivenUp
  announced : opened.AnnouncesAll id handled
  written : ∃ pieces, (pieces.map (·.handing)).flatMap (·.frames) = (opened.serveAll id handled).1 ∧
    Account pieces received session

namespace Engaged

variable {opened : Service} {handled : List AssemblerEvent} {received : Bytes}

theorem start {maxBody maxEntries : Nat} {log : List Occurrence} (capacity : Nat)
    (attended : Bool) (run : Runs maxBody log service.offline) (room : 1 ≤ maxEntries)
    (allowed : service.Allows (.opened maxEntries .sink)) :
    Engaged (service.offline.openSession maxEntries .sink).2 service.nextSession [] []
      (service.openSession maxEntries (.pipe { capacity, attended })).2
      { id := service.nextSession
        backlog := { maxBody := service.maxBody, maxEntries }
        channel := { transport := .pipe { capacity, attended } } } where
  run := by
    rw [offline_openSession]
    exact ⟨maxBody, _, run.next (.opened maxEntries .sink) allowed⟩
  found := (session?_openSession service maxEntries _ _).trans (if_pos rfl)
  listed := rfl
  flows := ⟨rfl, rfl, nofun, rfl⟩
  drained := rfl
  room := room
  store := offline_openSession service maxEntries _
  errors := rfl
  announced := by simp [AnnouncesAll]
  written := ⟨[], rfl, .opened rfl⟩

/-- A step that gives no send the channel. -/
theorem step {step : SessionStep} {begun : List Send}
    (engaged : Engaged opened id handled received service session)
    (flows : (session.step step).Flows) (silent : session.takesUp? step = none)
    (proceeds : session.Proceeds begun none (session.step step)) :
    Engaged opened id handled (received ++ session.reads step)
      (service.modifySession id (·.step step)) (session.step step) := by
  have rest : session.step step = { session with channel := (session.step step).channel } := by
    rw [proceeds.rest, proceeds.backlog]
    rfl
  have same : (session.step step).offline = session.offline := by
    rw [rest]
    rfl
  have unseen : (service.modifySession id (·.step step)).offline = service.offline :=
    offline_modifySession_of_same engaged.found same
  rcases engaged.written with ⟨pieces, handed, account⟩
  rcases account.step step with ⟨later, handings, account⟩
  rw [Session.handing?, silent, Option.map_none, Option.toList_none, List.append_nil] at handings
  refine ⟨unseen ▸ engaged.run, ?_, ?_, flows, ?_, ?_, unseen.trans engaged.store, ?_,
    engaged.announced, later, ?_, account⟩
  · rw [session?_modifySession, if_pos rfl, engaged.found, Option.map_some]
  · rw [rest]
    exact engaged.listed
  · rw [rest]
    exact engaged.drained
  · rw [rest]
    exact engaged.room
  · rw [rest]
    exact engaged.errors
  · rw [handings]
    exact handed

theorem gaveUp (engaged : Engaged opened id handled received service session)
    (error : FramingError) :
    Engaged opened id (handled ++ [.gaveUp error]) received
      (service.modifySession id fun session =>
        { session with framingErrors := session.framingErrors + 1 })
      { session with framingErrors := session.framingErrors + 1 } := by
  have unseen : (service.modifySession id fun session =>
      { session with framingErrors := session.framingErrors + 1 }).offline = service.offline :=
    offline_modifySession_of_same engaged.found rfl
  rcases engaged.written with ⟨pieces, handed, account⟩
  refine ⟨unseen ▸ engaged.run, ?_, engaged.listed,
    engaged.flows.of_same engaged.flows.going rfl, engaged.drained, engaged.room, ?_, ?_, ?_, pieces,
    ?_, account.of_same rfl rfl fun stopped => stopped⟩
  · rw [session?_modifySession, if_pos rfl, engaged.found, Option.map_some]
  · rw [unseen, serveAll_gaveUp]
    exact engaged.store
  · rw [List.countP_append, ← engaged.errors]
    rfl
  · exact engaged.announced.concat nofun
  · rw [serveAll_gaveUp]
    exact handed

theorem announces (engaged : Engaged opened id handled received service session) (frame : Frame) :
    (opened.serveAll id handled).2.Announces id frame := by
  rcases engaged.run with ⟨maxBody, log, run⟩
  have found : service.offline.session? id = some session.offline := by
    rw [session?_offline, engaged.found, Option.map_some]
  rw [← engaged.store]
  exact run.coherent.announces run.attended found engaged.listed engaged.flows.going
    engaged.drained engaged.room frame

/-- A frame is handled and answered. -/
theorem completed (engaged : Engaged opened id handled received service session)
    (free : session.channel.current = none) (frame : Frame) {send : Send}
    (isAnswer : send.sender = .answering)
    (answers : send.answer = (service.handle .stored id frame).2) :
    ∃ later, Engaged opened id (handled ++ [.completed frame]) received
      ((service.handle .stored id frame).1.modifySession id (·.step (.called .giveUp send)))
      later ∧ later.Smooth := by
  rcases engaged.run with ⟨maxBody, log, run⟩
  rcases run.coherent.of_offline.heard_handle run.attended engaged.found engaged.flows.going
    engaged.drained engaged.room .stored frame with
    ⟨heard, heardFound, going, ⟨channel, listed, errors, _, _, _⟩, maxEntries⟩
  have served := serve_offline service id frame
  have handledRun := run.next (.frame .stored id frame) trivial
  simp only [Service.next, offline_handle] at handledRun
  rw [← answers] at served
  generalize (service.handle .stored id frame).1 = after at heardFound served handledRun ⊢
  have heardFree : heard.channel.current = none := by rw [channel, free]
  have flows : heard.Flows := engaged.flows.of_same going channel
  have answered := flows.called heardFree .giveUp isAnswer
  rcases flows.called_rest heardFree .giveUp isAnswer with ⟨_, rest⟩
  have sent := offline_called heardFound flows heardFree isAnswer
  have drainedRun := handledRun.next (.drained id) trivial
  rw [Service.next, offline_drain, ← sent] at drainedRun
  have all := serveAll_completed opened id handled frame
  rw [← engaged.store, served] at all
  rcases engaged.written with ⟨pieces, handed, account⟩
  have heardAccount : Account pieces received heard :=
    account.of_same (by rw [channel]) (by rw [channel]) fun stopped =>
      absurd stopped (Bool.eq_false_iff.mp engaged.flows.going)
  rcases heardAccount.step (.called .giveUp send) with ⟨later, handings, written⟩
  rw [Session.handing?, flows.takesUp?_called heardFree] at handings
  rw [show heard.reads (.called .giveUp send) = [] from rfl, List.append_nil] at written
  refine ⟨heard.step (.called .giveUp send), ⟨⟨maxBody, _, drainedRun⟩, ?_, ?_, answered.1, ?_, ?_,
    ?_, ?_, ?_, later, ?_, written⟩, answered.2⟩
  · rw [session?_modifySession, if_pos rfl, heardFound, Option.map_some]
  · rw [rest]
    exact listed.trans engaged.listed
  · rw [rest]
    rfl
  · rw [rest]
    exact engaged.room.trans_eq maxEntries.symm
  · rw [all, sent]
  · rw [rest, List.countP_append]
    exact errors.trans engaged.errors
  · exact engaged.announced.concat fun other _ => engaged.announces other
  · rw [handings, all, List.flatMap_append, handed, drain, heardFound]
    simp [Session.drain]

/-- What the client has received, what is on its way and what is still to be written is what
serving alone makes. -/
theorem bytes (engaged : Engaged opened id handled received service session) :
    received ++ session.channel.transport.held ++ session.unwritten =
      (opened.serveAll id handled).1.flatMap Frame.encode := by
  rcases engaged.written with ⟨pieces, handed, account⟩
  rw [account.complete engaged.flows.going, flatMap_bytes, handed]

end Engaged

end Service

end SharedTree
