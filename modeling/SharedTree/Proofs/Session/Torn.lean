import SharedTree.Proofs.Session.Writing

/-!
# Torn frames

A send that is given up may leave a frame half written. The peer can make nothing of what follows
then, so nothing should. That is so for every send that gives up first when it finds its session
stopped. A send that writes first still gets the channel of a stopped session, if it comes late or
if it has waited for its turn, and its bytes follow the torn frame.

`SessionRuns.torn_frames` says what is written in every run of a session, and that nothing follows
a torn frame as long as no send gets the channel after the session was stopped.
-/

namespace SharedTree

/-- A step of a session, with the session before it. -/
structure SessionOccurrence where
  before : Session
  step : SessionStep

namespace SessionOccurrence

def handing? (occurrence : SessionOccurrence) : Option Handing :=
  occurrence.before.handing? occurrence.step

def reads (occurrence : SessionOccurrence) : Bytes := occurrence.before.reads occurrence.step

end SessionOccurrence

/-- The runs of a session whose channel nobody has used. The session stops as soon as a send fails. -/
inductive SessionRuns : List SessionOccurrence → Session → Prop where
  | opened {session : Session} (capacity : Nat) (attended : Bool)
      (unused : session.channel = { transport := .pipe { capacity, attended } })
      (going : session.stopped = false) : SessionRuns [] session
  | next {log : List SessionOccurrence} {session : Session} (before : SessionRuns log session)
      (step : SessionStep) : SessionRuns (log ++ [⟨session, step⟩]) (session.step step)

/-- What sends were handed, in the order in which they got the channel. -/
def handings (log : List SessionOccurrence) : List Handing :=
  log.filterMap SessionOccurrence.handing?

/-- All bytes that were written: what the peer has read and what is in the pipe. -/
def written (log : List SessionOccurrence) (session : Session) : Bytes :=
  log.flatMap SessionOccurrence.reads ++ session.channel.transport.held

/-- Where nothing is handed over late, only the last piece may be cut off. -/
theorem Piece.took_isPrefix {pieces : List Piece}
    (inOrder : pieces.Pairwise fun piece later => piece.left = [] ∨ later.handing.late = true)
    (inTime : ∀ piece ∈ pieces, piece.handing.late = false) :
    pieces.flatMap (·.took) <+: (pieces.map (·.handing)).flatMap Handing.bytes := by
  induction inOrder with
  | nil => exact List.nil_prefix
  | @cons piece others first inOrder ih =>
      simp only [List.map_cons, List.flatMap_cons, piece.whole]
      cases others with
      | nil => simp
      | cons next rest =>
          have taken : piece.left = [] := by
            rcases first next List.mem_cons_self with nothing | late
            · exact nothing
            · rw [inTime next (by simp)] at late
              cases late
          rw [taken, List.append_nil]
          apply (List.prefix_append_right_inj _).mpr
          exact ih fun later mem => inTime later (List.mem_cons_of_mem _ mem)

namespace SessionRuns

variable {log : List SessionOccurrence} {session : Session}

theorem account (run : SessionRuns log session) :
    ∃ pieces, pieces.map (·.handing) = handings log ∧
      Account pieces (log.flatMap SessionOccurrence.reads) session := by
  induction run with
  | opened capacity attended unused going => exact ⟨[], rfl, .opened unused⟩
  | @next log session before step ih =>
      rcases ih with ⟨pieces, handed, account⟩
      rcases account.step step with ⟨later, same, stepped⟩
      refine ⟨later, ?_, by simpa [SessionOccurrence.reads] using stepped⟩
      rw [same, handed, handings, handings, List.filterMap_append]
      rfl

theorem torn_frames (run : SessionRuns log session) :
    (∃ pieces : List Piece, pieces.map (·.handing) = handings log ∧
      written log session = pieces.flatMap (·.took) ∧
      pieces.Pairwise fun piece later => piece.left = [] ∨ later.handing.late = true) ∧
    ((∀ occurrence ∈ log, occurrence.before.stopped = true → occurrence.handing? = none) →
      written log session <+: (handings log).flatMap Handing.bytes) ∧
    (session.stopped = false →
      written log session ++ session.unwritten = (handings log).flatMap Handing.bytes) := by
  rcases run.account with ⟨pieces, handed, account⟩
  refine ⟨⟨pieces, handed, account.written, account.inOrder⟩, ?_, ?_⟩
  · intro inTime
    rw [written, account.written, ← handed]
    apply Piece.took_isPrefix account.inOrder
    intro piece mem
    have inLog : piece.handing ∈ handings log := handed ▸ List.mem_map_of_mem mem
    rcases List.mem_filterMap.mp inLog with ⟨occurrence, isThere, isHanding⟩
    rcases Option.map_eq_some_iff.mp isHanding with ⟨send, _, isSame⟩
    rw [← isSame, ← Bool.not_eq_true]
    intro stopped
    rw [inTime occurrence isThere stopped] at isHanding
    cases isHanding
  · intro going
    rw [written, account.complete going, handed]

theorem torn_frames_given_up :
    ∃ log session, SessionRuns log session ∧ session.stopped = true ∧
      (∀ occurrence ∈ log, occurrence.before.stopped = true → occurrence.handing? = none) ∧
      (handings log).map (·.frames.length) = [2] ∧ (written log session).length = 20 ∧
      written log session <+: (handings log).flatMap Handing.bytes := by
  have run : SessionRuns []
      { id := 1
        backlog := { maxBody := 64, maxEntries := 8 }
        channel := { transport := .pipe { capacity := 20 } } } := .opened 20 false rfl rfl
  have run := run.next (.queued (.update ⟨100, [1]⟩))
  have run := run.next (.queued (.change (.deleted 101)))
  have run := run.next (.called .giveUp ⟨.flushing, none, 10⟩)
  have run := run.next (.called .giveUp ⟨.answering, none, 10⟩)
  have run := run.next .expired
  have run := run.next (.queued (.change (.deleted 102)))
  have run := run.next (.read 20)
  have run := run.next (.turned .giveUp)
  refine ⟨_, _, run, rfl, ?_, rfl, rfl, run.torn_frames.2.1 ?_⟩
  · decide
  · decide

/-- A send waits for the channel of a session while another is given up in the middle of a frame. It
gets the channel although the session is stopped by then, and writes. -/
theorem followed_torn_frame :
    ∃ log torn session, SessionRuns log torn ∧ torn.stopped = true ∧
      (written log torn).length = 20 ∧
      SessionRuns (log ++ [⟨torn, .turned .write⟩]) session ∧
      (written (log ++ [⟨torn, .turned .write⟩]) session).length = 40 ∧
      ¬written (log ++ [⟨torn, .turned .write⟩]) session <+:
        (handings (log ++ [⟨torn, .turned .write⟩])).flatMap Handing.bytes := by
  have run : SessionRuns []
      { id := 1
        backlog := { maxBody := 64, maxEntries := 8 }
        channel := { transport := .pipe { capacity := 20 } } } := .opened 20 false rfl rfl
  have run := run.next (.queued (.update ⟨100, [1]⟩))
  have run := run.next (.called .giveUp ⟨.flushing, none, 10⟩)
  have run := run.next (.queued (.update ⟨100, [2]⟩))
  have run := run.next (.called .giveUp ⟨.answering, none, 10⟩)
  have run := run.next .expired
  have run := run.next (.read 20)
  refine ⟨_, _, _, run, rfl, rfl, run.next (.turned .write), rfl, ?_⟩
  decide

end SessionRuns

end SharedTree
