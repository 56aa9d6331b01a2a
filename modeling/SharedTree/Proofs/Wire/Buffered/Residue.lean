import SharedTree.Proofs.Wire.Assembler.Timeouts
import SharedTree.Proofs.Wire.Buffered.Running

/-!
# What is left of earlier messages

The buffers of an assembler still hold bytes of messages that are over. What two buffered assemblers report
nevertheless depends on the messages under way alone: they report the same of all that follows when
`toAssembler` does not tell them apart. One that rests reports what a fresh one reports, whether its last
message was complete, refused or given up, and meets a fault where that one meets it.
-/

namespace SharedTree

namespace BufferedAssembler

variable {assembler other next last : BufferedAssembler} {read : Read} {reads : List Read}
  {events : List AssemblerEvent}

/-- What is reported of some reads, or the fault that is met. -/
def report (assembler : BufferedAssembler) (reads : List Read) :
    Except BufferFault (List AssemblerEvent) :=
  (assembler.readAll reads).map Prod.snd

theorem report_cons_of_ok (done : assembler.read read = .ok (next, events)) (reads : List Read) :
    assembler.report (read :: reads) = (next.report reads).map (events ++ ·) := by
  simp only [report, readAll, done, bind, Except.bind, pure, Except.pure]
  cases next.readAll reads <;> rfl

theorem report_cons_of_error {fault : BufferFault} (stops : assembler.read read = .error fault)
    (reads : List Read) : assembler.report (read :: reads) = .error fault := by
  simp only [report, readAll, stops, bind, Except.bind]
  rfl

theorem readAll_cons_eq_ok (done : assembler.readAll (read :: reads) = .ok (last, events)) :
    ∃ next now later, assembler.read read = .ok (next, now) ∧
      next.readAll reads = .ok (last, later) := by
  cases first : assembler.read read with
  | error fault => simp [readAll, first, bind, Except.bind] at done
  | ok outcome =>
      rcases outcome with ⟨next, now⟩
      cases others : next.readAll reads with
      | error fault => simp [readAll, first, others, bind, Except.bind] at done
      | ok outcome =>
          rcases outcome with ⟨final, later⟩
          simp only [readAll, first, others, bind, Except.bind, pure, Except.pure, Except.ok.injEq,
            Prod.mk.injEq] at done
          exact ⟨next, now, later, rfl, by rw [others, done.1]⟩

namespace Sound

theorem of_read (sound : assembler.Sound) (done : assembler.read read = .ok (next, events)) :
    next.Sound ∧ next.limits = assembler.limits := by
  have room : read.Idle → ¬assembler.toAssembler.Saturated := by
    intro idle full
    simp [sound.read_of_saturated idle full] at done
  rcases sound.read_advances read room with ⟨reached, now, taken, reachedSound, limits, _, _⟩
  rw [taken, Except.ok.injEq, Prod.mk.injEq] at done
  exact done.1 ▸ ⟨reachedSound, limits⟩

theorem of_readAll (sound : assembler.Sound) (done : assembler.readAll reads = .ok (last, events)) :
    last.Sound ∧ last.limits = assembler.limits := by
  induction reads generalizing assembler events with
  | nil =>
      cases done
      exact ⟨sound, rfl⟩
  | cons read reads ih =>
      rcases readAll_cons_eq_ok done with ⟨next, now, later, first, others⟩
      rcases sound.of_read first with ⟨nextSound, limits⟩
      rcases ih nextSound others with ⟨lastSound, lastLimits⟩
      exact ⟨lastSound, lastLimits.trans limits⟩

/-- Two buffered assemblers report the same if the assembler makes the same of the first read in both. -/
theorem report_cons_congr (sound : assembler.Sound) (otherSound : other.Sound)
    (room : read.Idle → ¬assembler.toAssembler.Saturated)
    (otherRoom : read.Idle → ¬other.toAssembler.Saturated)
    (same : assembler.toAssembler.read read = other.toAssembler.read read)
    (later : ∀ next other : BufferedAssembler, next.Sound → other.Sound →
      next.toAssembler = other.toAssembler → next.report reads = other.report reads) :
    assembler.report (read :: reads) = other.report (read :: reads) := by
  rcases sound.read_advances read room with ⟨next, events, done, nextSound, _, _, made⟩
  rcases otherSound.read_advances read otherRoom with
    ⟨otherNext, otherEvents, otherDone, otherNextSound, _, _, otherMade⟩
  rw [same, otherMade, Prod.mk.injEq] at made
  rcases made with ⟨nextSame, rfl⟩
  rw [report_cons_of_ok done, report_cons_of_ok otherDone,
    later next otherNext nextSound otherNextSound nextSame.symm]

/-- What lies in the buffers besides the message under way shows in no report. -/
theorem report_congr (sound : assembler.Sound) (otherSound : other.Sound)
    (same : assembler.toAssembler = other.toAssembler) (reads : List Read) :
    assembler.report reads = other.report reads := by
  induction reads generalizing assembler other with
  | nil => rfl
  | cons read reads ih =>
      by_cases full : read.Idle ∧ assembler.toAssembler.Saturated
      · rw [report_cons_of_error (sound.read_of_saturated full.1 full.2),
          report_cons_of_error (otherSound.read_of_saturated full.1 (same ▸ full.2))]
      · apply sound.report_cons_congr otherSound (not_and.mp full) (same ▸ not_and.mp full) (by rw [same])
        intro next other nextSound otherSound nextSame
        exact ih nextSound otherSound nextSame

theorem idle_of_atRest (sound : assembler.Sound) (rests : assembler.phase.AtRest)
    (idle : read.Idle) :
    ∃ next, assembler.read read = .ok (next, []) ∧ next.Sound ∧ next.phase.AtRest ∧
      next.limits = assembler.limits := by
  have stageRests : assembler.toAssembler.stage.AtRest := sound.atRest_stage_iff.mpr rests
  rcases sound.read_advances read fun _ full => full.1 stageRests with
    ⟨next, events, done, nextSound, limits, _, made⟩
  rcases Assembler.idle_of_atRest stageRests with ⟨silent, still, _⟩
  rw [Assembler.read_of_idle idle, silent, Prod.mk.injEq] at made
  rcases made with ⟨same, rfl⟩
  have nextRests : next.toAssembler.stage.AtRest := same ▸ still
  exact ⟨next, done, nextSound, nextSound.atRest_stage_iff.mp nextRests, limits⟩

/-- At rest a buffered assembler reports what a fresh one reports. -/
theorem report_of_atRest (sound : assembler.Sound) (rests : assembler.phase.AtRest)
    (reads : List Read) : assembler.report reads = (new assembler.limits).report reads := by
  have fresh := sound_new assembler.limits
  induction reads generalizing assembler with
  | nil => rfl
  | cons read reads ih =>
      by_cases idle : read.Idle
      · rcases sound.idle_of_atRest rests idle with ⟨next, done, nextSound, still, limits⟩
        rcases fresh.idle_of_atRest (.inl rfl) idle with ⟨next', done', nextSound', still', limits'⟩
        rw [report_cons_of_ok done, report_cons_of_ok done', ih nextSound still (sound_new _),
          ih nextSound' still' (sound_new _), limits, limits']
        rfl
      · have same : assembler.toAssembler.read read =
            (new assembler.limits).toAssembler.read read := by
          rw [Assembler.read_of_some idle, Assembler.read_of_some idle,
            Assembler.acceptInto_of_atRest (sound.atRest_stage_iff.mpr rests) idle]
          rfl
        apply sound.report_cons_congr fresh (absurd · idle) (absurd · idle) same
        intro next other nextSound otherSound nextSame
        exact nextSound.report_congr otherSound nextSame reads

end Sound

/-- Whatever came before, an assembler that rests reports of all that follows what a fresh one reports.
So does a buffered assembler, whatever its buffers still hold, up to the fault of a counter that runs out. -/
theorem leaves_no_residue (limits : AssemblerLimits) (earlier later : List Read) :
    ((Assembler.after limits earlier).stage.AtRest →
      ((Assembler.after limits earlier).readAll later).2 =
        ((Assembler.new limits).readAll later).2) ∧
    (∀ assembler events, (new limits).readAll earlier = .ok (assembler, events) →
      assembler.phase.AtRest → assembler.report later = (new limits).report later) := by
  constructor
  · intro rests
    rw [Assembler.readAll_of_atRest rests, (Assembler.keeps_after limits earlier).under]
  · intro assembler events done rests
    rcases (sound_new limits).of_readAll done with ⟨sound, under⟩
    rw [sound.report_of_atRest rests, under]
    rfl

/-- A header that was given up is still in its buffer when the next message comes. -/
theorem leaves_no_residue_stalled :
    ∃ assembler events,
      (new ⟨4, 1⟩).readAll [.delivered [1, 11, 7, 0], .nothing, .nothing] = .ok (assembler, events) ∧
      assembler.phase = .headerTimedOut ∧ assembler.headerBuffer ≠ .blank ∧
      assembler.report [.delivered [2, 10, 0, 0, 0, 5, 0, 0], .nothing, .delivered [0, 7]] =
        .ok [.completed ⟨⟨2, 10, 5⟩, [7]⟩] ∧
      ((Assembler.after ⟨4, 1⟩ [.delivered [1, 11, 7, 0], .nothing, .nothing]).readAll
        [.delivered [2, 10, 0, 0, 0, 5, 0, 0], .nothing, .delivered [0, 7]]).2 =
          [.completed ⟨⟨2, 10, 5⟩, [7]⟩] := by
  have stalled : (new ⟨4, 1⟩).readAll [.delivered [1, 11, 7, 0], .nothing, .nothing] =
      .ok (⟨⟨4, 1⟩, .headerTimedOut, ⟨[1, 11, 7, 0, 0, 0, 0, 0, 0], rfl⟩, 0, none, [], 0, 0⟩,
        [.gaveUp .headerTimeout]) := by
    decide +kernel
  rcases leaves_no_residue ⟨4, 1⟩ [.delivered [1, 11, 7, 0], .nothing, .nothing]
    [.delivered [2, 10, 0, 0, 0, 5, 0, 0], .nothing, .delivered [0, 7]] with ⟨plain, buffered⟩
  refine ⟨_, _, stalled, rfl, by decide, ?_, ?_⟩
  · rw [buffered _ _ stalled (by decide)]
    decide +kernel
  · rw [plain (by decide +kernel)]
    decide +kernel

end BufferedAssembler

end SharedTree
