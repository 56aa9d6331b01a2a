import SharedTree.Proofs.Wire.Assembler.Resting
import SharedTree.Proofs.Wire.Buffered.Rounds

/-!
# Running a buffered assembler

An idle read meets a fault only if the counter of idle reads is full; no other read meets one at all. The
main result, `BufferedAssembler.runs_soundly`, puts the reads of a connection together: as long as the
counter is not to count to its end, there is no fault, the fields stay sound, every frame has the length
that its header says, and all that is reported is what `Assembler` reports.
-/

namespace SharedTree

/-- A counter of 32 bits cannot count one more idle read of the message under way. -/
def Assembler.Saturated (assembler : Assembler) : Prop :=
  ¬assembler.stage.AtRest ∧ UInt32.size ≤ assembler.idleReads + 1

namespace BufferedAssembler

variable {assembler : BufferedAssembler} {input : Bytes}

namespace Sound

theorem atRest_stage_iff (sound : assembler.Sound) :
    assembler.stage.AtRest ↔ assembler.phase.AtRest := by
  cases phase : assembler.phase with
  | start | headerTimedOut | bodyTimedOut | inHeader =>
      simp [stage, phase, AssemblerStage.AtRest, AssemblerPhase.AtRest, AssemblerPhase.TimedOut]
  | beforeBody | inBody =>
      have ofBody : assembler.phase.OfBody := by simp [AssemblerPhase.OfBody, phase]
      rcases sound.exists_stage_body ofBody with ⟨header, _, stage⟩
      simp [stage, AssemblerStage.AtRest, AssemblerPhase.AtRest, AssemblerPhase.TimedOut]

theorem awake_spec (sound : assembler.Sound) :
    assembler.awake.Sound ∧ ¬assembler.awake.phase.TimedOut ∧
      assembler.awake.limits = assembler.limits := by
  unfold awake
  by_cases timedOut : assembler.phase.TimedOut
  · rw [if_pos timedOut]
    exact ⟨sound_clear assembler, by simp [clear, AssemblerPhase.TimedOut], rfl⟩
  · rw [if_neg timedOut]
    exact ⟨sound, timedOut, rfl⟩

/-- Leaving the phase of a message that was given up changes nothing for bytes. -/
theorem acceptInto_awake (sound : assembler.Sound) (some : input ≠ [])
    (newestFirst : List AssemblerEvent) :
    assembler.awake.toAssembler.acceptInto newestFirst input =
      assembler.toAssembler.acceptInto newestFirst input := by
  unfold awake
  by_cases timedOut : assembler.phase.TimedOut
  · have rests : assembler.toAssembler.stage.AtRest := sound.atRest_stage_iff.mpr (.inr timedOut)
    rw [if_pos timedOut, Assembler.acceptInto_of_atRest rests some]
    rfl
  · rw [if_neg timedOut]

/-! ## Idle reads -/

/-- While a message is under way, an idle read is counted or is the end of the message, in the header
and in the body alike. -/
theorem idle_advances_of_busy (sound : assembler.Sound) (busy : ¬assembler.phase.AtRest)
    (timedOut : AssemblerPhase) (error : FramingError) (ends : timedOut.TimedOut)
    (buffered : assembler.idle =
      if assembler.idleReads + 1 ≤ assembler.limits.maxIdleReads then
        .ok ({ assembler with idleReads := assembler.idleReads + 1 }, none)
      else .ok ({ assembler.clear with phase := timedOut }, some error))
    (plain : assembler.toAssembler.idle =
      if assembler.idleReads < assembler.limits.maxIdleReads then
        ({ assembler.toAssembler with idleReads := assembler.idleReads + 1 }, none)
      else ({ assembler.clear with phase := timedOut : BufferedAssembler }.toAssembler, some error)) :
    ∃ next error, assembler.idle = .ok (next, error) ∧ next.Sound ∧
      next.limits = assembler.limits ∧
      assembler.toAssembler.idle = (next.toAssembler, error) := by
  rw [buffered, plain]
  by_cases patient : assembler.idleReads + 1 ≤ assembler.limits.maxIdleReads
  · rw [if_pos patient, if_pos (Nat.lt_of_succ_le patient)]
    exact ⟨_, _, rfl, { sound with
      idleReads_le := patient
      idleReads_atRest := fun rests => absurd rests busy }, rfl, rfl⟩
  · rw [if_neg patient, if_neg (fun less => patient (Nat.succ_le_of_lt less))]
    exact ⟨_, _, rfl, sound_of_timedOut assembler ends, rfl, rfl⟩

theorem idle_advances (sound : assembler.Sound) (room : ¬assembler.toAssembler.Saturated) :
    ∃ next error, assembler.idle = .ok (next, error) ∧ next.Sound ∧
      next.limits = assembler.limits ∧
      assembler.toAssembler.idle = (next.toAssembler, error) := by
  have fits (busy : ¬assembler.phase.AtRest) : ¬UInt32.size ≤ assembler.idleReads + 1 :=
    fun full => room ⟨fun rests => busy (sound.atRest_stage_iff.mp rests), full⟩
  cases phase : assembler.phase with
  | start =>
      refine ⟨assembler, none, by simp [idle, phase], sound, rfl, ?_⟩
      simp [Assembler.idle, toAssembler, stage, phase]
  | headerTimedOut | bodyTimedOut =>
      refine ⟨assembler.clear, none, by simp [idle, phase], sound_clear assembler, rfl, ?_⟩
      simp [Assembler.idle, toAssembler, stage, phase, clear, Assembler.goTo]
  | inHeader =>
      have busy : ¬assembler.phase.AtRest := by
        simp [phase, AssemblerPhase.AtRest, AssemblerPhase.TimedOut]
      refine sound.idle_advances_of_busy busy .headerTimedOut .headerTimeout (.inl rfl) ?_ ?_
      · simp only [idle, phase, fits busy, if_false, if_true]
      · have begun : assembler.toAssembler.stage =
            .header assembler.received := by
          simp only [toAssembler, stage, phase]
        simp only [Assembler.idle, begun]
        rfl
  | beforeBody | inBody =>
      have ofBody : assembler.phase.OfBody := by simp [AssemblerPhase.OfBody, phase]
      have busy := ofBody.not_atRest
      rcases sound.exists_stage_body ofBody with ⟨header, _, stage⟩
      refine sound.idle_advances_of_busy busy .bodyTimedOut .bodyTimeout (.inr rfl) ?_ ?_
      · simp only [idle, phase, fits busy, if_false, reduceCtorEq]
      · have begun : assembler.toAssembler.stage = .body header assembler.body.reverse _ := stage
        simp only [Assembler.idle, begun]
        rfl

theorem idle_of_saturated (sound : assembler.Sound) (full : assembler.toAssembler.Saturated) :
    assembler.idle = .error .overflow := by
  rcases full with ⟨busy, full⟩
  have overflow : UInt32.size ≤ assembler.idleReads + 1 := full
  have awake : ¬assembler.phase.AtRest := fun rests => busy (sound.atRest_stage_iff.mpr rests)
  cases phase : assembler.phase with
  | start | headerTimedOut | bodyTimedOut =>
      exact absurd (by simp [phase, AssemblerPhase.AtRest, AssemblerPhase.TimedOut]) awake
  | inHeader | beforeBody | inBody => simp only [idle, phase, overflow, if_true]

/-! ## Reads -/

/-- A read goes through unless it is one that the counter cannot count, and does what the assembler
does. -/
theorem read_advances (sound : assembler.Sound) (read : Read)
    (room : read.Idle → ¬assembler.toAssembler.Saturated) :
    ∃ next events, assembler.read read = .ok (next, events) ∧ next.Sound ∧
      next.limits = assembler.limits ∧ (∀ event ∈ events, Sized assembler.limits event) ∧
      assembler.toAssembler.read read = (next.toAssembler, events) := by
  by_cases idle : read.Idle
  · rcases sound.idle_advances (room idle) with ⟨next, error, done, nextSound, limits, same⟩
    refine ⟨next, (error.map .gaveUp).toList, ?_, nextSound, limits, ?_, ?_⟩
    · simp [BufferedAssembler.read, idle, done, bind, Except.bind, pure, Except.pure]
    · cases error <;> simp [Sized]
    · rw [Assembler.read_of_idle idle, same]
  · rcases sound.awake_spec with ⟨awakeSound, awake, awakeLimits⟩
    rcases awakeSound.takeAll_advances awake read.content with
      ⟨next, events, done, nextSound, limits, sized, same⟩
    refine ⟨next, events, by rw [BufferedAssembler.read, if_neg idle, done], nextSound,
      limits.trans awakeLimits, awakeLimits ▸ sized, ?_⟩
    rw [Assembler.read_of_some idle, ← sound.acceptInto_awake idle, same]
    rfl

theorem read_of_saturated (sound : assembler.Sound) {read : Read} (idle : read.Idle)
    (full : assembler.toAssembler.Saturated) : assembler.read read = .error .overflow := by
  simp [BufferedAssembler.read, idle, sound.idle_of_saturated full, bind, Except.bind]

theorem not_saturated (sound : assembler.Sound)
    (small : assembler.limits.maxIdleReads < UInt32.size - 1) :
    ¬assembler.toAssembler.Saturated := by
  rintro ⟨_, full⟩
  have within := sound.idleReads_le
  have overflow : UInt32.size ≤ assembler.idleReads + 1 := full
  omega

theorem readAll_advances (sound : assembler.Sound)
    (small : assembler.limits.maxIdleReads < UInt32.size - 1) (reads : List Read) :
    ∃ next events, assembler.readAll reads = .ok (next, events) ∧ next.Sound ∧
      next.limits = assembler.limits ∧ (∀ event ∈ events, Sized assembler.limits event) ∧
      assembler.toAssembler.readAll reads = (next.toAssembler, events) := by
  induction reads generalizing assembler with
  | nil => exact ⟨assembler, [], rfl, sound, rfl, by simp, rfl⟩
  | cons read reads ih =>
      rcases sound.read_advances read fun _ => sound.not_saturated small with
        ⟨next, events, done, nextSound, limits, sized, same⟩
      rcases ih nextSound (limits ▸ small) with
        ⟨last, later, ends, lastSound, lastLimits, sizedLater, sameLater⟩
      refine ⟨last, events ++ later, ?_, lastSound, lastLimits.trans limits, ?_, ?_⟩
      · simp only [readAll, done, ends, bind, Except.bind, pure, Except.pure]
      · intro event eventMem
        rcases List.mem_append.mp eventMem with now | afterwards
        · exact sized event now
        · exact limits ▸ sizedLater event afterwards
      · simp only [Assembler.readAll, same, sameLater]

end Sound

theorem Sound.name_stage (sound : assembler.Sound) :
    assembler.stage.name = assembler.phase.name := by
  cases phase : assembler.phase with
  | start | headerTimedOut | bodyTimedOut | inHeader =>
      simp [stage, phase, AssemblerStage.name, AssemblerPhase.name]
  | beforeBody =>
      rcases sound.exists_stage_body (.inl phase) with ⟨header, _, stage⟩
      have bodyless : assembler.body = [] := by
        by_contra begun
        simp [sound.body_ne_nil_iff.mp begun] at phase
      simp [stage, bodyless, AssemblerStage.name, AssemblerPhase.name]
  | inBody =>
      rcases sound.exists_stage_body (.inr phase) with ⟨header, _, stage⟩
      rw [stage, Stream.name_body, if_neg (sound.body_ne_nil_iff.mpr phase)]
      rfl

/-- As long as the counter of idle reads is not to count to its end, no reads bring a buffered assembler
to a fault. Its fields then are as its phase says, bytes in front of it are taken up round by round, at
least one at a time, and every frame it has reported is as long as its header says and not too long. It
has reported what an assembler reports, and stands where that stands. -/
theorem runs_soundly (limits : AssemblerLimits)
    (small : limits.maxIdleReads < UInt32.size - 1) (reads : List Read) :
    ∃ assembler events, (new limits).readAll reads = .ok (assembler, events) ∧
      assembler.limits = limits ∧ assembler.Sound ∧
      (∀ input, input ≠ [] → ∃ next event rest,
        assembler.awake.round input = .ok (next, event, rest) ∧
          rest.length < input.length ∧ next.Sound) ∧
      (∀ frame, .completed frame ∈ events →
        frame.header.bodySize = .ok frame.body.length ∧ frame.body.length ≤ limits.maxBody) ∧
      (Assembler.new limits).readAll reads = (assembler.toAssembler, events) ∧
      assembler.toAssembler.stage.name = assembler.phase.name := by
  rcases (sound_new limits).readAll_advances small reads with
    ⟨assembler, events, done, sound, under, sized, same⟩
  refine ⟨assembler, events, done, under, sound, ?_, ?_, same, sound.name_stage⟩
  · intro input some
    rcases sound.awake_spec with ⟨awakeSound, awake, _⟩
    rcases awakeSound.round_advances awake some with ⟨next, event, taken, advances⟩
    refine ⟨next, event, _, taken, ?_, advances.sound⟩
    have inputPos := List.length_pos_iff.mpr some
    have positive := awakeSound.wanted_pos
    rw [List.length_drop]
    omega
  · intro frame frameMem
    exact sized _ frameMem frame rfl

/-- A frame, a message given up in its header, one refused for its length, and a body under way. -/
theorem runs_soundly_reused :
    ∃ assembler, (new ⟨4, 1⟩).readAll [.delivered [1, 11, 0], .nothing,
        .delivered [0, 0, 9, 0, 0, 0, 7, 8, 2], .nothing, .nothing,
        .delivered [3, 90, 0, 0, 0, 1, 0, 0, 0, 4, 12, 0, 0, 0, 6, 0, 0, 0, 5]] =
          .ok (assembler, [.completed ⟨⟨1, 11, 9⟩, [7, 8]⟩, .gaveUp .headerTimeout,
            .gaveUp (.oversized 81 4)]) ∧
      assembler.Sound ∧ assembler.phase.name = "WaitBody" := by
  rcases runs_soundly ⟨4, 1⟩ (by decide) [.delivered [1, 11, 0], .nothing,
    .delivered [0, 0, 9, 0, 0, 0, 7, 8, 2], .nothing, .nothing,
    .delivered [3, 90, 0, 0, 0, 1, 0, 0, 0, 4, 12, 0, 0, 0, 6, 0, 0, 0, 5]] with
    ⟨assembler, events, done, _, sound, _, _, same, name⟩
  have heard : events = [.completed ⟨⟨1, 11, 9⟩, [7, 8]⟩, .gaveUp .headerTimeout,
      .gaveUp (.oversized 81 4)] :=
    (congrArg Prod.snd same).symm.trans (by decide +kernel)
  have reached : assembler.toAssembler.stage.name = "WaitBody" :=
    (congrArg (fun run => run.1.stage.name) same).symm.trans (by decide +kernel)
  exact ⟨assembler, heard ▸ done, sound, name.symm.trans reached⟩

end BufferedAssembler

end SharedTree
