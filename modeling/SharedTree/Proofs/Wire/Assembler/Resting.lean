import SharedTree.Proofs.Wire.Assembler

/-!
# Assemblers at rest

An assembler rests when it keeps nothing of a message: before its first message, behind a message that is
complete or was refused, and after it has given a message up. Whatever it went through before, it then
hears what a fresh one hears, and idle reads leave it at rest.
-/

namespace SharedTree

/-- Nothing of a message is kept at this stage. -/
def AssemblerStage.AtRest (stage : AssemblerStage) : Prop :=
  stage = .start ∨ stage = .headerTimedOut ∨ stage = .bodyTimedOut

instance (stage : AssemblerStage) : Decidable stage.AtRest :=
  inferInstanceAs (Decidable (_ ∨ _ ∨ _))

theorem AssemblerStage.wanted_of_atRest {stage : AssemblerStage} (rests : stage.AtRest) :
    stage.wanted = Header.length := by
  rcases rests with rfl | rfl | rfl
  all_goals rfl

namespace Assembler

variable {assembler : Assembler} {bytes : Bytes} {reads ticks : List Read}

theorem readAll_append (assembler : Assembler) (reads later : List Read) :
    assembler.readAll (reads ++ later) =
      (((assembler.readAll reads).1.readAll later).1,
        (assembler.readAll reads).2 ++ ((assembler.readAll reads).1.readAll later).2) := by
  induction reads generalizing assembler with
  | nil => rfl
  | cons read reads ih => simp [readAll, ih]

theorem atRest_new (limits : AssemblerLimits) : (Assembler.new limits).stage.AtRest := .inl rfl

theorem takeUp_of_atRest (rests : assembler.stage.AtRest) (part : Bytes) :
    assembler.takeUp part = (Assembler.new assembler.limits).takeUp part := by
  rcases assembler with ⟨limits, stage, idleReads⟩
  rcases rests with rfl | rfl | rfl
  all_goals rfl

/-- Nothing is left at rest that could change what comes of bytes. -/
theorem acceptInto_of_atRest (rests : assembler.stage.AtRest) (some : bytes ≠ [])
    (newestFirst : List AssemblerEvent) :
    assembler.acceptInto newestFirst bytes =
      (Assembler.new assembler.limits).acceptInto newestFirst bytes := by
  cases bytes with
  | nil => exact absurd rfl some
  | cons byte rest =>
      rw [acceptInto, acceptInto, takeUp_of_atRest rests, AssemblerStage.wanted_of_atRest rests,
        AssemblerStage.wanted_of_atRest (atRest_new assembler.limits)]

theorem idle_of_atRest (rests : assembler.stage.AtRest) :
    assembler.idle.2 = none ∧ assembler.idle.1.stage.AtRest ∧
      assembler.idle.1.limits = assembler.limits := by
  rcases assembler with ⟨limits, stage, idleReads⟩
  rcases rests with rfl | rfl | rfl
  all_goals exact ⟨rfl, .inl rfl, rfl⟩

/-- At rest an assembler hears what a fresh one hears. -/
theorem readAll_of_atRest (rests : assembler.stage.AtRest) (reads : List Read) :
    (assembler.readAll reads).2 = ((Assembler.new assembler.limits).readAll reads).2 := by
  induction reads generalizing assembler with
  | nil => rfl
  | cons read reads ih =>
      by_cases idle : read.Idle
      · rcases idle_of_atRest rests with ⟨silent, still, limitsEq⟩
        have later := ih still
        rw [limitsEq] at later
        simp only [readAll, read_of_idle idle, silent, later]
        rfl
      · simp only [readAll, read_of_some idle, acceptInto_of_atRest rests idle]

end Assembler

end SharedTree
