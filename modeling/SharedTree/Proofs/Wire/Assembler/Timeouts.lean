import SharedTree.Proofs.Wire.Assembler.Resting

/-!
# Giving up messages that stall

What is under way after some reads can be told from the reads alone. Bytes go on with the message under
way, or begin one, and what is left of them behind the last event is then under way. Idle reads leave it
alone until there are more of them in a row than allowed; then the message is abandoned and nothing is
under way.

The main result, `Assembler.gives_up_exactly`, says that an assembler gives up a message when it is
abandoned in this sense, with one error that tells how far the message came, and at no other read.
-/

namespace SharedTree

namespace FramingError

/-- The error that a message is given up with of which so many bytes have arrived. -/
def timeout (arrived : Nat) : FramingError :=
  if arrived < Header.length then .headerTimeout else .bodyTimeout

/-- Whether a message was given up for its idle reads. -/
def IsTimeout (error : FramingError) : Prop :=
  error = .headerTimeout ∨ error = .bodyTimeout

end FramingError

namespace Stream

variable {maxBody : Nat} {bytes rest : Bytes} {event : AssemblerEvent} {error : FramingError}

theorem next?_ne_timeout (found : next? maxBody bytes = some (.gaveUp error, rest)) :
    ¬error.IsTimeout := by
  have long : Header.length ≤ bytes.length := by
    by_contra short
    simp [next?_of_short (Nat.lt_of_not_le short)] at found
  rcases exists_header_of_long long with ⟨front, behind, whole, rfl⟩
  rw [next?_of_header maxBody whole] at found
  cases declares : (Header.ofBytes front).bodySize with
  | error failure =>
      simp only [declares, Option.some.injEq, Prod.mk.injEq, AssemblerEvent.gaveUp.injEq] at found
      simp [← found.1, FramingError.IsTimeout]
  | ok declared =>
      simp only [declares] at found
      split at found
      · simp only [Option.some.injEq, Prod.mk.injEq, AssemblerEvent.gaveUp.injEq] at found
        simp [← found.1, FramingError.IsTimeout]
      · simp at found

theorem not_timeout_of_mem_parse (maxBody : Nat) (bytes : Bytes)
    (found : .gaveUp error ∈ (parse maxBody bytes).1) : ¬error.IsTimeout := by
  induction bytes using parse.induct maxBody with
  | case1 bytes unfinished => simp [parse_of_next?_none unfinished] at found
  | case2 bytes event rest first shorter events left parsed ih =>
      rw [parse_of_next?_some first, List.mem_cons] at found
      rcases found with rfl | later
      · exact next?_ne_timeout first
      · exact ih later

end Stream

namespace Read

variable {limits : AssemblerLimits} {reads ticks : List Read} {read : Read}

def quiet (reads : List Read) : Nat :=
  (reads.reverse.takeWhile fun read => read.Idle).length

/-- The bytes of the message under way behind reads that are given newest first. -/
def arrived (limits : AssemblerLimits) : List Read → Bytes
  | [] => []
  | read :: earlier =>
    if read.Idle then
      if ((read :: earlier).takeWhile fun read => read.Idle).length ≤ limits.maxIdleReads then
        arrived limits earlier
      else []
    else (Stream.parse limits.maxBody (arrived limits earlier ++ read.content)).2

/-- The bytes of the message under way behind some reads. There is none if there are no bytes. -/
def underWay (limits : AssemblerLimits) (reads : List Read) : Bytes :=
  arrived limits reads.reverse

theorem quiet_concat (reads : List Read) (read : Read) :
    quiet (reads ++ [read]) = if read.Idle then quiet reads + 1 else 0 := by
  by_cases idle : read.Idle
  · simp [quiet, idle]
  · simp [quiet, idle]

theorem underWay_concat_of_idle (limits : AssemblerLimits) (reads : List Read) (idle : read.Idle) :
    underWay limits (reads ++ [read]) =
      if quiet reads + 1 ≤ limits.maxIdleReads then underWay limits reads else [] := by
  simp only [underWay, quiet, List.reverse_append, List.reverse_singleton, List.singleton_append,
    arrived, List.takeWhile_cons, idle, decide_true, if_true, List.length_cons]
  rfl

theorem underWay_concat_of_some (limits : AssemblerLimits) (reads : List Read)
    (some : ¬read.Idle) :
    underWay limits (reads ++ [read]) =
      (Stream.parse limits.maxBody (underWay limits reads ++ read.content)).2 := by
  simp [underWay, arrived, some]

theorem exists_quiet (reads : List Read) :
    ∃ earlier ticks, reads = earlier ++ ticks ∧ (∀ tick ∈ ticks, tick.Idle) ∧
      ticks.length = quiet reads := by
  refine ⟨(reads.reverse.dropWhile fun read => read.Idle).reverse,
    (reads.reverse.takeWhile fun read => read.Idle).reverse, ?_, ?_, ?_⟩
  · rw [← List.reverse_append, List.takeWhile_append_dropWhile, List.reverse_reverse]
  · intro tick tickMem
    simpa using List.all_eq_true.mp List.all_takeWhile tick (List.mem_reverse.mp tickMem)
  · simp [quiet]

/-- As long as no message has been abandoned, what is under way is what the stream leaves over. -/
theorem underWay_of_tolerated (tolerated : Tolerated limits reads) :
    underWay limits reads = (Stream.parse limits.maxBody (stream reads)).2 := by
  induction reads using List.reverseRecOn with
  | nil => simp [underWay, arrived, stream, Stream.parse_of_next?_none Stream.next?_nil]
  | append_singleton reads read ih =>
      have before := ih tolerated.earlier
      by_cases idle : read.Idle
      · have tickIdle : ∀ tick ∈ [read], tick.Idle := by simpa using idle
        rw [underWay_concat_of_idle limits reads idle, before, stream_append_idle reads tickIdle]
        split
        · rfl
        · next many =>
          -- More idle reads than allowed were tolerated, so they met no message.
          by_contra unfinished
          rcases exists_quiet reads with ⟨earlier, ticks, rfl, ticksIdle, count⟩
          rw [stream_append_idle earlier ticksIdle] at unfinished
          have within := tolerated earlier (ticks ++ [read]) [] (by simp)
            (by simpa [or_imp, forall_and, idle] using ticksIdle) (Ne.symm unfinished)
          rw [List.length_append, List.length_singleton, count] at within
          exact many within
      · rw [underWay_concat_of_some limits reads idle, before]
        simp [stream, Stream.parse_append limits.maxBody (reads.flatMap content) read.content]

end Read

namespace Assembler

open Read (underWay quiet)

variable {limits : AssemblerLimits} {assembler : Assembler} {reads ticks : List Read} {read : Read}
  {left : Bytes}

/-- The assembler of a connection after its first reads. -/
def after (limits : AssemblerLimits) (reads : List Read) : Assembler :=
  ((Assembler.new limits).readAll reads).1

theorem after_concat (limits : AssemblerLimits) (reads : List Read) (read : Read) :
    after limits (reads ++ [read]) = ((after limits reads).read read).1 := by
  simp [after, readAll_append, readAll]

theorem idle_of_unfinished (stage : assembler.stage = Stream.stage left) (some : left ≠ []) :
    assembler.idle =
      if assembler.idleReads < assembler.limits.maxIdleReads then
        ({ assembler with idleReads := assembler.idleReads + 1 }, none)
      else
        (assembler.goTo
            (if left.length < Header.length then .headerTimedOut else .bodyTimedOut),
          Option.some (FramingError.timeout left.length)) := by
  by_cases short : left.length < Header.length
  · simp [idle, stage, Stream.stage_of_short some short, FramingError.timeout, short]
  · simp [idle, stage, Stream.stage, some, short, FramingError.timeout]

/-- An assembler keeps the message under way, and has counted the idle reads since its last byte. -/
structure Keeps (limits : AssemblerLimits) (reads : List Read) (assembler : Assembler) : Prop where
  under : assembler.limits = limits
  unfinished : Stream.next? limits.maxBody (underWay limits reads) = none
  atRest : underWay limits reads = [] → assembler.stage.AtRest
  stage : underWay limits reads ≠ [] → assembler.stage = Stream.stage (underWay limits reads)
  counted : underWay limits reads ≠ [] → assembler.idleReads = quiet reads
  within : underWay limits reads ≠ [] → quiet reads ≤ limits.maxIdleReads

namespace Keeps

theorem new (limits : AssemblerLimits) : Keeps limits [] (Assembler.new limits) where
  under := rfl
  unfinished := Stream.next?_nil
  atRest _ := atRest_new limits
  stage some := absurd rfl some
  counted some := absurd rfl some
  within some := absurd rfl some

theorem read_some (keeps : Keeps limits reads assembler) (some : ¬read.Idle) :
    assembler.read read =
      ({ limits, stage := Stream.stage (underWay limits (reads ++ [read])) },
        (Stream.parse limits.maxBody (underWay limits reads ++ read.content)).1) := by
  have bytesSome : read.content.isEmpty = false := List.isEmpty_eq_false_iff.mpr some
  rw [read_of_some some, Read.underWay_concat_of_some limits reads some]
  by_cases nothing : underWay limits reads = []
  · rw [acceptInto_of_atRest (keeps.atRest nothing) some, (Holds.fresh _).acceptInto, keeps.under,
      nothing, bytesSome]
    rfl
  · have holds : assembler.Holds (underWay limits reads) :=
      ⟨keeps.under.symm ▸ keeps.unfinished, keeps.stage nothing⟩
    rw [holds.acceptInto, keeps.under, bytesSome]
    rfl

/-- An idle read is reported when the message under way is abandoned at it. -/
theorem read_idle (keeps : Keeps limits reads assembler) (idle : read.Idle) :
    (assembler.read read).2 =
      if underWay limits reads ≠ [] ∧ limits.maxIdleReads < quiet reads + 1 then
        [.gaveUp (.timeout (underWay limits reads).length)]
      else [] := by
  rw [read_of_idle idle]
  by_cases nothing : underWay limits reads = []
  · simp [nothing, (idle_of_atRest (keeps.atRest nothing)).1]
  · rw [idle_of_unfinished (keeps.stage nothing) nothing, keeps.counted nothing, keeps.under]
    by_cases patient : quiet reads < limits.maxIdleReads
    · simp [patient, Nat.not_lt.mpr patient]
    · simp [nothing, patient, Nat.lt_succ_of_le (Nat.le_of_not_lt patient)]

theorem next_idle (keeps : Keeps limits reads assembler) (idle : read.Idle) :
    Keeps limits (reads ++ [read]) (assembler.read read).1 := by
  have later := Read.underWay_concat_of_idle limits reads idle
  have count : quiet (reads ++ [read]) = quiet reads + 1 := by rw [Read.quiet_concat, if_pos idle]
  rw [read_of_idle idle]
  by_cases nothing : underWay limits reads = []
  · rcases idle_of_atRest (keeps.atRest nothing) with ⟨_, still, limitsEq⟩
    have none : underWay limits (reads ++ [read]) = [] := by simp [later, nothing]
    exact ⟨limitsEq.trans keeps.under, by rw [none]; exact Stream.next?_nil, fun _ => still,
      absurd none, absurd none, absurd none⟩
  · have stage := keeps.stage nothing
    rw [idle_of_unfinished stage nothing, keeps.counted nothing, keeps.under]
    by_cases patient : quiet reads < limits.maxIdleReads
    · rw [if_pos patient]
      rw [if_pos (show quiet reads + 1 ≤ limits.maxIdleReads from patient)] at later
      refine ⟨rfl, ?_, ?_, ?_, ?_, ?_⟩
      · rw [later]
        exact keeps.unfinished
      · rw [later]
        exact fun none => absurd none nothing
      · rw [later]
        exact fun _ => stage
      · exact fun _ => count.symm
      · exact fun _ => by rw [count]; exact patient
    · rw [if_neg patient]
      rw [if_neg (show ¬quiet reads + 1 ≤ limits.maxIdleReads from patient)] at later
      refine ⟨keeps.under, by rw [later]; exact Stream.next?_nil, fun _ => ?_,
        absurd later, absurd later, absurd later⟩
      by_cases short : (underWay limits reads).length < Header.length
      · exact .inr (.inl (if_pos short))
      · exact .inr (.inr (if_neg short))

theorem next_some (keeps : Keeps limits reads assembler) (some : ¬read.Idle) :
    Keeps limits (reads ++ [read]) (assembler.read read).1 := by
  have none : quiet (reads ++ [read]) = 0 := by rw [Read.quiet_concat, if_neg some]
  rw [keeps.read_some some]
  refine ⟨rfl, ?_, ?_, fun _ => rfl, fun _ => none.symm, fun _ => by rw [none]; exact Nat.zero_le _⟩
  · rw [Read.underWay_concat_of_some limits reads some]
    exact Stream.next?_parse _ _
  · intro nothing
    rw [nothing]
    exact .inl Stream.stage_nil

theorem next (keeps : Keeps limits reads assembler) (read : Read) :
    Keeps limits (reads ++ [read]) (assembler.read read).1 := by
  by_cases idle : read.Idle
  · exact keeps.next_idle idle
  · exact keeps.next_some idle

end Keeps

theorem keeps_after (limits : AssemblerLimits) (reads : List Read) :
    Keeps limits reads (after limits reads) := by
  induction reads using List.reverseRecOn with
  | nil => exact .new limits
  | append_singleton reads read ih =>
      rw [after_concat]
      exact ih.next read

/-- However many idle reads follow, the message under way is given up at most once. -/
theorem readAll_idle (limits : AssemblerLimits) (reads : List Read)
    (idle : ∀ tick ∈ ticks, tick.Idle) :
    ((after limits reads).readAll ticks).2 =
      if underWay limits reads ≠ [] ∧ limits.maxIdleReads < quiet reads + ticks.length then
        [.gaveUp (.timeout (underWay limits reads).length)]
      else [] := by
  induction ticks generalizing reads with
  | nil =>
      have within := (keeps_after limits reads).within
      rw [if_neg fun abandoned => absurd (within abandoned.1) (Nat.not_le.mpr abandoned.2)]
      rfl
  | cons tick ticks ih =>
      have tickIdle := idle tick (List.mem_cons_self ..)
      have first := (keeps_after limits reads).read_idle tickIdle
      have later := ih (reads ++ [tick]) fun other otherMem => idle other (List.mem_cons_of_mem _ otherMem)
      rw [after_concat, Read.underWay_concat_of_idle limits reads tickIdle, Read.quiet_concat,
        if_pos tickIdle] at later
      simp only [readAll, first, later, List.length_cons]
      by_cases nothing : underWay limits reads = []
      · simp [nothing]
      · by_cases patient : quiet reads + 1 ≤ limits.maxIdleReads
        · have still : ¬limits.maxIdleReads < quiet reads + 1 := Nat.not_lt.mpr patient
          simp [nothing, patient, still, Nat.add_assoc, Nat.add_comm 1]
        · have many : limits.maxIdleReads < quiet reads + 1 := Nat.lt_of_not_le patient
          have more : limits.maxIdleReads < quiet reads + (ticks.length + 1) := by omega
          simp [nothing, patient, many, more]

theorem not_timeout_of_some (limits : AssemblerLimits) (reads : List Read) (some : ¬read.Idle)
    {error : FramingError} (heard : .gaveUp error ∈ ((after limits reads).read read).2) :
    ¬error.IsTimeout := by
  rw [(keeps_after limits reads).read_some some] at heard
  exact Stream.not_timeout_of_mem_parse _ _ heard

/-- After any reads, an idle read is answered by giving up a message exactly if some bytes of a message
are under way and this is the first of the idle reads since the last byte that is one too many. A row of
idle reads, however long, is answered by at most one timeout, and by none if nothing is under way. Bytes
are never answered by a timeout. While no message has been abandoned, what is under way is what reading
the whole stream leaves over. -/
theorem gives_up_exactly (limits : AssemblerLimits) (reads : List Read) :
    (∀ tick : Read, tick.Idle →
      ((after limits reads).read tick).2 =
        if underWay limits reads ≠ [] ∧ quiet (reads ++ [tick]) = limits.maxIdleReads + 1 then
          [.gaveUp (.timeout (underWay limits reads).length)]
        else []) ∧
    (∀ ticks : List Read, (∀ tick ∈ ticks, tick.Idle) →
      ((after limits reads).readAll ticks).2 =
        if underWay limits reads ≠ [] ∧ limits.maxIdleReads < quiet reads + ticks.length then
          [.gaveUp (.timeout (underWay limits reads).length)]
        else []) ∧
    (∀ read : Read, ¬read.Idle → ∀ error, .gaveUp error ∈ ((after limits reads).read read).2 →
      ¬error.IsTimeout) ∧
    (Read.Tolerated limits reads →
      underWay limits reads = (Stream.parse limits.maxBody (Read.stream reads)).2) := by
  refine ⟨?_, ?_, ?_, Read.underWay_of_tolerated⟩
  · intro tick idle
    have keeps := keeps_after limits reads
    rw [keeps.read_idle idle, Read.quiet_concat, if_pos idle]
    have first : underWay limits reads ≠ [] →
        (limits.maxIdleReads < quiet reads + 1 ↔ quiet reads + 1 = limits.maxIdleReads + 1) := by
      intro some
      have within := keeps.within some
      omega
    simp only [and_congr_right_iff.mpr first]
  · intro ticks idle
    exact readAll_idle limits reads idle
  · intro read some error heard
    exact not_timeout_of_some limits reads some heard

/-- One message stalls in its header after a pause within its allowance, another in its body; however
many idle reads follow the first, there is one timeout. -/
theorem gives_up_exactly_twice :
    ((after ⟨16, 2⟩ [.nothing, .nothing, .nothing, .delivered [1, 13, 0], .nothing, .nothing,
      .delivered [0], .delivered [], .nothing]).readAll (List.replicate 5 .nothing)).2 =
        [.gaveUp .headerTimeout] ∧
    ((after ⟨16, 2⟩ [.delivered [1, 13, 0], .nothing, .nothing, .nothing, .nothing, .nothing,
      .delivered [1, 13, 0, 0, 0, 7, 0, 0, 0], .nothing, .nothing]).read (.delivered [])).2 =
        [.gaveUp .bodyTimeout] := by
  rcases gives_up_exactly ⟨16, 2⟩ [.nothing, .nothing, .nothing, .delivered [1, 13, 0], .nothing,
    .nothing, .delivered [0], .delivered [], .nothing] with ⟨_, row, _, _⟩
  rcases gives_up_exactly ⟨16, 2⟩ [.delivered [1, 13, 0], .nothing, .nothing, .nothing, .nothing,
    .nothing, .delivered [1, 13, 0, 0, 0, 7, 0, 0, 0], .nothing, .nothing] with ⟨single, _, _, _⟩
  constructor
  · rw [row (List.replicate 5 .nothing) (by decide)]
    decide +kernel
  · rw [single (.delivered []) rfl]
    decide +kernel

end Assembler

end SharedTree
