import Mathlib.Data.List.Induction
import SharedTree.Proofs.Wire.Stream

/-!
# Assembling a stream

An assembler hears of a stream read by read, in pieces of any size and with reads in between
that deliver nothing. Between two reads it stands where reading the stream so far leaves off:
its stage is made of the bytes of the unfinished message and of nothing else. Each piece adds
the events that reading on from there finds.

The main result, `Assembler.readAll_eq_parse`, says so of every stream, cut in any way, as
long as no unfinished message meets more idle reads in a row than it survives.
-/

namespace SharedTree

namespace Header

theorem bodySize_eq_ok {header : Header} {declared : Nat}
    (declares : header.bodySize = .ok declared) : declared = header.size.toNat - length := by
  unfold bodySize at declares
  split at declares
  · cases declares
  · exact (Except.ok.inj declares).symm

end Header

namespace Stream

/-- The stage of an assembler that holds the unfinished message at the end of a stream. -/
def stage (left : Bytes) : AssemblerStage :=
  if left.isEmpty then .start
  else if left.length < Header.length then .header left
  else
    let header := Header.ofBytes (left.take Header.length)
    let received := left.drop Header.length
    .body header received.reverse (header.size.toNat - Header.length - received.length)

/-- What is waited for when so many bytes of a message have arrived. -/
def awaited (arrived : Nat) : String :=
  if arrived = 0 then "WaitHeaderEmpty"
  else if arrived < Header.length then "WaitHeader"
  else if arrived = Header.length then "WaitBodyEmpty"
  else "WaitBody"

variable {maxBody declared : Nat} {left part front behind : Bytes}

theorem stage_nil : stage [] = .start := rfl

theorem stage_of_short (some : left ≠ []) (short : left.length < Header.length) :
    stage left = .header left := by
  simp [stage, some, short]

theorem stage_of_header (whole : front.length = Header.length)
    (declares : (Header.ofBytes front).bodySize = .ok declared) (behind : Bytes) :
    stage (front ++ behind) =
      .body (Header.ofBytes front) behind.reverse (declared - behind.length) := by
  have taken : (front ++ behind).take Header.length = front := by simp [← whole]
  have dropped : (front ++ behind).drop Header.length = behind := by simp [← whole]
  have some : front ++ behind ≠ [] := by
    intro nothing
    simp [List.append_eq_nil_iff.mp nothing, Header.length] at whole
  have long : ¬(front ++ behind).length < Header.length := by simp [whole]
  simp only [stage, taken, dropped, List.isEmpty_iff, if_neg some, if_neg long,
    Header.bodySize_eq_ok declares]

theorem name_body (header : Header) (received : Bytes) (missing : Nat) :
    (AssemblerStage.body header received.reverse missing).name =
      if received = [] then "WaitBodyEmpty" else "WaitBody" := by
  cases newestFirst : received.reverse with
  | nil => simp [AssemblerStage.name, List.reverse_eq_nil_iff.mp newestFirst]
  | cons newest others =>
      have some : received ≠ [] := by
        rintro rfl
        cases newestFirst
      simp [AssemblerStage.name, some]

theorem name_stage (left : Bytes) : (stage left).name = awaited left.length := by
  by_cases nothing : left = []
  · subst nothing
    rfl
  · have positive : left.length ≠ 0 := by simpa using nothing
    by_cases short : left.length < Header.length
    · simp [stage_of_short nothing short, AssemblerStage.name, awaited, nothing, short]
    · have complete : left.drop Header.length = [] ↔ left.length = Header.length := by
        simp only [List.drop_eq_nil_iff]
        omega
      simp [stage, nothing, short, name_body, complete, awaited]

end Stream

namespace Assembler

variable {assembler : Assembler} {left part front bytes : Bytes}

/-! ## Taking up bytes -/

/-- An assembler holds the unfinished message at the end of a stream. -/
structure Holds (assembler : Assembler) (left : Bytes) : Prop where
  unfinished : Stream.next? assembler.limits.maxBody left = none
  stage : assembler.stage = Stream.stage left

/-- What becomes of an assembler when bytes are added to the message that it holds: the message goes
on, or the last of the bytes ends it. -/
inductive Grows (assembler : Assembler) (grown : Bytes) : Assembler × Option AssemblerEvent → Prop
  | unfinished (nothing : Stream.next? assembler.limits.maxBody grown = none) :
      Grows assembler grown (assembler.goTo (Stream.stage grown), none)
  | ended {event : AssemblerEvent}
      (found : Stream.next? assembler.limits.maxBody grown = some (event, [])) :
      Grows assembler grown (assembler.goTo .start, some event)

theorem grows_beginBody (assembler : Assembler) (whole : front.length = Header.length) :
    assembler.Grows front (assembler.beginBody (Header.ofBytes front)) := by
  have found := Stream.next?_of_header assembler.limits.maxBody whole []
  simp only [List.append_nil] at found
  unfold beginBody
  cases declares : (Header.ofBytes front).bodySize with
  | error failure =>
      simp only [declares] at found
      exact .ended found
  | ok declared =>
      simp only [declares] at found ⊢
      split
      · next tooLong =>
        simp only [if_pos tooLong] at found
        exact .ended found
      · next allowed =>
        simp only [if_neg allowed] at found
        split
        · next empty =>
          subst empty
          exact .ended found
        · next positive =>
          have cut : Bytes.split? declared [] = none :=
            Bytes.split?_eq_none_iff.mpr (Nat.pos_of_ne_zero positive)
          have stage := Stream.stage_of_header whole declares []
          simp only [cut, Option.map_none] at found
          simp only [List.append_nil, List.reverse_nil, List.length_nil, Nat.sub_zero] at stage
          rw [← stage]
          exact .unfinished found

theorem grows_extendHeader (assembler : Assembler) (some : bytes ≠ [])
    (fits : bytes.length ≤ Header.length) :
    assembler.Grows bytes (assembler.extendHeader bytes) := by
  unfold extendHeader
  split
  · next short =>
    rw [← Stream.stage_of_short some short]
    exact .unfinished (Stream.next?_of_short short)
  · next long =>
    apply grows_beginBody
    omega

theorem grows_extendBody (assembler : Assembler) {received : Bytes} {declared missing : Nat}
    (whole : front.length = Header.length)
    (declares : (Header.ofBytes front).bodySize = .ok declared)
    (allowed : declared ≤ assembler.limits.maxBody) (rest : received.length + missing = declared) :
    assembler.Grows (front ++ received)
      (assembler.extendBody (Header.ofBytes front) received.reverse missing) := by
  have found := Stream.next?_of_header assembler.limits.maxBody whole received
  simp only [declares, if_neg (Nat.not_lt.mpr allowed)] at found
  unfold extendBody
  split
  · next complete =>
    have cut := Bytes.split?_append_self received []
    rw [show received.length = declared by omega, List.append_nil] at cut
    simp only [cut, Option.map_some] at found
    rw [List.reverse_reverse]
    exact .ended found
  · next incomplete =>
    have cut : Bytes.split? declared received = none :=
      Bytes.split?_eq_none_iff.mpr (by omega)
    simp only [cut, Option.map_none] at found
    have stage := Stream.stage_of_header whole declares received
    rw [show declared - received.length = missing by omega] at stage
    rw [← stage]
    exact .unfinished found

namespace Holds

theorem wanted_pos (holds : assembler.Holds left) : 0 < assembler.stage.wanted := by
  rw [holds.stage]
  rcases Stream.next?_eq_none_iff.mp holds.unfinished with
    short | ⟨front, behind, declared, rfl, whole, declares, _, incomplete⟩
  · by_cases nothing : left = []
    · subst nothing
      decide
    · simp only [Stream.stage_of_short nothing short, AssemblerStage.wanted]
      omega
  · simp only [Stream.stage_of_header whole declares, AssemblerStage.wanted]
    omega

/-- Bytes that the header or the body under way lacks are added to what the assembler holds. -/
theorem grows_takeUp (holds : assembler.Holds left) (some : part ≠ [])
    (fits : part.length ≤ assembler.stage.wanted) :
    assembler.Grows (left ++ part) (assembler.takeUp part) := by
  have stage := holds.stage
  rw [stage] at fits
  unfold takeUp
  rcases Stream.next?_eq_none_iff.mp holds.unfinished with
    short | ⟨front, behind, declared, rfl, whole, declares, allowed, incomplete⟩
  · by_cases nothing : left = []
    · subst nothing
      rw [stage, Stream.stage_nil]
      exact assembler.grows_extendHeader some fits
    · simp only [Stream.stage_of_short nothing short, AssemblerStage.wanted] at stage fits
      rw [stage]
      apply assembler.grows_extendHeader
      · simp [nothing]
      · simp only [List.length_append]
        omega
  · simp only [Stream.stage_of_header whole declares, AssemblerStage.wanted] at stage fits
    rw [stage, List.append_assoc]
    dsimp only
    rw [← List.reverse_append]
    apply assembler.grows_extendBody whole declares allowed
    simp only [List.length_append]
    omega

theorem fresh (limits : AssemblerLimits) : (Assembler.new limits).Holds [] :=
  ⟨Stream.next?_nil, rfl⟩

/-- Taking a piece of a stream is reading on behind the message that the assembler holds. -/
theorem acceptInto (holds : assembler.Holds left) (newestFirst : List AssemblerEvent)
    (bytes : Bytes) :
    assembler.acceptInto newestFirst bytes =
      ({ assembler with
          stage := Stream.stage (Stream.parse assembler.limits.maxBody (left ++ bytes)).2
          idleReads := if bytes.isEmpty then assembler.idleReads else 0 },
        newestFirst.reverse ++
          (Stream.parse assembler.limits.maxBody (left ++ bytes)).1) := by
  -- A round ends where the message's header or body ends, so the rounds are those of the definition.
  induction assembler, newestFirst, bytes using Assembler.acceptInto.induct generalizing left with
  | case1 assembler newestFirst =>
      simp [Assembler.acceptInto, Stream.parse_of_next?_none holds.unfinished, ← holds.stage]
  | case2 assembler newestFirst byte rest more next event taken =>
      rename_i ih
      have positive := holds.wanted_pos
      have fits : (byte :: rest.take more).length ≤ assembler.stage.wanted := by
        simp only [List.length_cons, List.length_take]
        omega
      have grows := holds.grows_takeUp (List.cons_ne_nil byte (rest.take more)) fits
      have whole : left ++ byte :: rest = left ++ byte :: rest.take more ++ rest.drop more := by
        simp
      rw [taken] at grows
      rw [Assembler.acceptInto, taken, whole]
      dsimp only
      cases grows with
      | unfinished nothing =>
          rw [ih ⟨nothing, rfl⟩]
          simp [goTo]
      | ended found =>
          rw [ih ⟨Stream.next?_nil, rfl⟩]
          rw [Stream.parse_of_next?_some (Stream.next?_append found (rest.drop more))]
          simp [goTo]

end Holds

/-! ## Reading a connection -/

end Assembler

/-- What a read of a connection tells an assembler. -/
inductive Read where
  | delivered (bytes : Bytes)
  | nothing
  deriving DecidableEq, Repr

namespace Read

def content : Read → Bytes
  | .delivered bytes => bytes
  | .nothing => []

/-- A read is idle when it brings no byte, however it says so. -/
def Idle (read : Read) : Prop :=
  read.content = []

instance (read : Read) : Decidable read.Idle :=
  inferInstanceAs (Decidable (read.content = []))

/-- The stream that reads deliver between them. -/
def stream (reads : List Read) : Bytes :=
  reads.flatMap content

variable {reads ticks : List Read}

theorem stream_append_idle (reads : List Read) (idle : ∀ tick ∈ ticks, tick.Idle) :
    stream (reads ++ ticks) = stream reads := by
  have nothing : stream ticks = [] := List.flatMap_eq_nil_iff.mpr idle
  simp only [stream, List.flatMap_append] at nothing ⊢
  rw [nothing, List.append_nil]

/-- No unfinished message meets more idle reads in a row than the limits allow. -/
def Tolerated (limits : AssemblerLimits) (reads : List Read) : Prop :=
  ∀ earlier ticks later, reads = earlier ++ ticks ++ later → (∀ tick ∈ ticks, tick.Idle) →
    (Stream.parse limits.maxBody (stream earlier)).2 ≠ [] → ticks.length ≤ limits.maxIdleReads

theorem Tolerated.earlier {limits : AssemblerLimits} {later : List Read}
    (tolerated : Tolerated limits (reads ++ later)) : Tolerated limits reads := by
  rintro earlier ticks rest rfl idle unfinished
  exact tolerated earlier ticks (rest ++ later) (by simp) idle unfinished

/-- It is enough to look at the rows that begin behind some read and are so many reads long. -/
theorem tolerated_iff {limits : AssemblerLimits} : Tolerated limits reads ↔
    ∀ start ∈ List.range (reads.length + 1), ∀ count ∈ List.range (reads.length + 1),
      (∀ tick ∈ (reads.drop start).take count, tick.Idle) →
      (Stream.parse limits.maxBody (stream (reads.take start))).2 ≠ [] →
      ((reads.drop start).take count).length ≤ limits.maxIdleReads := by
  constructor
  · intro tolerated start _ count _ idle unfinished
    apply tolerated _ _ ((reads.drop start).drop count) _ idle unfinished
    rw [List.append_assoc, List.take_append_drop, List.take_append_drop]
  · rintro within earlier ticks later rfl idle unfinished
    have total : (earlier ++ ticks ++ later).length =
        earlier.length + ticks.length + later.length := by
      rw [List.length_append, List.length_append]
    have inside := within earlier.length (List.mem_range.mpr (by omega)) ticks.length
      (List.mem_range.mpr (by omega))
    simp only [List.append_assoc, List.drop_left, List.take_left] at inside
    exact inside idle unfinished

instance (limits : AssemblerLimits) (reads : List Read) : Decidable (Tolerated limits reads) :=
  decidable_of_iff' _ tolerated_iff

end Read

namespace Assembler

variable {limits : AssemblerLimits} {assembler : Assembler} {reads : List Read} {left : Bytes}

/-- What an assembler makes of one read. -/
def read (assembler : Assembler) : Read → Assembler × List AssemblerEvent
  | .delivered bytes => assembler.accept bytes
  | .nothing =>
    let (next, error) := assembler.idle
    (next, (error.map .gaveUp).toList)

/-- What an assembler makes of the reads of a connection. -/
def readAll (assembler : Assembler) : List Read → Assembler × List AssemblerEvent
  | [] => (assembler, [])
  | read :: reads =>
    let (next, events) := assembler.read read
    let (last, later) := next.readAll reads
    (last, events ++ later)

theorem read_of_idle {read : Read} (idle : read.Idle) :
    assembler.read read = (assembler.idle.1, (assembler.idle.2.map .gaveUp).toList) := by
  cases read with
  | nothing => rfl
  | delivered bytes =>
      have empty : bytes = [] := idle
      simp [Assembler.read, accept, empty]

theorem read_of_some {read : Read} (some : ¬read.Idle) :
    assembler.read read = assembler.acceptInto [] read.content := by
  cases read with
  | nothing => exact absurd rfl some
  | delivered bytes =>
      have bytesSome : bytes ≠ [] := some
      simp [Assembler.read, accept, bytesSome, Read.content]

theorem idle_of_stage (stage : assembler.stage = Stream.stage left)
    (survives : left ≠ [] → assembler.idleReads < assembler.limits.maxIdleReads) :
    assembler.idle =
      ({ assembler with
          idleReads := if left = [] then assembler.idleReads else assembler.idleReads + 1 },
        none) := by
  by_cases nothing : left = []
  · rcases assembler with ⟨limits, _, idleReads⟩
    subst stage nothing
    rfl
  · have allowed := survives nothing
    by_cases short : left.length < Header.length
    · simp [idle, stage, Stream.stage_of_short nothing short, nothing, allowed]
    · simp [idle, stage, Stream.stage, nothing, short, allowed]

/-- An assembler stands behind the reads of a connection: it holds what they leave unfinished, and has
counted the idle ones among them since the last byte. -/
structure Follows (limits : AssemblerLimits) (reads : List Read) (assembler : Assembler) : Prop
    where
  under : assembler.limits = limits
  stage : assembler.stage =
    Stream.stage (Stream.parse limits.maxBody (Read.stream reads)).2
  counted : (Stream.parse limits.maxBody (Read.stream reads)).2 ≠ [] →
    ∃ earlier ticks, reads = earlier ++ ticks ∧ (∀ tick ∈ ticks, tick.Idle) ∧
      ticks.length = assembler.idleReads

namespace Follows

theorem new (limits : AssemblerLimits) : Follows limits [] (Assembler.new limits) where
  under := rfl
  stage := by
    rw [Read.stream, List.flatMap_nil, Stream.parse_of_next?_none Stream.next?_nil]
    rfl
  counted _ := ⟨[], [], rfl, by simp, rfl⟩

theorem holds (follows : Follows limits reads assembler) :
    assembler.Holds (Stream.parse limits.maxBody (Read.stream reads)).2 :=
  ⟨by rw [follows.under]; exact Stream.next?_parse _ _, follows.stage⟩

theorem read_idle (follows : Follows limits reads assembler) {read : Read} (idle : read.Idle)
    (tolerated : Read.Tolerated limits (reads ++ [read])) :
    Follows limits (reads ++ [read]) (assembler.read read).1 ∧ (assembler.read read).2 = [] := by
  have same : Read.stream (reads ++ [read]) = Read.stream reads :=
    Read.stream_append_idle reads (by simp [idle])
  -- The idle reads counted so far and this one are in a row behind the last byte.
  have survives : (Stream.parse limits.maxBody (Read.stream reads)).2 ≠ [] →
      assembler.idleReads < assembler.limits.maxIdleReads := by
    intro unfinished
    rcases follows.counted unfinished with ⟨earlier, ticks, rfl, ticksIdle, count⟩
    rw [Read.stream_append_idle earlier ticksIdle] at unfinished
    have within := tolerated earlier (ticks ++ [read]) [] (by simp)
      (by simpa [or_imp, forall_and, idle] using ticksIdle) unfinished
    rw [List.length_append, List.length_singleton, count] at within
    rw [follows.under]
    exact within
  rw [read_of_idle idle, idle_of_stage follows.stage survives]
  refine ⟨⟨follows.under, ?_, ?_⟩, rfl⟩
  · rw [same]
    exact follows.stage
  · rw [same]
    intro unfinished
    rcases follows.counted unfinished with ⟨earlier, ticks, rfl, ticksIdle, count⟩
    refine ⟨earlier, ticks ++ [read], by simp, ?_, ?_⟩
    · simpa [or_imp, forall_and, idle] using ticksIdle
    · simp [unfinished, count]

theorem read_some (follows : Follows limits reads assembler) {read : Read} (some : ¬read.Idle) :
    Follows limits (reads ++ [read]) (assembler.read read).1 ∧
      (Stream.parse limits.maxBody (Read.stream (reads ++ [read]))).1 =
        (Stream.parse limits.maxBody (Read.stream reads)).1 ++ (assembler.read read).2 := by
  have content : Read.stream (reads ++ [read]) = Read.stream reads ++ read.content := by
    simp [Read.stream]
  have parsed := Stream.parse_append limits.maxBody (Read.stream reads) read.content
  have bytesSome : read.content.isEmpty = false := List.isEmpty_eq_false_iff.mpr some
  rw [read_of_some some, follows.holds.acceptInto, follows.under, content, parsed, bytesSome]
  refine ⟨⟨rfl, ?_, ?_⟩, by simp⟩
  · rw [content, parsed]
  · exact fun _ => ⟨reads ++ [read], [], by simp, by simp, rfl⟩

/-- One more read is followed, and its events are those that reading on finds. -/
theorem read (follows : Follows limits reads assembler) {read : Read}
    (tolerated : Read.Tolerated limits (reads ++ [read])) :
    Follows limits (reads ++ [read]) (assembler.read read).1 ∧
      (Stream.parse limits.maxBody (Read.stream (reads ++ [read]))).1 =
        (Stream.parse limits.maxBody (Read.stream reads)).1 ++ (assembler.read read).2 := by
  by_cases idle : read.Idle
  · rcases follows.read_idle idle tolerated with ⟨next, quiet⟩
    refine ⟨next, ?_⟩
    rw [quiet, Read.stream_append_idle reads (by simp [idle]), List.append_nil]
  · exact follows.read_some idle

theorem readAll (follows : Follows limits reads assembler) (later : List Read)
    (tolerated : Read.Tolerated limits (reads ++ later)) :
    Follows limits (reads ++ later) (assembler.readAll later).1 ∧
      (Stream.parse limits.maxBody (Read.stream (reads ++ later))).1 =
        (Stream.parse limits.maxBody (Read.stream reads)).1 ++ (assembler.readAll later).2 := by
  induction later generalizing reads assembler with
  | nil => simpa [Assembler.readAll] using follows
  | cons read later ih =>
      rw [List.append_cons] at tolerated ⊢
      rcases follows.read tolerated.earlier with ⟨next, found⟩
      rcases ih next tolerated with ⟨last, foundLater⟩
      refine ⟨last, ?_⟩
      rw [foundLater, found, List.append_assoc]
      rfl

end Follows

/-- However a stream is cut into reads and with whatever idle reads in between, as long as no
unfinished message meets too many of them: a fresh assembler reports exactly what is read from the
whole stream, and then stands as the bytes left over say. -/
theorem readAll_eq_parse (limits : AssemblerLimits) (reads : List Read)
    (tolerated : Read.Tolerated limits reads) :
    ((Assembler.new limits).readAll reads).2 =
        (Stream.parse limits.maxBody (Read.stream reads)).1 ∧
      ((Assembler.new limits).readAll reads).1.stage =
        Stream.stage (Stream.parse limits.maxBody (Read.stream reads)).2 ∧
      ((Assembler.new limits).readAll reads).1.stage.name =
        Stream.awaited (Stream.parse limits.maxBody (Read.stream reads)).2.length := by
  rcases (Follows.new limits).readAll reads tolerated with ⟨last, found⟩
  have start : Stream.parse limits.maxBody (Read.stream []) = ([], []) :=
    Stream.parse_of_next?_none Stream.next?_nil
  rw [start, List.nil_append, List.nil_append] at found
  refine ⟨found.symm, last.stage, ?_⟩
  rw [← Stream.name_stage]
  exact congrArg AssemblerStage.name last.stage

theorem readAll_eq_parse_mixed :
    ∃ reads, Read.Tolerated ⟨4, 1⟩ reads ∧
      ((Assembler.new ⟨4, 1⟩).readAll reads).2 =
        [.completed ⟨⟨1, 11, 9⟩, [7, 8]⟩, .gaveUp (.undersized 8), .gaveUp (.oversized 5 4),
          .completed ⟨⟨2, 9, 3⟩, []⟩] ∧
      ((Assembler.new ⟨4, 1⟩).readAll reads).1.stage.name = "WaitBodyEmpty" := by
  have tolerated : Read.Tolerated ⟨4, 1⟩
      [.nothing, .nothing, .delivered [1, 11, 0], .nothing, .delivered [0, 0, 9, 0, 0, 0, 7],
        .delivered [], .delivered [8, 1, 8], .delivered [0, 0, 0, 1, 0, 0, 0], .nothing, .nothing,
        .delivered [1, 14, 0, 0, 0, 2, 0, 0, 0, 2, 9, 0, 0, 0, 3, 0, 0, 0, 3, 10, 0],
        .delivered [0, 0, 4, 0, 0, 0], .delivered []] := by
    decide +kernel
  rcases readAll_eq_parse _ _ tolerated with ⟨events, _, name⟩
  refine ⟨_, tolerated, ?_, ?_⟩
  · rw [events]
    decide +kernel
  · rw [name]
    decide +kernel

end Assembler

end SharedTree
