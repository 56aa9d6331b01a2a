import SharedTree.Proofs.Wire.Buffered

/-!
# Rounds of taking up bytes

In front of bytes, a buffered assembler whose fields are sound never meets a fault. Each of its rounds takes
what the header or the body under way lacks of the bytes, which is at least one of them, and does with these
what the assembler does; so its rounds use up the bytes and end where the assembler ends.
-/

namespace SharedTree

/-- Of the bytes in front of it, an assembler takes up at once as many as it wants. -/
theorem Assembler.acceptInto_of_some {assembler : Assembler} {bytes : Bytes}
    (positive : 0 < assembler.stage.wanted) (some : bytes ≠ [])
    (newestFirst : List AssemblerEvent) :
    assembler.acceptInto newestFirst bytes =
      (assembler.takeUp (bytes.take assembler.stage.wanted)).1.acceptInto
        ((assembler.takeUp (bytes.take assembler.stage.wanted)).2.toList ++ newestFirst)
        (bytes.drop assembler.stage.wanted) := by
  cases bytes with
  | nil => exact absurd rfl some
  | cons byte rest =>
      have front : byte :: rest.take (assembler.stage.wanted - 1) =
          (byte :: rest).take assembler.stage.wanted := by
        rw [← List.take_succ_cons, Nat.sub_add_cancel positive]
      have behind : rest.drop (assembler.stage.wanted - 1) =
          (byte :: rest).drop assembler.stage.wanted := by
        rw [← List.drop_succ_cons, Nat.sub_add_cancel positive]
      rw [acceptInto]
      dsimp only
      rw [front, behind]

namespace BufferedAssembler

open BufferFault (difference cut)

/-! ## Checked steps -/

variable {assembler next : BufferedAssembler} {input part : Bytes} {event : Option AssemblerEvent}

theorem difference_of_le {whole part : Nat} (fits : part ≤ whole) :
    difference whole part = .ok (whole - part) := if_pos fits

theorem cut_min (size : Nat) (input : Bytes) :
    cut (min size input.length) input = .ok (input.take size, input.drop size) := by
  rw [cut, if_pos (Nat.min_le_right _ _)]
  by_cases short : size ≤ input.length
  · rw [Nat.min_eq_left short]
  · have long : input.length ≤ size := Nat.le_of_not_le short
    simp [Nat.min_eq_right long, List.take_of_length_le long, List.drop_of_length_le long]

theorem exists_write (buffer : HeaderBuffer) {place : Nat}
    (fits : place + part.length ≤ Header.length) :
    ∃ written, buffer.write place part = .ok written ∧
      written.bytes.take (place + part.length) = buffer.bytes.take place ++ part := by
  refine ⟨_, dif_pos fits, ?_⟩
  have size := buffer.length_bytes
  apply List.take_left'
  simp only [List.length_append, List.length_take]
  omega

theorem length_take_of_some {lacking : Nat} (lacks : 0 < lacking) (some : input ≠ []) :
    0 < (input.take lacking).length ∧ (input.take lacking).length ≤ lacking := by
  have inputPos := List.length_pos_iff.mpr some
  rw [List.length_take]
  omega

/-! ## Sound fields -/

theorem sound_clear (assembler : BufferedAssembler) : assembler.clear.Sound := by
  constructor <;> simp [clear, AssemblerPhase.OfBody]

theorem sound_new (limits : AssemblerLimits) : (new limits).Sound :=
  sound_clear (new limits)

theorem sound_of_timedOut (assembler : BufferedAssembler) {phase : AssemblerPhase}
    (timedOut : phase.TimedOut) : { assembler.clear with phase : BufferedAssembler }.Sound := by
  rcases timedOut with rfl | rfl
  all_goals constructor <;> simp [clear, AssemblerPhase.OfBody]

theorem sound_of_inHeader (inHeader : assembler.phase = .inHeader)
    (some : 1 ≤ assembler.headerLength) (short : assembler.headerLength ≤ 8)
    (headerless : assembler.header = none) (bodyless : assembler.body = [])
    (undeclared : assembler.bodyLength = 0)
    (counted : assembler.idleReads ≤ assembler.limits.maxIdleReads) : assembler.Sound := by
  constructor <;> simp [inHeader, some, short, headerless, bodyless, undeclared, counted,
    AssemblerPhase.OfBody, AssemblerPhase.AtRest, AssemblerPhase.TimedOut]

theorem sound_of_ofBody {header : Header} (ofBody : assembler.phase.OfBody)
    (whole : assembler.headerLength = Header.length) (stored : assembler.header = some header)
    (declares : header.bodySize = .ok assembler.bodyLength)
    (short : assembler.body.length < assembler.bodyLength)
    (allowed : assembler.bodyLength ≤ assembler.limits.maxBody)
    (begun : assembler.body ≠ [] ↔ assembler.phase = .inBody)
    (counted : assembler.idleReads ≤ assembler.limits.maxIdleReads) : assembler.Sound := by
  have busy := ofBody.not_atRest
  have late : assembler.phase ≠ .inHeader := by
    rcases ofBody with phase | phase
    all_goals simp [phase]
  constructor
  case body_ne_nil_iff => exact begun
  all_goals simp [ofBody, busy, late, whole, stored, declares, short, allowed, counted]

/-! ## Rounds -/

/-- A frame is as long as its header says, and not too long. -/
def Sized (limits : AssemblerLimits) (event : AssemblerEvent) : Prop :=
  ∀ frame, event = .completed frame →
    frame.header.bodySize = .ok frame.body.length ∧ frame.body.length ≤ limits.maxBody

/-- What comes of taking up bytes is sound, and is what the assembler makes of the same bytes. -/
structure Advances (assembler next : BufferedAssembler) (event : Option AssemblerEvent)
    (outcome : Assembler × Option AssemblerEvent) : Prop where
  sound : next.Sound
  awake : ¬next.phase.TimedOut
  limits : next.limits = assembler.limits
  sized : ∀ seen ∈ event, Sized assembler.limits seen
  same : outcome = (next.toAssembler, event)

theorem advances_clear (assembler : BufferedAssembler)
    (sized : ∀ seen ∈ event, Sized assembler.limits seen) :
    assembler.Advances assembler.clear event (assembler.toAssembler.goTo .start, event) :=
  ⟨sound_clear assembler, by simp [clear, AssemblerPhase.TimedOut], rfl, sized, rfl⟩

theorem takeHeader_advances (whole : assembler.headerLength = Header.length)
    (bodyless : assembler.body = []) (counted : assembler.idleReads = 0) :
    ∃ next event, assembler.takeHeader = .ok (next, event) ∧
      assembler.Advances next event
        (assembler.toAssembler.beginBody (Header.ofBytes assembler.headerBuffer.bytes)) := by
  have parsed : Header.parse assembler.headerBuffer.bytes =
      .ok (Header.ofBytes assembler.headerBuffer.bytes) := by
    simp [Header.parse, assembler.headerBuffer.length_bytes]
  simp only [takeHeader, parsed, Assembler.beginBody]
  cases declares : (Header.ofBytes assembler.headerBuffer.bytes).bodySize with
  | error failure => exact ⟨_, _, rfl, advances_clear assembler (by simp [Sized])⟩
  | ok declared =>
      dsimp only
      by_cases tooLong : assembler.limits.maxBody < declared
      · rw [if_pos tooLong, if_pos (show assembler.toAssembler.limits.maxBody < declared from tooLong)]
        exact ⟨_, _, rfl, advances_clear assembler (by simp [Sized])⟩
      · rw [if_neg tooLong,
          if_neg (show ¬assembler.toAssembler.limits.maxBody < declared from tooLong)]
        by_cases empty : declared = 0
        · subst empty
          rw [if_pos rfl, if_pos rfl]
          simp only [complete, bodyless]
          refine ⟨_, _, rfl, advances_clear assembler ?_⟩
          simp [Sized, declares]
        · rw [if_neg empty, if_neg empty]
          refine ⟨_, _, rfl, ?_, by simp [AssemblerPhase.TimedOut], rfl, by simp, ?_⟩
          · exact sound_of_ofBody (.inl rfl) whole rfl declares
              (by simpa [bodyless] using Nat.pos_of_ne_zero empty) (Nat.le_of_not_lt tooLong)
              (by simp [bodyless]) (by simp [counted])
          · simp [toAssembler, stage, Assembler.goTo, bodyless, counted]

namespace Sound

theorem fields_of_header (sound : assembler.Sound) (early : assembler.phase.OfHeader) :
    assembler.header = none ∧ assembler.body = [] ∧ assembler.bodyLength = 0 := by
  have undeclared : ¬assembler.body.length < assembler.bodyLength :=
    fun short => early.not_ofBody (sound.length_body_lt_iff.mp short)
  have bodyless : assembler.body = [] := by
    by_contra begun
    exact early.not_ofBody (.inr (sound.body_ne_nil_iff.mp begun))
  refine ⟨?_, bodyless, ?_⟩
  · cases stored : assembler.header with
    | none => rfl
    | some header => exact absurd (sound.isSome_header_iff.mp (by simp [stored])) early.not_ofBody
  · simpa [bodyless] using undeclared

theorem headerLength_lt (sound : assembler.Sound) (early : assembler.phase.OfHeader) :
    assembler.headerLength < Header.length := by
  rcases early with start | inHeader
  · rw [sound.headerLength_atRest (.inl start)]
    decide
  · exact Nat.lt_succ_of_le (sound.headerLength_inHeader inHeader).2

theorem length_received (sound : assembler.Sound) (early : assembler.phase.OfHeader) :
    assembler.received.length = assembler.headerLength := by
  rw [received, List.length_take, assembler.headerBuffer.length_bytes,
    Nat.min_eq_left (Nat.le_of_lt (sound.headerLength_lt early))]

theorem takeUp_of_header (sound : assembler.Sound) (early : assembler.phase.OfHeader)
    (part : Bytes) :
    assembler.toAssembler.takeUp part =
      assembler.toAssembler.extendHeader (assembler.received ++ part) := by
  rcases early with start | inHeader
  · simp [Assembler.takeUp, toAssembler, stage, start, received,
      sound.headerLength_atRest (.inl start)]
  · simp [Assembler.takeUp, toAssembler, stage, inHeader]

theorem wanted_of_header (sound : assembler.Sound) (early : assembler.phase.OfHeader) :
    assembler.stage.wanted = Header.length - assembler.headerLength := by
  have size := sound.length_received early
  rcases early with start | inHeader
  · simp [stage, start, AssemblerStage.wanted, sound.headerLength_atRest (.inl start)]
  · simp [stage, inHeader, AssemblerStage.wanted, size]

/-- A header that is still short is kept, and one that is complete is taken up. -/
theorem fillHeader_advances (sound : assembler.Sound) (early : assembler.phase.OfHeader)
    (some : input ≠ []) :
    ∃ next event,
      assembler.fillHeader input = .ok (next, event, input.drop assembler.stage.wanted) ∧
      assembler.Advances next event
        (assembler.toAssembler.takeUp (input.take assembler.stage.wanted)) := by
  have short := sound.headerLength_lt early
  have taken := length_take_of_some (Nat.sub_pos_of_lt short) some
  rcases sound.fields_of_header early with ⟨headerless, bodyless, undeclared⟩
  rw [sound.wanted_of_header early, sound.takeUp_of_header early]
  generalize part_eq : input.take (Header.length - assembler.headerLength) = part at taken
  have fits : assembler.headerLength + part.length ≤ Header.length := by omega
  -- Behind the bytes that count, the buffer may hold some of an earlier header.
  rcases exists_write assembler.headerBuffer fits with ⟨written, wrote, holds⟩
  simp only [fillHeader, difference_of_le (Nat.le_of_lt short), cut_min, part_eq, wrote, bind,
    Except.bind, pure, Except.pure]
  unfold Assembler.extendHeader
  rw [List.length_append, sound.length_received early]
  by_cases whole : assembler.headerLength + part.length = Header.length
  · rw [if_pos whole, if_neg (Nat.not_lt.mpr (Nat.le_of_eq whole.symm))]
    rcases @takeHeader_advances { assembler with
      phase := .inHeader, headerBuffer := written,
      headerLength := assembler.headerLength + part.length, idleReads := 0 } whole bodyless rfl with
      ⟨next, event, done, advances⟩
    rw [whole, List.take_of_length_le (Nat.le_of_eq written.length_bytes)] at holds
    rw [done, received, ← holds]
    exact ⟨next, event, rfl, advances.sound, advances.awake, advances.limits, advances.sized,
      advances.same⟩
  · have still := Nat.lt_of_le_of_ne fits whole
    rw [if_neg whole, if_pos still, received, ← holds]
    refine ⟨_, _, rfl, ?_, by simp [AssemblerPhase.TimedOut], rfl, by simp, rfl⟩
    exact sound_of_inHeader rfl (Nat.le_add_left_of_le taken.1) (Nat.le_of_lt_succ still)
      headerless bodyless undeclared (Nat.zero_le _)

theorem exists_stage_body (sound : assembler.Sound) (ofBody : assembler.phase.OfBody) :
    ∃ header, assembler.header = some header ∧ assembler.stage =
      .body header assembler.body.reverse (assembler.bodyLength - assembler.body.length) := by
  rcases Option.isSome_iff_exists.mp (sound.isSome_header_iff.mpr ofBody) with ⟨header, stored⟩
  refine ⟨header, stored, ?_⟩
  rcases ofBody with phase | phase
  all_goals simp [stage, phase, stored]

/-- A body that still lacks bytes is kept, and one that is complete is reported. -/
theorem fillBody_advances (sound : assembler.Sound) (ofBody : assembler.phase.OfBody)
    (some : input ≠ []) :
    ∃ next event,
      assembler.fillBody input = .ok (next, event, input.drop assembler.stage.wanted) ∧
      assembler.Advances next event
        (assembler.toAssembler.takeUp (input.take assembler.stage.wanted)) := by
  rcases sound.exists_stage_body ofBody with ⟨header, stored, stage⟩
  have declares := sound.declared header stored
  have short := sound.length_body_lt_iff.mpr ofBody
  have taken := length_take_of_some (Nat.sub_pos_of_lt short) some
  have wanted : assembler.stage.wanted = assembler.bodyLength - assembler.body.length := by
    rw [stage, AssemblerStage.wanted]
  rw [wanted]
  generalize part_eq : input.take (assembler.bodyLength - assembler.body.length) = part at taken
  have takeUp : assembler.toAssembler.takeUp part =
      assembler.toAssembler.extendBody header (assembler.body ++ part).reverse
        (assembler.bodyLength - assembler.body.length - part.length) := by
    simp [Assembler.takeUp, toAssembler, stage]
  rw [takeUp]
  simp only [fillBody, difference_of_le (Nat.le_of_lt short), cut_min, part_eq, complete, stored,
    bind, Except.bind, pure, Except.pure, List.length_append, Assembler.extendBody,
    List.reverse_reverse]
  by_cases whole : assembler.body.length + part.length = assembler.bodyLength
  · rw [if_pos whole, if_pos (by omega)]
    refine ⟨_, _, rfl, advances_clear assembler ?_⟩
    simp [Sized, declares, whole, sound.bodyLength_le]
  · rw [if_neg whole, if_neg (by omega)]
    refine ⟨_, _, rfl, ?_, by simp [AssemblerPhase.TimedOut], rfl, by simp, ?_⟩
    · refine sound_of_ofBody (.inr rfl) (sound.headerLength_ofBody ofBody) rfl declares ?_
        sound.bodyLength_le ?_ (Nat.zero_le _)
      · simp only [List.length_append]
        omega
      · simp [List.length_pos_iff.mp taken.1]
    · simp [toAssembler, BufferedAssembler.stage, Assembler.goTo, Nat.sub_sub]

/-- A round in front of bytes goes through, takes what the header or the body lacks of them, and does with
these what the assembler does. -/
theorem round_advances (sound : assembler.Sound) (awake : ¬assembler.phase.TimedOut)
    (some : input ≠ []) :
    ∃ next event, assembler.round input = .ok (next, event, input.drop assembler.stage.wanted) ∧
      assembler.Advances next event
        (assembler.toAssembler.takeUp (input.take assembler.stage.wanted)) := by
  unfold round
  cases phase : assembler.phase with
  | start => exact sound.fillHeader_advances (.inl phase) some
  | inHeader => exact sound.fillHeader_advances (.inr phase) some
  | beforeBody => exact sound.fillBody_advances (.inl phase) some
  | inBody => exact sound.fillBody_advances (.inr phase) some
  | headerTimedOut => exact absurd (.inl phase) awake
  | bodyTimedOut => exact absurd (.inr phase) awake

theorem wanted_pos (sound : assembler.Sound) : 0 < assembler.stage.wanted := by
  cases phase : assembler.phase with
  | start =>
      rw [sound.wanted_of_header (.inl phase)]
      exact Nat.sub_pos_of_lt (sound.headerLength_lt (.inl phase))
  | inHeader =>
      rw [sound.wanted_of_header (.inr phase)]
      exact Nat.sub_pos_of_lt (sound.headerLength_lt (.inr phase))
  | beforeBody | inBody =>
      have ofBody : assembler.phase.OfBody := by simp [AssemblerPhase.OfBody, phase]
      rcases sound.exists_stage_body ofBody with ⟨header, _, stage⟩
      rw [stage]
      exact Nat.sub_pos_of_lt (sound.length_body_lt_iff.mpr ofBody)
  | headerTimedOut | bodyTimedOut => simp [stage, phase, AssemblerStage.wanted, Header.length]

/-- The rounds use up the input, each of them some of it, and end where the assembler ends. -/
theorem takeAll_advances (sound : assembler.Sound) (awake : ¬assembler.phase.TimedOut)
    (input : Bytes) :
    ∃ next events, assembler.takeAll input = .ok (next, events) ∧ next.Sound ∧
      next.limits = assembler.limits ∧ (∀ event ∈ events, Sized assembler.limits event) ∧
      ∀ newestFirst, assembler.toAssembler.acceptInto newestFirst input =
        (next.toAssembler, newestFirst.reverse ++ events) := by
  induction size : input.length using Nat.strongRecOn generalizing assembler input with
  | ind length ih =>
      rw [takeAll]
      cases input with
      | nil => exact ⟨_, _, rfl, sound, rfl, by simp, by simp [Assembler.acceptInto]⟩
      | cons byte rest =>
          rcases sound.round_advances awake (List.cons_ne_nil byte rest) with
            ⟨next, event, done, advances⟩
          have positive := sound.wanted_pos
          have shorter : ((byte :: rest).drop assembler.stage.wanted).length <
              (byte :: rest).length := by
            simp only [List.length_drop, List.length_cons]
            omega
          rcases ih _ (size ▸ shorter) advances.sound advances.awake _ rfl with
            ⟨last, later, ends, lastSound, limits, sized, same⟩
          refine ⟨last, event.toList ++ later, ?_, lastSound, limits.trans advances.limits, ?_, ?_⟩
          · simp only [reduceCtorEq, if_false, done, bind, Except.bind, dif_pos shorter, ends, pure,
              Except.pure]
          · intro seen seenMem
            rcases List.mem_append.mp seenMem with now | afterwards
            · exact advances.sized seen (Option.mem_toList.mp now)
            · exact advances.limits ▸ sized seen afterwards
          · intro newestFirst
            have step := @Assembler.acceptInto_of_some assembler.toAssembler _ positive
              (List.cons_ne_nil byte rest) newestFirst
            rw [step, show assembler.toAssembler.stage = assembler.stage from rfl, advances.same, same]
            cases event <;> simp

end Sound

end BufferedAssembler

end SharedTree
