import Mathlib.Tactic.Common
import SharedTree.Wire.Stream

/-!
# Streams that go on

A reader of a stream never takes anything back: what it has reported of the beginning of a
stream it reports of the whole, and the bytes that were no event yet are read again together
with those that follow them. So a stream may be read in two parts, with the unfinished
message of the first part put in front of the second.
-/

namespace SharedTree

namespace Bytes

variable {size : Nat} {bytes front rest : Bytes}

theorem split?_eq_none_iff : split? size bytes = none ↔ bytes.length < size := by
  simp only [split?, List.length_take]
  split <;> simp <;> omega

theorem split?_append_self (front rest : Bytes) :
    split? front.length (front ++ rest) = some (front, rest) := by
  simp [split?]

theorem split?_append (found : split? size bytes = some (front, rest)) (more : Bytes) :
    split? size (bytes ++ more) = some (front, rest ++ more) := by
  rcases split?_eq_some found with ⟨rfl, rfl⟩
  simp [split?_append_self]

end Bytes

namespace Stream

variable {maxBody : Nat} {front bytes rest : Bytes} {event : AssemblerEvent}

theorem next?_of_short (short : bytes.length < Header.length) : next? maxBody bytes = none := by
  simp [next?, Bytes.split?_eq_none_iff.mpr short]

/-- What the header in front of a stream makes of the bytes behind it. -/
theorem next?_of_header (maxBody : Nat) (whole : front.length = Header.length) (behind : Bytes) :
    next? maxBody (front ++ behind) =
      match (Header.ofBytes front).bodySize with
      | .error _ => some (.gaveUp (.undersized (Header.ofBytes front).size.toNat), behind)
      | .ok declared =>
        if maxBody < declared then some (.gaveUp (.oversized declared maxBody), behind)
        else (behind.split? declared).map fun parts =>
          (.completed { header := Header.ofBytes front, body := parts.1 }, parts.2) := by
  have cut := Bytes.split?_append_self front behind
  simp only [whole] at cut
  simp only [next?, cut]
  cases (Header.ofBytes front).bodySize with
  | error failure => rfl
  | ok declared =>
      dsimp only
      split
      · rfl
      · cases behind.split? declared <;> rfl

theorem exists_header_of_long (long : Header.length ≤ bytes.length) :
    ∃ front behind, front.length = Header.length ∧ bytes = front ++ behind :=
  ⟨bytes.take Header.length, bytes.drop Header.length, by simp [long],
    (List.take_append_drop _ _).symm⟩

/-- An event stays the first of a stream that goes on. -/
theorem next?_append (found : next? maxBody bytes = some (event, rest)) (more : Bytes) :
    next? maxBody (bytes ++ more) = some (event, rest ++ more) := by
  have long : Header.length ≤ bytes.length := by
    by_contra short
    simp [next?_of_short (Nat.lt_of_not_le short)] at found
  rcases exists_header_of_long long with ⟨front, behind, whole, rfl⟩
  simp only [List.append_assoc, next?_of_header maxBody whole] at found ⊢
  cases declares : (Header.ofBytes front).bodySize with
  | error failure =>
      simp only [declares, Option.some.injEq, Prod.mk.injEq] at found ⊢
      rcases found with ⟨same, rfl⟩
      exact ⟨same, rfl⟩
  | ok declared =>
      simp only [declares] at found ⊢
      split at found
      · next tooLong =>
        simp only [Option.some.injEq, Prod.mk.injEq] at found
        rcases found with ⟨rfl, rfl⟩
        simp [tooLong]
      · next allowed =>
        rcases Option.map_eq_some_iff.mp found with ⟨⟨body, left⟩, cut, made⟩
        simp only [Prod.mk.injEq] at made
        rcases made with ⟨rfl, rfl⟩
        simp [allowed, Bytes.split?_append cut more]

/-- A stream without an event breaks off in a header, or in a body that is allowed. -/
theorem next?_eq_none_iff : next? maxBody bytes = none ↔ bytes.length < Header.length ∨
    ∃ front behind declared, bytes = front ++ behind ∧ front.length = Header.length ∧
      (Header.ofBytes front).bodySize = .ok declared ∧ declared ≤ maxBody ∧
      behind.length < declared := by
  constructor
  · intro unfinished
    by_cases short : bytes.length < Header.length
    · exact Or.inl short
    · right
      rcases exists_header_of_long (Nat.le_of_not_lt short) with ⟨front, behind, whole, rfl⟩
      rw [next?_of_header maxBody whole] at unfinished
      cases declares : (Header.ofBytes front).bodySize with
      | error failure => simp [declares] at unfinished
      | ok declared =>
          simp only [declares] at unfinished
          split at unfinished
          · cases unfinished
          · next allowed =>
            refine ⟨front, behind, declared, rfl, whole, declares, Nat.le_of_not_lt allowed, ?_⟩
            simpa [Bytes.split?_eq_none_iff] using unfinished
  · rintro (short | ⟨front, behind, declared, rfl, whole, declares, allowed, incomplete⟩)
    · exact next?_of_short short
    · simp [next?_of_header maxBody whole, declares, Nat.not_lt.mpr allowed,
        Bytes.split?_eq_none_iff.mpr incomplete]

@[simp] theorem next?_nil : next? maxBody [] = none := next?_of_short (by decide)

theorem parse_of_next?_none (unfinished : next? maxBody bytes = none) :
    parse maxBody bytes = ([], bytes) := by
  rw [parse]
  split
  · rfl
  · next found =>
    rw [unfinished] at found
    cases found

theorem parse_of_next?_some (found : next? maxBody bytes = some (event, rest)) :
    parse maxBody bytes = (event :: (parse maxBody rest).1, (parse maxBody rest).2) := by
  rw [parse]
  split
  · next unfinished =>
    rw [unfinished] at found
    cases found
  · next same =>
    rw [found] at same
    cases same
    rfl

/-- No event is left in what a reader leaves. -/
theorem next?_parse (maxBody : Nat) (bytes : Bytes) :
    next? maxBody (parse maxBody bytes).2 = none := by
  induction bytes using parse.induct maxBody with
  | case1 bytes unfinished =>
      simpa [parse_of_next?_none unfinished] using unfinished
  | case2 bytes event rest found shorter events left parsed ih =>
      simpa [parse_of_next?_some found] using ih

/-- A stream may be read in two parts. -/
theorem parse_append (maxBody : Nat) (bytes more : Bytes) :
    parse maxBody (bytes ++ more) =
      ((parse maxBody bytes).1 ++ (parse maxBody ((parse maxBody bytes).2 ++ more)).1,
        (parse maxBody ((parse maxBody bytes).2 ++ more)).2) := by
  induction bytes using parse.induct maxBody with
  | case1 bytes unfinished => simp [parse_of_next?_none unfinished]
  | case2 bytes event rest found shorter events left parsed ih =>
      simp [parse_of_next?_some found, parse_of_next?_some (next?_append found more), ih]

end Stream

end SharedTree
