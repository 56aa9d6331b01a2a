import SharedTree.Path
import Mathlib.Data.List.Basic
import Mathlib.Tactic.Common

/-!
# Path syntax

This file proves that splitting a path and writing its segments are inverse to each
other. `Path.IsSegment` says which texts are segments, without mentioning how a path
is split; `segments?_eq_some_iff` then characterizes every accepted path together
with its segments, so a path and its segment list determine each other.
-/

namespace SharedTree

namespace Path

/-- A text that may stand between two separators of a path. -/
def IsSegment (segment : String) : Prop :=
  segment ≠ "" ∧ '/' ∉ segment.toList ∧ segment.utf8ByteSize ≤ maxSegmentSize

theorem isSegment_iff (segment : String) (noSeparator : '/' ∉ segment.toList) :
    isSegment segment = true ↔ IsSegment segment := by
  simp [isSegment, IsSegment, noSeparator]

theorem pieces_cons (separator char : Char) (text : List Char) :
    pieces separator (char :: text) =
      if char = separator then [] :: pieces separator text
      else (char :: (pieces separator text).headD []) :: (pieces separator text).tail := rfl

theorem pieces_ne_nil (separator : Char) (text : List Char) : pieces separator text ≠ [] := by
  cases text with
  | nil => simp [pieces]
  | cons char rest =>
      rw [pieces_cons]
      split <;> simp

theorem not_mem_of_mem_pieces {separator : Char} {text part : List Char}
    (partMem : part ∈ pieces separator text) : separator ∉ part := by
  induction text generalizing part with
  | nil =>
      simp only [pieces, List.foldr_nil, List.mem_singleton] at partMem
      simp [partMem]
  | cons char rest ih =>
      rcases List.exists_cons_of_ne_nil (pieces_ne_nil separator rest) with
        ⟨first, others, split⟩
      rw [pieces_cons] at partMem
      rw [split] at ih partMem
      by_cases same : char = separator
      · simp only [same, if_true, List.mem_cons] at partMem
        rcases partMem with rfl | old
        · simp
        · exact ih (by simpa using old)
      · simp only [same, if_false, List.headD_cons, List.tail_cons, List.mem_cons] at partMem
        rcases partMem with rfl | old
        · have fresh : separator ∉ first := ih (by simp)
          simp only [List.mem_cons, not_or]
          exact ⟨fun equal => same equal.symm, fresh⟩
        · exact ih (by simp [old])

theorem flatMap_pieces (separator : Char) (text : List Char) :
    (pieces separator text).flatMap (separator :: ·) = separator :: text := by
  induction text with
  | nil => simp [pieces]
  | cons char rest ih =>
      rcases List.exists_cons_of_ne_nil (pieces_ne_nil separator rest) with
        ⟨first, others, split⟩
      rw [pieces_cons]
      rw [split] at ih ⊢
      simp only [List.flatMap_cons, List.cons_append, List.cons.injEq, true_and] at ih
      by_cases same : char = separator
      · simp [same, ih]
      · simp [same, ih]

theorem pieces_of_not_mem {separator : Char} {part : List Char} (fresh : separator ∉ part) :
    pieces separator part = [part] := by
  induction part with
  | nil => rfl
  | cons char rest ih =>
      simp only [List.mem_cons, not_or] at fresh
      rw [pieces_cons, if_neg (fun equal => fresh.1 equal.symm), ih fresh.2]
      simp

theorem pieces_append_separator {separator : Char} {part : List Char} (rest : List Char)
    (fresh : separator ∉ part) :
    pieces separator (part ++ separator :: rest) = part :: pieces separator rest := by
  induction part with
  | nil => simp [pieces_cons]
  | cons char others ih =>
      simp only [List.mem_cons, not_or] at fresh
      rw [List.cons_append, pieces_cons, if_neg (fun equal => fresh.1 equal.symm), ih fresh.2]
      simp

theorem pieces_join (separator : Char) (first : List Char) (others : List (List Char))
    (fresh : ∀ part ∈ first :: others, separator ∉ part) :
    pieces separator (first ++ others.flatMap (separator :: ·)) = first :: others := by
  induction others generalizing first with
  | nil => simpa using pieces_of_not_mem (fresh first (by simp))
  | cons second rest ih =>
      rw [List.flatMap_cons, List.cons_append,
        pieces_append_separator _ (fresh first (by simp)),
        ih second (fun part partMem => fresh part (List.mem_cons_of_mem _ partMem))]

theorem toList_ofSegments (segments : List String) (nonempty : segments ≠ []) :
    (ofSegments segments).toList = segments.flatMap fun segment => '/' :: segment.toList := by
  cases segments with
  | nil => exact absurd rfl nonempty
  | cons first others => simp [ofSegments, String.toList_join, List.flatMap_map]

theorem eq_ofSegments_of_segments? {path : String} {segments : List String}
    (accepted : segments? path = some segments) :
    path = ofSegments segments ∧ ∀ segment ∈ segments, IsSegment segment := by
  unfold segments? at accepted
  split at accepted
  · cases accepted
  · next first rest textEq =>
    split at accepted
    · cases accepted
    · next firstEq =>
      simp only [ne_eq, not_not] at firstEq
      subst firstEq
      split at accepted
      · next restEmpty =>
        simp only [Option.some.injEq] at accepted
        subst accepted
        rw [List.isEmpty_iff.mp restEmpty] at textEq
        refine ⟨String.toList_injective ?_, by simp⟩
        rw [textEq]
        rfl
      · dsimp only at accepted
        split at accepted
        · next allSegments =>
          simp only [Option.some.injEq] at accepted
          have nonempty : segments ≠ [] := by
            rw [← accepted]
            simpa using pieces_ne_nil '/' rest
          constructor
          · apply String.toList_injective
            rw [textEq, toList_ofSegments _ nonempty, ← accepted, List.flatMap_map,
              ← flatMap_pieces '/' rest]
            simp
          · intro segment segmentMem
            rw [← accepted] at segmentMem
            have isSegment := List.all_eq_true.mp allSegments segment segmentMem
            rcases List.mem_map.mp segmentMem with ⟨part, partMem, rfl⟩
            refine (isSegment_iff _ ?_).mp isSegment
            simpa using not_mem_of_mem_pieces partMem
        · cases accepted

theorem pieces_toList_join {first : String} {others : List String}
    (valid : ∀ segment ∈ first :: others, IsSegment segment) :
    pieces '/' (first.toList ++ others.flatMap fun segment => '/' :: segment.toList) =
      (first :: others).map String.toList := by
  have joined := pieces_join '/' first.toList (others.map String.toList) (by
    intro part partMem
    rcases List.mem_cons.mp partMem with rfl | old
    · exact (valid first (by simp)).2.1
    · rcases List.mem_map.mp old with ⟨segment, segmentMem, rfl⟩
      exact (valid segment (List.mem_cons_of_mem _ segmentMem)).2.1)
  simpa [List.flatMap_map] using joined

theorem segments?_ofSegments {segments : List String}
    (valid : ∀ segment ∈ segments, IsSegment segment) :
    segments? (ofSegments segments) = some segments := by
  cases segments with
  | nil => rfl
  | cons first others =>
      have textEq := toList_ofSegments (first :: others) (by simp)
      have firstNonempty : first.toList ≠ [] := by
        simpa using (valid first (by simp)).1
      have accepted : (first :: others).all isSegment = true := by
        rw [List.all_eq_true]
        intro segment segmentMem
        have segmentValid := valid segment segmentMem
        exact (isSegment_iff segment segmentValid.2.1).mpr segmentValid
      have mapped : ((first :: others).map String.toList).map String.ofList = first :: others := by
        simp [Function.comp_def]
      unfold segments?
      rw [textEq]
      simp only [List.flatMap_cons, List.cons_append, ne_eq, not_true, if_false]
      rw [pieces_toList_join valid, mapped]
      simp [firstNonempty, accepted]

/-- The segments of a path are given by the grammar of paths: a path is the root, or a separator
in front of each of its segments, all of which are segments. -/
theorem segments?_eq_some_iff (path : String) (segments : List String) :
    segments? path = some segments ↔
      path = ofSegments segments ∧ ∀ segment ∈ segments, IsSegment segment := by
  constructor
  · exact eq_ofSegments_of_segments?
  · rintro ⟨rfl, valid⟩
    exact segments?_ofSegments valid

theorem isSegment_of_segments? {path segment : String} {segments : List String}
    (accepted : segments? path = some segments) (segmentMem : segment ∈ segments) :
    IsSegment segment :=
  (eq_ofSegments_of_segments? accepted).2 segment segmentMem

end Path

end SharedTree
