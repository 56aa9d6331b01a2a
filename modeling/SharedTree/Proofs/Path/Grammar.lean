import SharedTree.Proofs.Path
import SharedTree.Proofs.Tree.Operations

/-!
# The grammar of paths

`Path.Spells` is the grammar: the root is written `/`, every other path as a `/` in front of each of its
segments. A text is split into segments exactly if the grammar writes it so, and every other text is
malformed to all operations on a tree.

The grammar is unambiguous, so paths may be compared by their segments. `Path.Extends` says of two texts
that the first goes on where the second ends; of paths this is so exactly if the segments of the second
are the first segments of the other.
-/

namespace SharedTree

namespace Path

variable {path base : String} {segments above : List String}

/-- How the path with the given segments is written. -/
inductive Spells : String → List String → Prop
  | root : Spells "/" []
  | below {segments : List String} (some : segments ≠ [])
      (valid : ∀ segment ∈ segments, IsSegment segment) :
      Spells (String.join (segments.map ("/" ++ ·))) segments

/-- A path goes on where another one ends, or ends there too. Every path goes on behind the root. -/
def Extends (path base : String) : Prop :=
  base = "/" ∨ path = base ∨ ∃ rest, path = base ++ "/" ++ rest

theorem spells_iff :
    Spells path segments ↔
      path = ofSegments segments ∧ ∀ segment ∈ segments, IsSegment segment := by
  constructor
  · intro spells
    cases spells with
    | root => exact ⟨rfl, by simp⟩
    | below some valid =>
        refine ⟨?_, valid⟩
        cases segments with
        | nil => exact absurd rfl some
        | cons first others => rfl
  · rintro ⟨rfl, valid⟩
    cases segments with
    | nil => exact .root
    | cons first others => exact .below (List.cons_ne_nil first others) valid

theorem segments?_eq_some_iff_spells : segments? path = some segments ↔ Spells path segments := by
  rw [segments?_eq_some_iff, spells_iff]

theorem ofSegments_inj (valid : ∀ segment ∈ segments, IsSegment segment)
    (validAbove : ∀ segment ∈ above, IsSegment segment) :
    ofSegments segments = ofSegments above ↔ segments = above := by
  constructor
  · intro same
    have accepted := segments?_ofSegments valid
    rw [same, segments?_ofSegments validAbove] at accepted
    exact (Option.some.inj accepted).symm
  · exact congrArg ofSegments

/-! ## Going on behind a path -/

/-- Parts are found independently on both sides of a separator. -/
theorem pieces_append (separator : Char) (text rest : List Char) :
    pieces separator (text ++ separator :: rest) =
      pieces separator text ++ pieces separator rest := by
  induction text with
  | nil => simp [pieces]
  | cons char others ih =>
      rcases List.exists_cons_of_ne_nil (pieces_ne_nil separator others) with
        ⟨first, parts, split⟩
      rw [List.cons_append, pieces_cons, pieces_cons, ih, split]
      by_cases same : char = separator
      · simp [same]
      · simp [same]

theorem pieces_tail_ofSegments (some : segments ≠ [])
    (valid : ∀ segment ∈ segments, IsSegment segment) :
    pieces '/' (ofSegments segments).toList.tail = segments.map String.toList := by
  rw [toList_ofSegments segments some]
  cases segments with
  | nil => exact absurd rfl some
  | cons first others => exact pieces_toList_join valid

theorem extends_of_prefix (leads : above <+: segments) :
    Extends (ofSegments segments) (ofSegments above) := by
  rcases leads with ⟨more, rfl⟩
  by_cases atRoot : above = []
  · exact .inl (by rw [atRoot]; rfl)
  · cases more with
    | nil => exact .inr (.inl (by rw [List.append_nil]))
    | cons next others =>
        refine .inr (.inr ⟨String.ofList
          (next.toList ++ others.flatMap fun segment => '/' :: segment.toList), ?_⟩)
        apply String.toList_injective
        simp [toList_ofSegments, atRoot]

theorem prefix_of_extends (valid : ∀ segment ∈ segments, IsSegment segment)
    (validAbove : ∀ segment ∈ above, IsSegment segment)
    (goesOn : Extends (ofSegments segments) (ofSegments above)) : above <+: segments := by
  rcases goesOn with atRoot | same | ⟨rest, whole⟩
  · have rootEq : ofSegments above = ofSegments [] := atRoot
    rw [(ofSegments_inj validAbove (by simp)).mp rootEq]
    exact List.nil_prefix
  · have equal := (ofSegments_inj valid validAbove).mp same
    exact equal ▸ List.prefix_rfl
  · by_cases atRoot : above = []
    · rw [atRoot]
      exact List.nil_prefix
    have text : (ofSegments segments).toList.tail =
        (ofSegments above).toList.tail ++ '/' :: rest.toList := by
      rcases List.exists_cons_of_ne_nil atRoot with ⟨first, others, rfl⟩
      simp [whole, toList_ofSegments]
    have some : segments ≠ [] := by
      rintro rfl
      have impossible : '/' ∈ (ofSegments []).toList.tail := by simp [text]
      simp [ofSegments] at impossible
    -- What stands between the separators of the longer text begins with what does in the shorter one.
    have parts := pieces_tail_ofSegments some valid
    rw [text, pieces_append, pieces_tail_ofSegments atRoot validAbove] at parts
    rw [← List.prefix_map_iff_of_injective (fun _ _ => String.toList_injective), ← parts]
    exact List.prefix_append _ _

theorem extends_iff (accepted : segments? path = some segments)
    (acceptedAbove : segments? base = some above) : Extends path base ↔ above <+: segments := by
  rcases eq_ofSegments_of_segments? accepted with ⟨rfl, valid⟩
  rcases eq_ofSegments_of_segments? acceptedAbove with ⟨rfl, validAbove⟩
  exact ⟨prefix_of_extends valid validAbove, extends_of_prefix⟩

end Path

/-! ## Malformed paths -/

namespace Tree

open SharedTree.Path (segments?)

variable {tree : Tree} {path : String} {kind : PropertyKind} {payload : Bytes} {owner : SessionId}

theorem find_malformed_iff :
    tree.find path = .error .malformedPath ↔ segments? path = none := by
  unfold find
  cases segments? path with
  | none => simp
  | some segments =>
      dsimp only
      split <;> simp

theorem place_malformed_iff (tree : Tree) (path : String) (kind : PropertyKind) (payload : Bytes) :
    tree.place path kind payload = .error .malformedPath ↔ segments? path = none := by
  unfold place
  cases segments? path with
  | none => simp
  | some segments =>
      dsimp only
      repeat' split
      all_goals simp

theorem target_malformed_iff (tree : Tree) (path : String) :
    tree.target path = .error .malformedPath ↔ segments? path = none := by
  unfold target
  cases segments? path with
  | none => simp
  | some segments =>
      dsimp only
      repeat' split
      all_goals simp

theorem create_malformed_iff :
    (tree.create path kind payload owner).1 = .error .malformedPath ↔ segments? path = none := by
  rw [create_eq, ← tree.place_malformed_iff path kind payload]
  cases placed : tree.place path kind payload with
  | error error => simp
  | ok place => rcases tree.pool.take tree.exists? with ⟨_ | _, pool⟩ <;> simp

theorem delete_malformed_iff :
    (tree.delete path).1 = .error .malformedPath ↔ segments? path = none := by
  rw [delete_eq, ← tree.target_malformed_iff path]
  cases tree.target path <;> simp

end Tree

/-! ## Paths and their segments -/

namespace Path

/-- The texts that the grammar writes are the paths, each with its segments, and an operation on a tree
finds a path malformed exactly if it is no such text. Different paths have different segments, and every
list of segments belongs to exactly one path. One path extends another exactly if the segments of the
other are the first of its own. -/
theorem spelled_uniquely :
    (∀ path segments, segments? path = some segments ↔ Spells path segments) ∧
    (∀ path, segments? path = none ↔ ∀ segments, ¬Spells path segments) ∧
    (∀ (tree : Tree) (path : String) kind payload owner,
      (tree.find path = .error .malformedPath ↔ segments? path = none) ∧
      ((tree.create path kind payload owner).1 = .error .malformedPath ↔ segments? path = none) ∧
      ((tree.delete path).1 = .error .malformedPath ↔ segments? path = none)) ∧
    (∀ path other, segments? path ≠ none → path ≠ other → segments? path ≠ segments? other) ∧
    (∀ segments, (∀ segment ∈ segments, IsSegment segment) →
      ∃! path, segments? path = some segments) ∧
    (∀ path base segments above, segments? path = some segments → segments? base = some above →
      (Extends path base ↔ above <+: segments)) := by
  refine ⟨fun path segments => segments?_eq_some_iff_spells, ?_, ?_, ?_, ?_, ?_⟩
  · intro path
    simp only [Option.eq_none_iff_forall_ne_some, ne_eq, segments?_eq_some_iff_spells]
  · intro tree path kind payload owner
    exact ⟨Tree.find_malformed_iff, Tree.create_malformed_iff, Tree.delete_malformed_iff⟩
  · intro path other isPath different same
    rcases Option.ne_none_iff_exists'.mp isPath with ⟨segments, accepted⟩
    apply different
    calc path = ofSegments segments := (eq_ofSegments_of_segments? accepted).1
      _ = other := (eq_ofSegments_of_segments? (same ▸ accepted)).1.symm
  · intro segments valid
    refine ⟨ofSegments segments, segments?_ofSegments valid, ?_⟩
    intro path accepted
    exact (eq_ofSegments_of_segments? accepted).1
  · intro path base segments above
    exact extends_iff

/-- A segment is measured in bytes: 128 letters of two bytes each are too long. -/
theorem spelled_uniquely_accented :
    (∀ segments, ¬Spells ("/" ++ String.ofList (List.replicate 128 'é')) segments) ∧
      Spells ("/" ++ String.ofList (List.replicate 127 'é') ++ "/b")
        [String.ofList (List.replicate 127 'é'), "b"] ∧
      Extends "/é/b" "/é" ∧ ¬Extends "/éb" "/é" := by
  rcases spelled_uniquely with ⟨written, malformed, _, _, _, extension⟩
  have single : segments? "/é" = some ["é"] := by decide +kernel
  have double : segments? "/é/b" = some ["é", "b"] := by decide +kernel
  have joined : segments? "/éb" = some ["éb"] := by decide +kernel
  have front (part : List Char) : ("/" ++ String.ofList part).toList = '/' :: part := by simp
  refine ⟨(malformed _).mp ?_, (written _ _).mp ?_, ?_, ?_⟩
  · rw [segments?, front]
    decide +kernel
  · rw [segments?, String.toList_append, front]
    decide +kernel
  · exact (extension _ _ _ _ double single).mpr (by decide)
  · rw [extension _ _ _ _ joined single]
    decide +kernel

end Path

end SharedTree
