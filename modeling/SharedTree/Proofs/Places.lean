import Mathlib.Data.List.Basic

/-!
# Places in a list

A place in a list is given by what stands before it, at it and after it. Histories and logs are
taken apart at such places.
-/

namespace SharedTree

universe u

variable {α : Type u} {list earlier later otherEarlier otherLater : List α} {here there last : α}

/-- A place in a list that has grown by one is the last one, or it was a place before. -/
theorem concat_eq_split (split : list ++ [last] = earlier ++ here :: later) :
    later = [] ∧ list = earlier ∧ last = here ∨
      ∃ rest, later = rest ++ [last] ∧ list = earlier ++ here :: rest := by
  rcases List.eq_nil_or_concat' later with rfl | ⟨rest, final, rfl⟩
  · rcases List.append_inj' split rfl with ⟨rfl, same⟩
    exact .inl ⟨rfl, rfl, List.singleton_inj.mp same⟩
  · rw [← List.cons_append, ← List.append_assoc] at split
    rcases List.append_inj' split rfl with ⟨rfl, same⟩
    exact .inr ⟨rest, by rw [same], rfl⟩

/-- Two places in a list are the same, or one comes before the other. -/
theorem split_cases
    (split : earlier ++ here :: later = otherEarlier ++ there :: otherLater) :
    here = there ∨
      (∃ between, otherEarlier = earlier ++ here :: between ∧
        later = between ++ there :: otherLater) ∨
      ∃ between, earlier = otherEarlier ++ there :: between ∧
        otherLater = between ++ here :: later := by
  rcases List.append_eq_append_iff.mp split with ⟨rest, rfl, follows⟩ | ⟨rest, rfl, follows⟩
  · rcases List.cons_eq_append_iff.mp follows with ⟨rfl, same⟩ | ⟨between, rfl, same⟩
    · exact .inl (List.cons.inj same).1.symm
    · exact .inr (.inl ⟨between, rfl, same⟩)
  · rcases List.cons_eq_append_iff.mp follows with ⟨rfl, same⟩ | ⟨between, rfl, same⟩
    · exact .inl (List.cons.inj same).1
    · exact .inr (.inr ⟨between, rfl, same⟩)

end SharedTree
