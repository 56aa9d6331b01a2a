import SharedTree.Operation

/-!
# Operations that leave the state alone when they fail

`Operation.on` says what an operation does to a state; this file computes it for the steps that
operations consist of. An operation is framed when it leaves the state as it was if it fails.
Whatever is decided by looking only is framed, and so is whatever cannot fail; an operation that
first looks, then does something framed, and then only what cannot fail, is framed as a whole.
-/

namespace SharedTree

namespace Operation

variable {ε σ α β : Type}

/-! ## Running -/

theorem on_pure (value : α) (state : σ) :
    (pure value : Operation ε σ α).on state = (.ok value, state) := rfl

theorem on_bind (operation : Operation ε σ α) (next : α → Operation ε σ β) (state : σ) :
    (operation >>= next).on state =
      match operation.on state with
      | (.ok value, later) => (next value).on later
      | (.error error, later) => (.error error, later) := by
  simp only [on, ExceptT.run_bind, StateT.run_bind]
  rcases operation.run.run state with ⟨_ | _, later⟩ <;> rfl

/-- What follows a step that succeeds goes on from where the step leaves the state. -/
theorem on_bind_of_ok {operation : Operation ε σ α} {value : α} {state later : σ}
    (ok : operation.on state = (.ok value, later)) (next : α → Operation ε σ β) :
    (operation >>= next).on state = (next value).on later := by
  rw [on_bind, ok]

theorem on_get_bind (next : σ → Operation ε σ β) (state : σ) :
    (get >>= next).on state = (next state).on state := on_bind_of_ok rfl next

theorem on_set_bind (later : σ) (next : PUnit → Operation ε σ β) (state : σ) :
    (set later >>= next).on state = (next ()).on later := on_bind_of_ok rfl next

theorem on_modify_bind (step : σ → σ) (next : PUnit → Operation ε σ β) (state : σ) :
    (modify step >>= next).on state = (next ()).on (step state) := on_bind_of_ok rfl next

theorem on_require_bind (found : Option α) (error : ε) (next : α → Operation ε σ β) (state : σ) :
    (require found error >>= next).on state =
      match found with
      | none => (.error error, state)
      | some value => (next value).on state := by
  rw [on_bind]
  cases found <;> rfl

theorem on_ofExcept_bind (computed : Except ε α) (next : α → Operation ε σ β) (state : σ) :
    (ofExcept computed >>= next).on state =
      match computed with
      | .error error => (.error error, state)
      | .ok value => (next value).on state := by
  rw [on_bind]
  cases computed <;> rfl

theorem on_refuseIf_bind (condition : Prop) [Decidable condition] (error : ε)
    (next : Unit → Operation ε σ β) (state : σ) :
    (refuseIf condition error >>= next).on state =
      if condition then (.error error, state) else (next ()).on state := by
  rw [on_bind, refuseIf]
  by_cases holds : condition
  · rw [if_pos holds, if_pos holds]
    rfl
  · rw [if_neg holds, if_neg holds]
    rfl

/-! ## Failing without a trace -/

/-- The operation leaves the state as it is. -/
def Looks (operation : Operation ε σ α) : Prop := ∀ state, (operation.on state).2 = state

/-- The operation cannot fail. -/
def Succeeds (operation : Operation ε σ α) : Prop :=
  ∀ state, ∃ value, (operation.on state).1 = .ok value

/-- The operation leaves the state as it was if it fails. -/
def Framed (operation : Operation ε σ α) : Prop :=
  ∀ state error, (operation.on state).1 = .error error → (operation.on state).2 = state

theorem looks_get : (get : Operation ε σ σ).Looks := fun _ => rfl

theorem looks_require (found : Option α) (error : ε) :
    (require found error : Operation ε σ α).Looks := by
  intro state
  cases found <;> rfl

theorem looks_ofExcept (computed : Except ε α) : (ofExcept computed : Operation ε σ α).Looks := by
  intro state
  cases computed <;> rfl

theorem looks_refuseIf (condition : Prop) [Decidable condition] (error : ε) :
    (refuseIf condition error : Operation ε σ Unit).Looks := by
  intro state
  unfold refuseIf
  split <;> rfl

theorem succeeds_pure (value : α) : (pure value : Operation ε σ α).Succeeds :=
  fun _ => ⟨value, rfl⟩

theorem succeeds_modify (step : σ → σ) : (modify step : Operation ε σ PUnit).Succeeds :=
  fun _ => ⟨(), rfl⟩

/-- What cannot fail with a trace succeeds or leaves the state as it was. -/
theorem outcome_cases {outcome : Except ε α × σ} {state : σ}
    (framed : ∀ error, outcome.1 = .error error → outcome.2 = state) :
    (∃ value next, outcome = (.ok value, next)) ∨ outcome.2 = state := by
  rcases outcome with ⟨error | value, next⟩
  · exact Or.inr (framed error rfl)
  · exact Or.inl ⟨value, next, rfl⟩

section Bind

variable {operation : Operation ε σ α} {next : α → Operation ε σ β}

theorem Succeeds.bind (first : operation.Succeeds) (others : ∀ value, (next value).Succeeds) :
    (operation >>= next).Succeeds := by
  intro state
  rcases first state with ⟨value, ok⟩
  rw [on_bind_of_ok (Prod.ext ok rfl)]
  exact others value _

theorem Looks.framed (looks : operation.Looks) : operation.Framed := fun state _ _ => looks state

/-- Looking first does no harm. -/
theorem Looks.bind_framed (looks : operation.Looks) (framed : ∀ value, (next value).Framed) :
    (operation >>= next).Framed := by
  intro state error failed
  have same := looks state
  rw [on_bind] at failed ⊢
  generalize operation.on state = ran at same failed ⊢
  rcases ran with ⟨_ | value, later⟩
  · exact same
  · cases same
    exact framed value _ error failed

/-- What comes last may change the state, if it cannot fail. -/
theorem Framed.bind_succeeds (framed : operation.Framed) (others : ∀ value, (next value).Succeeds) :
    (operation >>= next).Framed := by
  intro state error failed
  have same := framed state
  rw [on_bind] at failed ⊢
  generalize operation.on state = ran at same failed ⊢
  rcases ran with ⟨_ | value, later⟩
  · exact same _ rfl
  · rcases others value later with ⟨result, ok⟩
    cases ok.symm.trans failed

end Bind

end Operation

end SharedTree
