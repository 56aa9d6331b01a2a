import SharedTree.Basic

/-!
# Operations that may fail

An operation works on a state step by step, and any step may fail. What has been done to the state by then
is not undone. That a failure leaves the state as it was is therefore nothing that the type of an operation
promises; where it is so, it is a theorem.
-/

namespace SharedTree

/-- A computation on a state of type `σ` that may fail with an error of type `ε`. -/
abbrev Operation (ε σ : Type) := ExceptT ε (StateM σ)

namespace Operation

variable {ε σ α : Type}

/-- The outcome of an operation, and the state that it leaves, also when it fails. -/
def on (operation : Operation ε σ α) (state : σ) : Except ε α × σ := operation.run.run state

/-- Goes on with what was found, or fails. -/
def require (found : Option α) (error : ε) : Operation ε σ α :=
  match found with
  | some value => pure value
  | none => throw error

/-- Fails if a condition holds. -/
def refuseIf (condition : Prop) [Decidable condition] (error : ε) : Operation ε σ Unit :=
  if condition then throw error else pure ()

end Operation

end SharedTree
