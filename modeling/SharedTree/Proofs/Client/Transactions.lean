import Mathlib.Tactic.Common
import SharedTree.Client.Basic

/-!
# Transaction ids

The ids that a counter yields follow each other in a cycle of all ids but the one of unsolicited
messages. Two of them are the same only if a whole cycle lies between them.
-/

namespace SharedTree

/-- How many ids there are besides the one of unsolicited messages. -/
def transactionCount : Nat := 4294967295

/-- The id at a place of the endless sequence of ids that begins with 0. -/
def nthTransaction (place : Nat) : TransactionId := UInt32.ofNat (place % transactionCount)

theorem toNat_nthTransaction (place : Nat) :
    (nthTransaction place).toNat = place % transactionCount := by
  rw [nthTransaction, UInt32.toNat_ofNat']
  unfold transactionCount
  omega

theorem toNat_lt_transactionCount {transaction : TransactionId} (other : transaction ≠ unsolicited) :
    transaction.toNat < transactionCount := by
  have below : transaction.toNat < 4294967296 := transaction.toNat_lt
  have notLast : transaction.toNat ≠ 4294967295 := fun same => other (UInt32.toNat_inj.mp same)
  unfold transactionCount
  omega

theorem nthTransaction_toNat {transaction : TransactionId} (other : transaction ≠ unsolicited) :
    nthTransaction transaction.toNat = transaction := by
  rw [← UInt32.toNat_inj, toNat_nthTransaction, Nat.mod_eq_of_lt (toNat_lt_transactionCount other)]

theorem nthTransaction_inj {first second : Nat} :
    nthTransaction first = nthTransaction second ↔
      first % transactionCount = second % transactionCount := by
  rw [← UInt32.toNat_inj, toNat_nthTransaction, toNat_nthTransaction]

/-- Less than a cycle apart, ids are different. -/
theorem nthTransaction_ne {first second : Nat} (before : first < second)
    (near : second - first < transactionCount) :
    nthTransaction first ≠ nthTransaction second := by
  intro same
  rw [nthTransaction_inj] at same
  unfold transactionCount at same near
  omega

theorem drawTransaction_spec (counter : UInt32) :
    (drawTransaction counter).1 ≠ unsolicited ∧
      (drawTransaction counter).2 = (drawTransaction counter).1 + 1 := by
  unfold drawTransaction
  split
  · next other => exact ⟨other, rfl⟩
  · next isLast =>
    rw [not_not.mp isLast]
    exact ⟨by decide, by decide⟩

theorem drawTransaction_ne (counter : UInt32) : (drawTransaction counter).2 ≠ counter := by
  unfold drawTransaction
  split
  · simp
  · simp

/-- Behind an id comes the number after it, or the one after that. -/
theorem toNat_drawTransaction_add_one {transaction : TransactionId}
    (other : transaction ≠ unsolicited) :
    (drawTransaction (transaction + 1)).1.toNat =
      (transaction.toNat + 1) % transactionCount := by
  have below : transaction.toNat < 4294967295 := toNat_lt_transactionCount other
  have follows : (transaction + 1).toNat = transaction.toNat + 1 := by
    rw [UInt32.toNat_add]
    show (transaction.toNat + 1) % 4294967296 = _
    omega
  unfold drawTransaction transactionCount
  split
  · next ordinary =>
    have notEnd : (transaction + 1).toNat ≠ 4294967295 := fun same =>
      ordinary (UInt32.toNat_inj.mp same)
    show (transaction + 1).toNat = _
    omega
  · next isLast =>
    rw [not_not] at isLast
    have atEnd : transaction.toNat + 1 = 4294967295 := by
      rw [← follows, isLast]
      rfl
    rw [isLast, atEnd]
    rfl

/-- A counter that yields the id at a place yields the id at the next place afterwards. -/
theorem drawTransaction_next {counter : UInt32} {place : Nat}
    (yields : (drawTransaction counter).1 = nthTransaction place) :
    (drawTransaction (drawTransaction counter).2).1 = nthTransaction (place + 1) := by
  rcases drawTransaction_spec counter with ⟨other, follows⟩
  rw [← UInt32.toNat_inj, follows, toNat_drawTransaction_add_one other, yields,
    toNat_nthTransaction, toNat_nthTransaction]
  unfold transactionCount
  omega

end SharedTree
