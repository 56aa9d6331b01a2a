import Mathlib.Data.List.Induction
import Mathlib.Data.List.Nodup
import Mathlib.Data.List.Perm.Subperm
import SharedTree.Proofs.Client.Transactions

/-!
# Drawing transaction ids

A draw increments the counter until what stood there is not the id of unsolicited messages. Draws that
follow each other run through the cycle of all other ids, wherever the counter stands at first. An id
comes back only after a whole cycle, `DrawRuns.unrepeated`.

Draws overlap when the increments of one fall between those of another. They yield what draws that follow
each other yield, `Overlaps.exists_drawRuns`, so that their ids are different as well,
`Overlaps.distinct`.
-/

namespace SharedTree

/-! ## One draw -/

/-- A draw by increments of the counter. Each yields what stood there; the draw goes on as long as that is
the id of unsolicited messages. -/
inductive Draws : UInt32 → Nat → TransactionId → UInt32 → Prop where
  | ends {counter : UInt32} (other : counter ≠ unsolicited) :
      Draws counter 1 counter (counter + 1)
  | passes {counter : UInt32} {increments : Nat} {transaction : TransactionId} {after : UInt32}
      (last : counter = unsolicited) (rest : Draws (counter + 1) increments transaction after) :
      Draws counter (increments + 1) transaction after

theorem draws_iff {counter : UInt32} {increments : Nat} {transaction : TransactionId} {after : UInt32} :
    Draws counter increments transaction after ↔
      increments = (if counter = unsolicited then 2 else 1) ∧
        drawTransaction counter = (transaction, after) := by
  constructor
  · intro draws
    cases draws with
    | ends other => simp [drawTransaction, other]
    | passes last rest =>
        subst last
        cases rest with
        | ends => exact ⟨rfl, rfl⟩
        | passes again => exact absurd again (by decide)
  · rintro ⟨rfl, drawn⟩
    by_cases last : counter = unsolicited
    · subst last
      cases drawn
      exact .passes rfl (.ends (by decide))
    · simp only [drawTransaction, ne_eq, last, not_false_eq_true, if_true, Prod.mk.injEq] at drawn
      rcases drawn with ⟨rfl, rfl⟩
      rw [if_neg last]
      exact .ends last

theorem Draws.spec {counter : UInt32} {increments : Nat} {transaction : TransactionId} {after : UInt32}
    (draws : Draws counter increments transaction after) :
    increments ≤ 2 ∧ transaction ≠ unsolicited := by
  rcases draws_iff.mp draws with ⟨rfl, drawn⟩
  have other := (drawTransaction_spec counter).1
  rw [drawn] at other
  refine ⟨?_, other⟩
  split
  · decide
  · decide

/-! ## The cycle of ids -/

/-- The ids at a row of places. -/
def transactionsFrom (place count : Nat) : List TransactionId :=
  (List.range count).map fun step => nthTransaction (place + step)

theorem transactionsFrom_add_one (place count : Nat) :
    transactionsFrom place (count + 1) =
      transactionsFrom place count ++ [nthTransaction (place + count)] := by
  simp [transactionsFrom, List.range_succ]

/-- A row of ids repeats none as long as it is no longer than the cycle. -/
theorem nodup_transactionsFrom_iff (place count : Nat) :
    (transactionsFrom place count).Nodup ↔ count ≤ transactionCount := by
  rw [transactionsFrom, List.nodup_map_iff_inj_on List.nodup_range]
  constructor
  · intro apart
    by_contra more
    have zero : 0 ∈ List.range count := List.mem_range.mpr (by omega)
    have cycle : transactionCount ∈ List.range count := List.mem_range.mpr (by omega)
    have same : nthTransaction (place + 0) = nthTransaction (place + transactionCount) :=
      nthTransaction_inj.mpr (Nat.add_mod_right place transactionCount).symm
    exact absurd (apart 0 zero transactionCount cycle same) (by decide)
  · intro within first firstIn second secondIn same
    rw [List.mem_range] at firstIn secondIn
    rw [nthTransaction_inj] at same
    unfold transactionCount at within same
    omega

/-! ## Draws that follow each other -/

/-- A draw that has ended. -/
structure Draw where
  increments : Nat
  transaction : TransactionId
  deriving DecidableEq

/-- The draws that follow each other from where the counter stands at first, with where it stands
afterwards. -/
inductive DrawRuns (start : UInt32) : List Draw → UInt32 → Prop where
  | start : DrawRuns start [] start
  | next {log : List Draw} {counter after : UInt32} {increments : Nat} {transaction : TransactionId}
      (before : DrawRuns start log counter) (draws : Draws counter increments transaction after) :
      DrawRuns start (log ++ [⟨increments, transaction⟩]) after

namespace DrawRuns

variable {start counter : UInt32} {log : List Draw}

theorem eq_start (run : DrawRuns start [] counter) : counter = start := by
  generalize whole : ([] : List Draw) = log at run
  cases run with
  | start => rfl
  | next => simp at whole

/-- The next id stands as many places after the first as there were draws. -/
theorem place (run : DrawRuns start log counter) :
    (drawTransaction counter).1 = nthTransaction ((drawTransaction start).1.toNat + log.length) := by
  induction run with
  | start => exact (nthTransaction_toNat (drawTransaction_spec start).1).symm
  | next _ draws ih =>
      have follows := drawTransaction_next ih
      rw [(draws_iff.mp draws).2] at follows
      rw [follows, List.length_append]
      rfl

theorem transactions (run : DrawRuns start log counter) :
    log.map (·.transaction) = transactionsFrom (drawTransaction start).1.toNat log.length := by
  induction run with
  | start => rfl
  | next before draws ih =>
      have drawn := before.place
      rw [(draws_iff.mp draws).2] at drawn
      rw [List.map_append, ih, List.length_append, List.length_singleton, transactionsFrom_add_one,
        ← drawn]
      rfl

theorem nodup_transactions_iff (run : DrawRuns start log counter) :
    (log.map (·.transaction)).Nodup ↔ log.length ≤ transactionCount := by
  rw [run.transactions, nodup_transactionsFrom_iff]

theorem draw_spec (run : DrawRuns start log counter) :
    ∀ draw ∈ log, draw.increments ≤ 2 ∧ draw.transaction ≠ unsolicited := by
  induction run with
  | start => exact fun _ none => absurd none List.not_mem_nil
  | next _ draws ih =>
      intro draw drawIn
      rcases List.mem_append.mp drawIn with old | new
      · exact ih draw old
      · rw [List.mem_singleton.mp new]
        exact draws.spec

/-- Wherever the counter stands at first and however many draws there have been, the next draw ends after
at most two increments, as every one before it has, and no id was that of unsolicited messages. The ids
are pairwise different exactly if they are no more than a whole cycle of them. -/
theorem unrepeated (run : DrawRuns start log counter) :
    (∃ increments ≤ 2,
      Draws counter increments (drawTransaction counter).1 (drawTransaction counter).2) ∧
      (∀ draw ∈ log, draw.increments ≤ 2 ∧ draw.transaction ≠ unsolicited) ∧
      ((log.map (·.transaction)).Nodup ↔ log.length < UInt32.size) := by
  have next : Draws counter _ (drawTransaction counter).1 (drawTransaction counter).2 :=
    draws_iff.mpr ⟨rfl, rfl⟩
  exact ⟨⟨_, next.spec.1, next⟩, run.draw_spec,
    run.nodup_transactions_iff.trans Nat.lt_succ_iff.symm⟩

/-- Three draws around the end of the counter. -/
theorem unrepeated_wrapped :
    DrawRuns 0xFFFFFFFE [⟨1, 0xFFFFFFFE⟩, ⟨2, 0⟩, ⟨1, 1⟩] 2 ∧
      (∃ increments ≤ 2, Draws 2 increments 2 3) ∧
      (∀ draw ∈ [(⟨1, 0xFFFFFFFE⟩ : Draw), ⟨2, 0⟩, ⟨1, 1⟩],
        draw.increments ≤ 2 ∧ draw.transaction ≠ unsolicited) ∧
      [(0xFFFFFFFE : TransactionId), 0, 1].Nodup := by
  have first : DrawRuns 0xFFFFFFFE [⟨1, 0xFFFFFFFE⟩] unsolicited := DrawRuns.start.next (.ends (by decide))
  have second : DrawRuns 0xFFFFFFFE [⟨1, 0xFFFFFFFE⟩, ⟨2, 0⟩] 1 :=
    first.next (.passes rfl (.ends (by decide)))
  have run : DrawRuns 0xFFFFFFFE [⟨1, 0xFFFFFFFE⟩, ⟨2, 0⟩, ⟨1, 1⟩] 2 :=
    second.next (.ends (by decide))
  rcases run.unrepeated with ⟨next, each, apart⟩
  exact ⟨run, next, each, apart.mpr (by decide)⟩

end DrawRuns

/-! ## Draws that overlap -/

/-- An increment by one of several draws that are under way: whose it is, and what it yields. -/
structure Increment where
  draw : Nat
  yielded : UInt32

/-- A draw has no id from the increments so far. -/
def GoesOn (log : List Increment) (draw : Nat) : Prop :=
  ∀ increment ∈ log, increment.draw = draw → increment.yielded = unsolicited

/-- The increments of draws that overlap, in any order, from where the counter stands at first, with where
it stands afterwards. A draw that has its id increments no more. -/
inductive Overlaps (start : UInt32) : List Increment → UInt32 → Prop where
  | start : Overlaps start [] start
  | next {log : List Increment} {counter : UInt32} (before : Overlaps start log counter) {draw : Nat}
      (goesOn : GoesOn log draw) : Overlaps start (log ++ [⟨draw, counter⟩]) (counter + 1)

/-- The increments that draws ended with. -/
def endings (log : List Increment) : List Increment := log.filter (·.yielded ≠ unsolicited)

/-- The increments after which draws went on. -/
def passings (log : List Increment) : List Increment := log.filter (·.yielded = unsolicited)

theorem endings_concat_of_ne {increment : Increment} (log : List Increment)
    (other : increment.yielded ≠ unsolicited) :
    endings (log ++ [increment]) = endings log ++ [increment] := by
  simp [endings, other]

theorem endings_concat_of_eq {increment : Increment} (log : List Increment)
    (last : increment.yielded = unsolicited) : endings (log ++ [increment]) = endings log := by
  simp [endings, last]

theorem passings_concat_of_ne {increment : Increment} (log : List Increment)
    (other : increment.yielded ≠ unsolicited) : passings (log ++ [increment]) = passings log := by
  simp [passings, other]

theorem passings_concat_of_eq {increment : Increment} (log : List Increment)
    (last : increment.yielded = unsolicited) :
    passings (log ++ [increment]) = passings log ++ [increment] := by
  simp [passings, last]

/-- An increment ends its draw or not. -/
theorem count_draw (log : List Increment) (draw : Nat) :
    (log.map (·.draw)).count draw =
      ((passings log).map (·.draw)).count draw + ((endings log).map (·.draw)).count draw := by
  simp only [List.count_eq_countP, List.countP_map, passings, endings, decide_not]
  exact List.countP_eq_countP_filter_add _ _ _

theorem GoesOn.not_ended {log : List Increment} {draw : Nat} (goesOn : GoesOn log draw) :
    draw ∉ (endings log).map (·.draw) := by
  intro ended
  rcases List.mem_map.mp ended with ⟨increment, ending, same⟩
  rcases List.mem_filter.mp ending with ⟨made, other⟩
  exact of_decide_eq_true other (goesOn increment made same)

theorem GoesOn.of_subset {log part : List Increment} {draw : Nat} (goesOn : GoesOn log draw)
    (within : part ⊆ log) : GoesOn part draw :=
  fun increment made => goesOn increment (within made)

theorem length_le_of_numbered {numbers : List Nat} {bound : Nat} (apart : numbers.Nodup)
    (below : ∀ number ∈ numbers, number < bound) : numbers.length ≤ bound := by
  have within : numbers ⊆ List.range bound := fun number numberIn =>
    List.mem_range.mpr (below number numberIn)
  have fewer := (apart.subperm within).length_le
  rwa [List.length_range] at fewer

/-- From the one id that is passed over to the next time it comes up, every other id is drawn. -/
theorem DrawRuns.cycle_le {log : List Draw} (run : DrawRuns 0 log unsolicited) :
    transactionCount ≤ log.length := by
  have same : nthTransaction 0 = nthTransaction (0 + log.length) := run.place
  rw [nthTransaction_inj, Nat.zero_add] at same
  by_contra short
  unfold transactionCount at same short
  have none : log = [] := List.length_eq_zero_iff.mp (by omega)
  subst none
  exact absurd run.eq_start (by decide)

namespace Overlaps

variable {start counter : UInt32} {log earlier later : List Increment} {increment : Increment}
  {draw draws : Nat}

theorem of_concat (run : Overlaps start (log ++ [increment]) counter) :
    Overlaps start log increment.yielded ∧ counter = increment.yielded + 1 ∧
      GoesOn log increment.draw := by
  generalize whole : log ++ [increment] = full at run
  cases run with
  | start => simp at whole
  | next before goesOn =>
      rcases List.append_inj' whole rfl with ⟨rfl, same⟩
      cases same
      exact ⟨before, rfl, goesOn⟩

theorem of_append (run : Overlaps start (earlier ++ later) counter) :
    ∃ middle, Overlaps start earlier middle ∧ Overlaps middle later counter := by
  induction later using List.reverseRecOn generalizing counter with
  | nil => exact ⟨counter, by rwa [List.append_nil] at run, .start⟩
  | append_singleton later increment ih =>
      rw [← List.append_assoc] at run
      rcases run.of_concat with ⟨before, rfl, goesOn⟩
      rcases ih before with ⟨middle, first, rest⟩
      exact ⟨middle, first, rest.next (goesOn.of_subset (List.subset_append_right earlier later))⟩

/-- What overlapping draws yield, draws that follow each other yield in the order in which the overlapping
ones end. The counter may be ahead, past the id of unsolicited messages, by an increment of a draw that goes
on. -/
theorem exists_drawRuns (run : Overlaps start log counter) :
    ∃ draws last, DrawRuns start draws last ∧
      (endings log).map (·.yielded) = draws.map (·.transaction) ∧
      (counter = last ∨ last = unsolicited ∧ counter = last + 1) := by
  induction run with
  | start => exact ⟨[], start, .start, rfl, .inl rfl⟩
  | @next log counter before draw goesOn ih =>
      rcases ih with ⟨draws, last, follows, same, rfl | ⟨rfl, rfl⟩⟩
      · by_cases isLast : counter = unsolicited
        · rw [endings_concat_of_eq log isLast]
          exact ⟨draws, counter, follows, same, .inr ⟨isLast, rfl⟩⟩
        · rw [endings_concat_of_ne log isLast, List.map_append, same]
          exact ⟨_, _, follows.next (.ends isLast), by rw [List.map_append]; rfl, .inl rfl⟩
      · -- Among draws that follow each other, the next one passes over that id and ends here.
        have other : unsolicited + 1 ≠ unsolicited := by decide
        rw [endings_concat_of_ne log other, List.map_append, same]
        exact ⟨_, _, follows.next (.passes rfl (.ends other)), by rw [List.map_append]; rfl, .inl rfl⟩

/-- A draw ends once. -/
theorem nodup_endings (run : Overlaps start log counter) : ((endings log).map (·.draw)).Nodup := by
  induction run with
  | start => exact List.nodup_nil
  | @next log counter before draw goesOn ih =>
      by_cases isLast : counter = unsolicited
      · rwa [endings_concat_of_eq log isLast]
      · rw [endings_concat_of_ne log isLast, List.map_append]
        refine List.nodup_append'.mpr ⟨ih, List.nodup_singleton _, ?_⟩
        rw [List.map_singleton, List.disjoint_singleton]
        exact goesOn.not_ended

theorem draw_lt (numbered : ∀ increment ∈ log, increment.draw < draws)
    (ended : draw ∈ (endings log).map (·.draw)) : draw < draws := by
  rcases List.mem_map.mp ended with ⟨increment, ending, rfl⟩
  exact numbered increment (List.mem_of_mem_filter ending)

theorem length_endings_le (run : Overlaps start log counter)
    (numbered : ∀ increment ∈ log, increment.draw < draws) : (endings log).length ≤ draws := by
  have fewer := length_le_of_numbered run.nodup_endings fun _ ended => draw_lt numbered ended
  rwa [List.length_map] at fewer

theorem length_endings_lt (run : Overlaps start log counter)
    (numbered : ∀ increment ∈ log, increment.draw < draws) (goesOn : GoesOn log draw)
    (oneOfThem : draw < draws) : (endings log).length < draws := by
  have apart : (draw :: (endings log).map (·.draw)).Nodup :=
    List.nodup_cons.mpr ⟨goesOn.not_ended, run.nodup_endings⟩
  have below : ∀ other ∈ draw :: (endings log).map (·.draw), other < draws := by
    intro other otherIn
    rcases List.mem_cons.mp otherIn with rfl | ended
    · exact oneOfThem
    · exact draw_lt numbered ended
  have fewer := length_le_of_numbered apart below
  rwa [List.length_cons, List.length_map] at fewer

/-- Before a draw comes upon the id of unsolicited messages again, as many others have ended as there are
other ids. -/
theorem transactionCount_lt (run : Overlaps start log unsolicited)
    (numbered : ∀ increment ∈ log, increment.draw < draws) (goesOn : GoesOn log draw)
    (passed : draw ∈ (passings log).map (·.draw)) : transactionCount < draws := by
  rcases List.mem_map.mp passed with ⟨increment, passing, rfl⟩
  rcases List.mem_filter.mp passing with ⟨made, isLast⟩
  rcases List.append_of_mem made with ⟨earlier, later, rfl⟩
  have within : later ⊆ earlier ++ increment :: later := fun _ otherIn =>
    List.mem_append_right earlier (List.mem_cons_of_mem increment otherIn)
  rw [List.append_cons] at run
  rcases run.of_append with ⟨middle, first, rest⟩
  rcases first.of_concat with ⟨_, rfl, _⟩
  -- What follows the first of the two passings begins where the cycle begins, and ends where it ends.
  rw [of_decide_eq_true isLast] at rest
  have fewer : (endings later).length < draws :=
    rest.length_endings_lt (fun other otherIn => numbered other (within otherIn))
      (goesOn.of_subset within) (numbered increment made)
  rcases rest.exists_drawRuns with ⟨drawn, last, follows, same, rfl | ⟨rfl, past⟩⟩
  · have many : transactionCount ≤ drawn.length := follows.cycle_le
    have length : (endings later).length = drawn.length := by
      simpa using congrArg List.length same
    omega
  · exact absurd past (by decide)

/-- As long as there are no more draws than ids, none comes upon the id of unsolicited messages twice. -/
theorem nodup_passings (run : Overlaps start log counter)
    (numbered : ∀ increment ∈ log, increment.draw < draws) (few : draws ≤ transactionCount) :
    ((passings log).map (·.draw)).Nodup := by
  induction run with
  | start => exact List.nodup_nil
  | @next log counter before draw goesOn ih =>
      have earlier := fun increment made => numbered increment (List.mem_append_left _ made)
      by_cases isLast : counter = unsolicited
      · subst isLast
        rw [passings_concat_of_eq log rfl, List.map_append]
        refine List.nodup_append'.mpr ⟨ih earlier, List.nodup_singleton _, ?_⟩
        rw [List.map_singleton, List.disjoint_singleton]
        intro passed
        exact absurd (before.transactionCount_lt earlier goesOn passed) (Nat.not_lt.mpr few)
      · rw [passings_concat_of_ne log isLast]
        exact ih earlier

/-- Draws that overlap, no more of them than there are ids, end after at most two increments each and with
ids that are pairwise different. -/
theorem distinct (run : Overlaps start log counter)
    (numbered : ∀ increment ∈ log, increment.draw < draws) (few : draws ≤ transactionCount) :
    ((endings log).map (·.yielded)).Nodup ∧
      ∀ draw, (log.map (·.draw)).count draw ≤ 2 ∧
        ((log.map (·.draw)).count draw = 2 → draw ∈ (endings log).map (·.draw)) := by
  constructor
  · rcases run.exists_drawRuns with ⟨drawn, last, follows, same, _⟩
    have length : (endings log).length = drawn.length := by
      simpa using congrArg List.length same
    rw [same, follows.nodup_transactions_iff, ← length]
    exact Nat.le_trans (run.length_endings_le numbered) few
  · intro draw
    have passed := List.nodup_iff_count_le_one.mp (run.nodup_passings numbered few) draw
    have ended := List.nodup_iff_count_le_one.mp run.nodup_endings draw
    have all := count_draw log draw
    exact ⟨by omega, fun twice => List.count_pos_iff.mp (by omega)⟩

end Overlaps

end SharedTree
