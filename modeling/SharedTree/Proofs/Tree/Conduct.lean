import SharedTree.Proofs.Places
import SharedTree.Proofs.Table
import SharedTree.Proofs.Tree.Values

/-!
# Observers that act when they are called

An observer that is told of a write may change who watches the value, and any observer may cease to
exist before its turn comes. `Tree.exists_turns_of_write` says what a write does whatever the
observers do and in whatever order they are called. Those that were registered when it began have
one turn each, and nobody else has one. Afterwards a registration stands if it was the last that
was made under its number, nobody has removed it, and its observer has not failed its turn.
-/

namespace SharedTree

/-- A change of who watches a value. -/
inductive WatchChange where
  | watch (observer : Observer)
  | unwatch (subscriber : SessionId)
  deriving DecidableEq

namespace WatchChange

variable (number : Observer → SessionId)

/-- The subscriber's number that a change is about. Observers are registered under their own. -/
def subscriber : WatchChange → SessionId
  | .watch observer => number observer
  | .unwatch subscriber => subscriber

/-- Who is registered under that number after the change. -/
def observer? : WatchChange → Option Observer
  | .watch observer => some observer
  | .unwatch _ => none

/-- The registrations after a change. -/
def apply (watchers : Table SessionId Observer) : WatchChange → Table SessionId Observer
  | .watch observer => watchers.insert (number observer) observer
  | .unwatch subscriber => watchers.erase subscriber

/-- An observer was registered under a number, and no change since was about that number. -/
def Registers (changes : List WatchChange) (subscriber : SessionId) (observer : Observer) : Prop :=
  number observer = subscriber ∧ ∃ earlier later, changes = earlier ++ .watch observer :: later ∧
    ∀ change ∈ later, change.subscriber number ≠ subscriber

/-- A table holds the registrations that changes have left. -/
def RecordedBy (changes : List WatchChange) (watchers : Table SessionId Observer) : Prop :=
  ∀ subscriber observer,
    watchers.find? subscriber = some observer ↔ Registers number changes subscriber observer

variable {number} {changes : List WatchChange} {watchers : Table SessionId Observer}

theorem find?_apply (watchers : Table SessionId Observer) (change : WatchChange)
    (subscriber : SessionId) :
    (apply number watchers change).find? subscriber =
      if change.subscriber number = subscriber then change.observer?
      else watchers.find? subscriber := by
  cases change with
  | watch observer =>
      simp only [apply, Table.find?_insert, WatchChange.subscriber, observer?, eq_comm]
  | unwatch left => simp only [apply, Table.find?_erase, WatchChange.subscriber, observer?, eq_comm]

theorem registers_concat (change : WatchChange) (subscriber : SessionId) (observer : Observer) :
    Registers number (changes ++ [change]) subscriber observer ↔
      if change.subscriber number = subscriber then change.observer? = some observer
      else Registers number changes subscriber observer := by
  constructor
  · rintro ⟨same, earlier, later, split, since⟩
    rcases concat_eq_split split with ⟨_, _, rfl⟩ | ⟨rest, rfl, rfl⟩
    · rw [if_pos (show (watch observer).subscriber number = subscriber from same)]
      rfl
    · rw [if_neg (since change (by simp))]
      exact ⟨same, earlier, rest, rfl, fun one mem => since one (by simp [mem])⟩
  · split
    · next about =>
      intro isObserver
      cases change with
      | watch other =>
          cases isObserver
          exact ⟨about, changes, [], rfl, nofun⟩
      | unwatch left => cases isObserver
    · next other =>
      rintro ⟨same, earlier, later, rfl, since⟩
      refine ⟨same, earlier, later ++ [change], by simp, ?_⟩
      simpa [or_imp, forall_and, other] using since

theorem RecordedBy.apply (recorded : RecordedBy number changes watchers) (change : WatchChange) :
    RecordedBy number (changes ++ [change]) (change.apply number watchers) := by
  intro subscriber observer
  rw [find?_apply, registers_concat]
  split
  · rfl
  · exact recorded subscriber observer

theorem RecordedBy.applyAll (recorded : RecordedBy number changes watchers)
    (more : List WatchChange) :
    RecordedBy number (changes ++ more) (more.foldl (WatchChange.apply number) watchers) := by
  induction more generalizing changes watchers with
  | nil => simpa using recorded
  | cons change more ih => simpa using ih (recorded.apply change)

/-- Registering the observers of a table one after the other records it. -/
theorem recordedBy_watch (watchers : Table SessionId Observer) (named : ∀ subscriber observer,
      watchers.find? subscriber = some observer → number observer = subscriber) :
    RecordedBy number (watchers.entries.map fun registration => .watch registration.2)
      watchers := by
  intro subscriber observer
  rw [← Table.mem_entries_iff]
  constructor
  · intro mem
    rcases List.append_of_mem mem with ⟨earlier, later, split⟩
    refine ⟨named _ _ ((Table.mem_entries_iff _ _ _).mp mem), earlier.map _, later.map _,
      by rw [split, List.map_append, List.map_cons], ?_⟩
    have distinct := watchers.distinct
    rw [split, List.map_append, List.map_cons, List.nodup_append, List.nodup_cons] at distinct
    intro change since
    rcases List.mem_map.mp since with ⟨registration, isLater, rfl⟩
    have entry : registration ∈ watchers.entries := by
      rw [split]
      exact List.mem_append_right _ (List.mem_cons_of_mem _ isLater)
    rw [WatchChange.subscriber, named _ _ ((Table.mem_entries_iff _ _ _).mp entry)]
    rintro rfl
    exact distinct.2.1.1 (List.mem_map.mpr ⟨registration, isLater, rfl⟩)
  · rintro ⟨rfl, earlier, later, split, -⟩
    have registered : WatchChange.watch observer ∈
        watchers.entries.map fun registration => .watch registration.2 := by simp [split]
    rcases List.mem_map.mp registered with ⟨⟨subscriber, _⟩, entry, ⟨⟩⟩
    rwa [named _ _ ((Table.mem_entries_iff _ _ _).mp entry)]

end WatchChange

/-- How the observers of a value behave when it is written. -/
structure Conduct (ω : Type) (handle : Handle) where
  /-- The number that an observer is registered under. -/
  number : Observer → SessionId
  /-- Whether an observer has ceased to exist. -/
  isGone : Observer → ω → Bool
  /-- What an observer does when it is called, and whether it counts as reached. -/
  call : Reaction ω
  /-- What it changes about who watches the value. -/
  changes : Observer → ValueUpdate → Tree × ω → List WatchChange
  /-- A call changes nothing else about who watches the value. -/
  watchers_call : ∀ observer update world payload watchers,
    world.1.value? handle = some (payload, watchers) →
      ∃ newPayload, (call observer update world).2.1.value? handle =
        some (newPayload, (changes observer update world).foldl (WatchChange.apply number) watchers)

/-- The turn of an observer during a write. -/
inductive Turn where
  | gone (observer : Observer)
  | called (observer : Observer) (reached : Bool) (changes : List WatchChange)

namespace Turn

/-- Whose turn it is. -/
def observer : Turn → Observer
  | .gone observer => observer
  | .called observer _ _ => observer

/-- Whether the observer was reached. -/
def reached : Turn → Bool
  | .gone _ => false
  | .called _ reached _ => reached

/-- What the observer changed about who watches the value. -/
def changes : Turn → List WatchChange
  | .gone _ => []
  | .called _ _ changes => changes

end Turn

namespace Conduct

variable {ω : Type} {handle : Handle} (conduct : Conduct ω handle)

/-- An observer that has ceased to exist is not called, and is not reached. -/
def react : Reaction ω := fun observer update world =>
  if conduct.isGone observer world.2 then (false, world) else conduct.call observer update world

/-- The registration of the observer whose turn it is. -/
def registration (turn : Turn) : Registration := (conduct.number turn.observer, turn.observer)

/-- One turn after the other leads from one world to another: an observer that exists when its turn
comes is called once. -/
inductive Runs (update : ValueUpdate) : Tree × ω → List Turn → Tree × ω → Prop
  | done (world : Tree × ω) : Runs update world [] world
  | gone {observer : Observer} {world last : Tree × ω} {turns : List Turn}
      (isGone : conduct.isGone observer world.2 = true) (rest : Runs update world turns last) :
      Runs update world (.gone observer :: turns) last
  | called {observer : Observer} {world last : Tree × ω} {turns : List Turn}
      (remains : conduct.isGone observer world.2 = false)
      (rest : Runs update (conduct.call observer update world).2 turns last) :
      Runs update world
        (.called observer (conduct.call observer update world).1
          (conduct.changes observer update world) :: turns)
        last

/-- Observers that follow a script, and leave a record of who has been called. -/
def scripted (handle : Handle) (number : Observer → SessionId) (gone answers : Observer → Bool)
    (changes : Observer → List WatchChange) : Conduct (List Observer) handle where
  number
  isGone observer _ := gone observer
  call observer _ world :=
    (answers observer,
      world.1.mapWatchers handle ((changes observer).foldl (WatchChange.apply number)),
      world.2 ++ [observer])
  changes observer _ _ := changes observer
  watchers_call := by
    intro observer update world payload watchers isValue
    exact ⟨payload, by rw [Tree.value?_mapWatchers, if_pos rfl, isValue]; rfl⟩

variable {conduct} {update : ValueUpdate}

theorem Runs.watchers {world last : Tree × ω} {turns : List Turn}
    (runs : conduct.Runs update world turns last) {payload : Bytes}
    {watchers : Table SessionId Observer}
    (isValue : world.1.value? handle = some (payload, watchers)) :
    ∃ newPayload, last.1.value? handle =
      some (newPayload, (turns.flatMap Turn.changes).foldl (WatchChange.apply conduct.number)
        watchers) := by
  induction runs generalizing payload watchers with
  | done world => exact ⟨payload, isValue⟩
  | gone isGone rest ih => exact ih isValue
  | called remains rest ih =>
      rcases conduct.watchers_call _ update _ _ _ isValue with ⟨_, isNext⟩
      rw [List.flatMap_cons, List.foldl_append]
      exact ih isNext

/-- Delivery gives every registration a turn, and returns those whose observers were not reached. -/
theorem exists_runs_of_deliver (update : ValueUpdate) (registrations : List Registration)
    (named : ∀ registration ∈ registrations, conduct.number registration.2 = registration.1)
    (world : Tree × ω) :
    ∃ turns, conduct.Runs update world turns
        (deliver conduct.react update registrations world).2 ∧
      turns.map conduct.registration = registrations ∧
      (deliver conduct.react update registrations world).1 =
        (turns.filter fun turn => !turn.reached).map conduct.registration := by
  induction registrations generalizing world with
  | nil => exact ⟨[], .done world, rfl, rfl⟩
  | cons registration others ih =>
      rw [List.forall_mem_cons] at named
      rcases registration with ⟨subscriber, observer⟩
      have isNumber : conduct.number observer = subscriber := named.1
      subst isNumber
      rcases ih named.2 (conduct.react observer update world).2 with
        ⟨turns, runs, areOthers, unserved⟩
      cases isGone : conduct.isGone observer world.2 with
      | true =>
          have reacts : conduct.react observer update world = (false, world) := by
            rw [react, if_pos isGone]
          rw [reacts] at runs unserved
          refine ⟨.gone observer :: turns, ?_, ?_, ?_⟩
          · simp only [deliver, reacts]
            exact .gone isGone runs
          · rw [List.map_cons, areOthers]
            rfl
          · simp only [deliver, reacts, unserved]
            rfl
      | false =>
          have reacts : conduct.react observer update world =
              conduct.call observer update world := by
            rw [react, if_neg (by simp [isGone])]
          rw [reacts] at runs unserved
          refine ⟨.called observer (conduct.call observer update world).1
            (conduct.changes observer update world) :: turns, ?_, ?_, ?_⟩
          · simp only [deliver, reacts]
            exact .called isGone runs
          · rw [List.map_cons, areOthers]
            rfl
          · simp only [deliver, reacts, unserved, List.filter_cons, Turn.reached]
            cases (conduct.call observer update world).1 <;> rfl

theorem mem_registration_iff {turns : List Turn} {subscriber : SessionId} {observer : Observer} :
    (subscriber, observer) ∈ turns.map conduct.registration ↔
      conduct.number observer = subscriber ∧ observer ∈ turns.map Turn.observer := by
  simp only [List.mem_map, registration, Prod.mk.injEq]
  constructor
  · rintro ⟨turn, mem, rfl, rfl⟩
    exact ⟨rfl, turn, mem, rfl⟩
  · rintro ⟨rfl, turn, mem, rfl⟩
    exact ⟨turn, mem, rfl, rfl⟩

/-- If the registrations in a table have one turn each, then so have its observers. -/
theorem nodup_observers {turns : List Turn} {watchers : Table SessionId Observer}
    (perm : (turns.map conduct.registration).Perm watchers.entries) :
    (turns.map Turn.observer).Nodup := by
  have distinct := ((perm.map Prod.fst).nodup_iff).mpr watchers.distinct
  apply List.Nodup.of_map conduct.number
  rwa [List.map_map] at distinct ⊢

theorem not_mem_unserved_iff {turns : List Turn} {subscriber : SessionId} {observer : Observer}
    (isNumber : conduct.number observer = subscriber) :
    (subscriber, observer) ∉ (turns.filter fun turn => !turn.reached).map conduct.registration ↔
      ∀ turn ∈ turns, turn.observer = observer → turn.reached = true := by
  rw [mem_registration_iff]
  simp only [isNumber, true_and, List.mem_map, List.mem_filter, Bool.not_eq_true']
  constructor
  · intro served turn mem same
    by_contra failed
    exact served ⟨turn, ⟨mem, by simpa using failed⟩, same⟩
  · rintro served ⟨turn, ⟨mem, failed⟩, same⟩
    rw [served turn mem same] at failed
    cases failed

end Conduct

namespace Tree

variable {ω : Type} {handle : Handle} {tree : Tree} {property : Property}
  {watchers : Table SessionId Observer} {past : List WatchChange}

/-- Writing a value gives each observer that was registered a turn, whatever the observers do.
Afterwards those are registered whose registration was the last under their number, has not been
removed, and did not fail. -/
theorem exists_turns_of_write (conduct : Conduct ω handle)
    (found : tree.property? handle = some property) (isValue : property.watchers? = some watchers)
    (recorded : WatchChange.RecordedBy conduct.number past watchers) (order : VisitOrder)
    (data : Bytes) (outside : ω) :
    ∃ turns told after last payload remaining,
      write conduct.react order handle data (tree, outside) = some (after, last) ∧
      conduct.Runs { uuid := property.uuid, data } (tree.overwrite handle data, outside) turns
        (told, last) ∧
      (turns.map Turn.observer).Nodup ∧
      (∀ observer, observer ∈ turns.map Turn.observer ↔
        WatchChange.Registers conduct.number past (conduct.number observer) observer) ∧
      after.value? handle = some (payload, remaining) ∧
      ∀ subscriber observer, remaining.find? subscriber = some observer ↔
        WatchChange.Registers conduct.number (past ++ turns.flatMap Turn.changes) subscriber
            observer ∧
          ∀ turn ∈ turns, turn.observer = observer → turn.reached = true := by
  have named : ∀ registration ∈ order.arrange watchers.entries,
      conduct.number registration.2 = registration.1 := by
    rintro ⟨subscriber, observer⟩ mem
    have isEntry := (Table.mem_entries_iff _ _ _).mp ((order.perm _).mem_iff.mp mem)
    exact ((recorded subscriber observer).mp isEntry).1
  rcases conduct.exists_runs_of_deliver { uuid := property.uuid, data } _ named
    (tree.overwrite handle data, outside) with ⟨turns, runs, arranged, areUnserved⟩
  have written : write conduct.react order handle data (tree, outside) = _ :=
    write_eq_some found isValue
  rcases delivery : deliver conduct.react { uuid := property.uuid, data }
    (order.arrange watchers.entries) (tree.overwrite handle data, outside) with
    ⟨unserved, told, last⟩
  rw [delivery] at runs areUnserved written
  dsimp only at runs areUnserved written
  rcases value?_of_watchers? found isValue with ⟨payload, isPair⟩
  have overwritten : (tree.overwrite handle data).value? handle = some (data, watchers) := by
    rw [value?_overwrite, if_pos rfl, isPair]
    rfl
  rcases runs.watchers overwritten with ⟨newPayload, isTold⟩
  have pruned := value?_prune told handle unserved
  rw [isTold] at pruned
  have perm : (turns.map conduct.registration).Perm watchers.entries := arranged ▸ order.perm _
  refine ⟨turns, told, _, last, newPayload, _, written, runs, conduct.nodup_observers perm, ?_,
    pruned, ?_⟩
  · intro observer
    rw [← recorded, ← Table.mem_entries_iff, ← perm.mem_iff, conduct.mem_registration_iff]
    exact (and_iff_right rfl).symm
  · intro subscriber observer
    rw [Table.find?_filter, Option.filter_eq_some_iff,
      recorded.applyAll (turns.flatMap Turn.changes) subscriber observer]
    apply and_congr_right
    intro stands
    rw [areUnserved, ← conduct.not_mem_unserved_iff stands.1]
    simp

/-- The first of five observers fails after another one has taken its number, the second is gone,
and the last is called although it has been removed. -/
theorem exists_turns_of_write_mixed :
    ∃ (conduct : Conduct (List Observer) 1) (tree : Tree) (past : List WatchChange)
      (turns : List Turn) (told after : Tree) (last : List Observer) (payload : Bytes)
      (remaining : Table SessionId Observer),
      past = [.watch 0, .watch 1, .watch 2, .watch 3, .watch 4] ∧
      write conduct.react .stored 1 [9] (tree, []) = some (after, last) ∧
      last = [0, 2, 3, 4] ∧ remaining.entries = [(2, 2), (3, 3), (0, 5)] ∧
      conduct.Runs { uuid := 100, data := [9] } (tree.overwrite 1 [9], []) turns (told, last) ∧
      (turns.map Turn.observer).Nodup ∧
      (∀ observer, observer ∈ turns.map Turn.observer ↔
        WatchChange.Registers conduct.number past (conduct.number observer) observer) ∧
      after.value? 1 = some (payload, remaining) ∧
      ∀ subscriber observer, remaining.find? subscriber = some observer ↔
        WatchChange.Registers conduct.number (past ++ turns.flatMap Turn.changes) subscriber
            observer ∧
          ∀ turn ∈ turns, turn.observer = observer → turn.reached = true := by
  let number : Observer → SessionId := fun observer =>
    if observer = 5 then 0 else UInt64.ofNat observer
  let conduct : Conduct (List Observer) 1 := .scripted 1 number (· = 1) (· ∉ [0, 4])
    fun observer => if observer = 2 then [.watch 5, .unwatch 4] else []
  let past : List WatchChange := [.watch 0, .watch 1, .watch 2, .watch 3, .watch 4]
  let tree := (Tree.new.attach rootHandle "v" (.new .value [0] 1) 100 .fresh).mapWatchers 1
    (past.foldl (WatchChange.apply number))
  have called :
      (write conduct.react .stored 1 [9] (tree, [])).map Prod.snd = some [0, 2, 3, 4] := by
    rfl
  have left : ((write conduct.react .stored 1 [9] (tree, [])).bind fun world =>
      (world.1.value? 1).map fun value => value.2.entries) = some [(2, 2), (3, 3), (0, 5)] := by
    rfl
  have found : tree.property? 1 = some _ := rfl
  rcases exists_turns_of_write conduct found rfl
    ((WatchChange.recordedBy_watch .empty nofun).applyAll past) .stored [9] [] with
    ⟨turns, told, after, last, payload, remaining, written, runs, nodup, turn, isAfter, stays⟩
  rw [written, Option.map_some, Option.some.injEq] at called
  rw [written, Option.bind_some, isAfter, Option.map_some, Option.some.injEq] at left
  exact ⟨conduct, tree, past, turns, told, after, last, payload, remaining, rfl, written, called,
    left, runs, nodup, turn, isAfter, stays⟩

end Tree

end SharedTree
