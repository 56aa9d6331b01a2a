import SharedTree.Proofs.Tree.Conduct
import SharedTree.Tree.Probe

/-!
# Writes during writes

An observer that is told of a write may write the same value again. The second write tells
everybody before the first one goes on, and the first one goes on with its own payload. This file
describes such writes by what happens one after the other. `Tree.Proceeds.last_told` says which
payload the value has in the end and which one each observer was told last. Those that a write
further out had yet to tell when the last write began are told of an older payload after the newest
one, as `Tree.exists_stale_observer` shows.
-/

namespace SharedTree

/-- A write that goes on: its payload, and the registrations that have yet to have their turn. -/
structure Unfinished where
  data : Bytes
  left : List Registration

namespace Unfinished

/-- The payload of the outermost write that has yet to tell an observer. Writes are listed from the
outermost one inwards. -/
def due? (outer : List Unfinished) (registration : Registration) : Option Bytes :=
  (outer.find? fun write => write.left.contains registration).map Unfinished.data

theorem due?_append (outer inner : List Unfinished) (registration : Registration) :
    due? (outer ++ inner) registration =
      (due? outer registration).or (due? inner registration) := by
  rw [due?, List.find?_append, Option.map_or, due?, due?]

theorem due?_singleton (data : Bytes) (left : List Registration) (registration : Registration) :
    due? [⟨data, left⟩] registration = if registration ∈ left then some data else none := by
  by_cases mem : registration ∈ left <;> simp [due?, mem]

end Unfinished

open Unfinished (due? due?_append due?_singleton)

/-- The beginning of a write: its payload, who watches the value, and the writes of the value during
which it takes place, the outermost one first. -/
structure Beginning where
  data : Bytes
  watchers : Table SessionId Observer
  outer : List Unfinished

/-- What an observer is told last if no write begins after this one. -/
def Beginning.lastDue (beginning : Beginning) (registration : Registration) : Bytes :=
  (due? beginning.outer registration).getD beginning.data

theorem Beginning.lastDue_of_left {beginning : Beginning} {outer : List Unfinished} {data : Bytes}
    {left : List Registration} {registration : Registration}
    (within : outer ++ [⟨data, left⟩] <+: beginning.outer)
    (unconcerned : due? outer registration = none) (yet : registration ∈ left) :
    beginning.lastDue registration = data := by
  rcases within with ⟨inner, split⟩
  rw [lastDue, ← split, due?_append, due?_append, unconcerned, due?_singleton, if_pos yet]
  rfl

/-- What happens to a value while it is written. A write that ends leaves some registrations. -/
inductive WriteEvent where
  | began (beginning : Beginning)
  | told (registration : Registration) (data : Bytes) (reached : Bool)
  | ended (remaining : Table SessionId Observer)

namespace WriteEvent

/-- The write that begins with an event. -/
def beginning? : WriteEvent → Option Beginning
  | .began beginning => some beginning
  | _ => none

/-- What an observer is told, and whether it is reached. -/
def turn? (registration : Registration) : WriteEvent → Option (Bytes × Bool)
  | .told other data reached => if other = registration then some (data, reached) else none
  | _ => none

/-- The write that began last. -/
def latest? (log : List WriteEvent) : Option Beginning :=
  (log.filterMap beginning?).getLast?

/-- What an observer was told last, and whether it was reached. -/
def lastTurn? (registration : Registration) (log : List WriteEvent) : Option (Bytes × Bool) :=
  (log.filterMap (turn? registration)).getLast?

/-- An observer was registered whenever a write had ended. -/
def StaysRegistered (registration : Registration) (log : List WriteEvent) : Prop :=
  ∀ watchers, .ended watchers ∈ log → watchers.find? registration.1 = some registration.2

theorem latest?_append (log more : List WriteEvent) :
    latest? (log ++ more) = (latest? more).or (latest? log) := by
  rw [latest?, List.filterMap_append, List.getLast?_append, latest?, latest?]

theorem latest?_told (registration : Registration) (data : Bytes) (reached : Bool)
    (log : List WriteEvent) : latest? (.told registration data reached :: log) = latest? log := rfl

theorem latest?_write (beginning : Beginning) (log : List WriteEvent)
    (remaining : Table SessionId Observer) :
    latest? (.began beginning :: log ++ [.ended remaining]) =
      some ((latest? log).getD beginning) := by
  have started : latest? (.began beginning :: log) = some ((latest? log).getD beginning) := by
    rw [← List.singleton_append, latest?_append]
    cases latest? log <;> rfl
  rw [latest?_append, started]
  rfl

theorem lastTurn?_append (registration : Registration) (log more : List WriteEvent) :
    lastTurn? registration (log ++ more) =
      (lastTurn? registration more).or (lastTurn? registration log) := by
  rw [lastTurn?, List.filterMap_append, List.getLast?_append, lastTurn?, lastTurn?]

theorem lastTurn?_told (registration other : Registration) (data : Bytes) (reached : Bool)
    (log : List WriteEvent) :
    lastTurn? registration (.told other data reached :: log) =
      (lastTurn? registration log).or
        (if other = registration then some (data, reached) else none) := by
  rw [← List.singleton_append, lastTurn?_append]
  congr 1
  by_cases same : other = registration <;> simp [lastTurn?, turn?, same]

theorem lastTurn?_write (registration : Registration) (beginning : Beginning)
    (log : List WriteEvent) (remaining : Table SessionId Observer) :
    lastTurn? registration (.began beginning :: log ++ [.ended remaining]) =
      lastTurn? registration log := by
  rw [lastTurn?_append]
  rfl

theorem mem_of_lastTurn? {registration : Registration} {log : List WriteEvent} {data : Bytes}
    {reached : Bool} (isLast : lastTurn? registration log = some (data, reached)) :
    .told registration data reached ∈ log := by
  rcases List.mem_filterMap.mp (List.mem_of_getLast? isLast) with ⟨event, mem, isTurn⟩
  cases event with
  | told other data reached =>
      simp only [turn?, Option.ite_none_right_eq_some, Option.some.injEq, Prod.mk.injEq] at isTurn
      rcases isTurn with ⟨rfl, rfl, rfl⟩
      exact mem
  | began beginning => cases isTurn
  | ended watchers => cases isTurn

end WriteEvent

/-- What goes on while a value is written: an observer does something when it is called, the value
is written, or the rest of those who have been registered have their turns. -/
inductive Stage (ω : Type) where
  | call
  | write (react : Reaction ω) (order : VisitOrder) (data : Bytes)
  | turns (react : Reaction ω) (update : ValueUpdate) (registrations : List Registration)

/-- What is told to an observer if nothing is written meanwhile. -/
def Stage.tells? {ω : Type} : Stage ω → Registration → Option Bytes
  | .turns _ update registrations, registration =>
    if registration ∈ registrations then some update.data else none
  | _, _ => none

/-- An observer is one of those that the turns do not reach. -/
def Stage.Misses {ω : Type} : Stage ω → Tree × ω → Registration → Prop
  | .turns react update registrations, world, registration =>
    registration ∈ (deliver react update registrations world).1
  | _, _, _ => False

namespace Tree

open WriteEvent hiding began told ended

/-- How a stage leads from one world to another, during the writes that go on around it, and what
happens to the value on the way. An observer that has been called may write the value again and do
other things, in any order and any number of times. -/
inductive Proceeds {ω : Type} (handle : Handle) :
    Stage ω → List Unfinished → Tree × ω → List WriteEvent → Tree × ω → Prop
  | returned (outer : List Unfinished) (world : Tree × ω) :
      Proceeds handle .call outer world [] world
  -- Whatever does not write the value leaves its payload alone.
  | changed {outer : List Unfinished} {world next last : Tree × ω} {log : List WriteEvent}
      (keeps : (next.1.value? handle).map Prod.fst = (world.1.value? handle).map Prod.fst)
      (rest : Proceeds handle .call outer next log last) :
      Proceeds handle .call outer world log last
  | wrote {outer : List Unfinished} {world next last : Tree × ω} {log more : List WriteEvent}
      {react : Reaction ω} {order : VisitOrder} {data : Bytes}
      (first : Proceeds handle (.write react order data) outer world log next)
      (rest : Proceeds handle .call outer next more last) :
      Proceeds handle .call outer world (log ++ more) last
  | write {outer : List Unfinished} {world told last : Tree × ω} {log : List WriteEvent}
      {react : Reaction ω} {order : VisitOrder} {data payload : Bytes} {property : Property}
      {watchers remaining : Table SessionId Observer}
      (found : world.1.property? handle = some property)
      (isValue : property.watchers? = some watchers)
      (turns : Proceeds handle
        (.turns react { uuid := property.uuid, data } (order.arrange watchers.entries)) outer
        (world.1.overwrite handle data, world.2) log told)
      (written : Tree.write react order handle data world = some last)
      (isLast : last.1.value? handle = some (payload, remaining)) :
      Proceeds handle (.write react order data) outer world
        (.began ⟨data, watchers, outer⟩ :: log ++ [.ended remaining]) last
  | allTold (outer : List Unfinished) (react : Reaction ω) (update : ValueUpdate)
      (world : Tree × ω) :
      Proceeds handle (.turns react update []) outer world [] world
  | told {outer : List Unfinished} {world last : Tree × ω} {log more : List WriteEvent}
      {react : Reaction ω} {update : ValueUpdate} {registration : Registration}
      {others : List Registration}
      (called : Proceeds handle .call (outer ++ [⟨update.data, others⟩]) world log
        (react registration.2 update world).2)
      (rest : Proceeds handle (.turns react update others) outer
        (react registration.2 update world).2 more last) :
      Proceeds handle (.turns react update (registration :: others)) outer world
        (.told registration update.data (react registration.2 update world).1 :: log ++ more) last

variable {ω : Type} {handle : Handle} {stage : Stage ω} {outer : List Unfinished}
  {world last : Tree × ω} {log : List WriteEvent} {react : Reaction ω} {order : VisitOrder}
  {data : Bytes}

theorem Proceeds.eq_deliver {update : ValueUpdate} {registrations : List Registration}
    (proceeds : Proceeds handle (.turns react update registrations) outer world log last) :
    last = (deliver react update registrations world).2 := by
  induction registrations generalizing world log with
  | nil =>
      cases proceeds
      rfl
  | cons registration others ih =>
      cases proceeds with
      | told called rest => exact ih rest

/-- What a write leaves is what its turns have left, without those that were not reached. -/
theorem value?_of_write {property : Property} {watchers : Table SessionId Observer}
    {unserved : List Registration} {told : Tree × ω}
    (found : world.1.property? handle = some property)
    (isValue : property.watchers? = some watchers)
    (delivery : deliver react { uuid := property.uuid, data } (order.arrange watchers.entries)
      (world.1.overwrite handle data, world.2) = (unserved, told))
    (written : Tree.write react order handle data world = some last) :
    last.1.value? handle = (told.1.value? handle).map fun value =>
      (value.1, value.2.filter fun subscriber observer =>
        !unserved.contains (subscriber, observer)) := by
  rw [← Prod.eta world, write_eq_some found isValue, delivery, Option.some.injEq] at written
  rw [← written]
  exact value?_prune told.1 handle unserved

theorem payload_of_write {property : Property} {watchers : Table SessionId Observer}
    {told : Tree × ω} (found : world.1.property? handle = some property)
    (isValue : property.watchers? = some watchers)
    (turns : Proceeds handle
      (.turns react { uuid := property.uuid, data } (order.arrange watchers.entries)) outer
      (world.1.overwrite handle data, world.2) log told)
    (written : Tree.write react order handle data world = some last) :
    (last.1.value? handle).map Prod.fst = (told.1.value? handle).map Prod.fst := by
  rw [value?_of_write found isValue (Prod.eta _).symm written, ← turns.eq_deliver, Option.map_map]
  rfl

/-- What the write that began last has made of the value, and what its observers were told last,
those aside that the writes around have yet to tell. -/
structure Settled (handle : Handle) (outer : List Unfinished) (log : List WriteEvent)
    (last : Tree × ω) (latest : Beginning) : Prop where
  payload : (last.1.value? handle).map Prod.fst = some latest.data
  within : outer <+: latest.outer
  told : ∀ registration, latest.watchers.find? registration.1 = some registration.2 →
    due? outer registration = none →
      (lastTurn? registration log).map Prod.fst = some (latest.lastDue registration)

theorem Settled.of_payload {next : Tree × ω} {latest : Beginning}
    (settled : Settled handle outer log world latest)
    (same : (next.1.value? handle).map Prod.fst = (world.1.value? handle).map Prod.fst) :
    Settled handle outer log next latest :=
  { settled with payload := same.trans settled.payload }

theorem Settled.after {more : List WriteEvent} {latest : Beginning}
    (settled : Settled handle outer more last latest) (log : List WriteEvent) :
    Settled handle outer (log ++ more) last latest where
  payload := settled.payload
  within := settled.within
  told := by
    intro registration watches unconcerned
    rw [lastTurn?_append, Option.map_or, settled.told registration watches unconcerned]
    rfl

/-- What is known of a value and of what its observers were told, by whether it has been written. -/
structure Followed (handle : Handle) (stage : Stage ω) (outer : List Unfinished)
    (world : Tree × ω) (log : List WriteEvent) (last : Tree × ω) : Prop where
  settled : ∀ latest, latest? log = some latest → Settled handle outer log last latest
  kept : latest? log = none →
    (last.1.value? handle).map Prod.fst = (world.1.value? handle).map Prod.fst
  told : latest? log = none →
    ∀ registration, (lastTurn? registration log).map Prod.fst = stage.tells? registration

namespace Followed

variable {next : Tree × ω} {more : List WriteEvent}

theorem after {newest : Beginning} (rest : Followed handle stage outer next more last)
    (isNewest : latest? more = some newest) (other : Stage ω) (world : Tree × ω)
    (log : List WriteEvent) : Followed handle other outer world (log ++ more) last := by
  have both : latest? (log ++ more) = some newest := by
    rw [latest?_append, isNewest]
    rfl
  refine ⟨?_, ?_, ?_⟩ <;> rw [both]
  · rintro latest ⟨⟩
    exact (rest.settled newest isNewest).after log
  · exact nofun
  · exact nofun

theorem wrote (first : Followed handle (.write react order data) outer world log next)
    (rest : Followed handle .call outer next more last) :
    Followed handle .call outer world (log ++ more) last := by
  cases isNewest : latest? more with
  | some newest => exact rest.after isNewest _ _ _
  | none =>
      have both : latest? (log ++ more) = latest? log := by
        rw [latest?_append, isNewest]
        rfl
      have silent (registration : Registration) :
          (lastTurn? registration (log ++ more)).map Prod.fst =
            (lastTurn? registration log).map Prod.fst := by
        rw [lastTurn?_append, Option.map_or, rest.told isNewest registration]
        rfl
      refine ⟨?_, ?_, ?_⟩ <;> rw [both]
      · intro latest isLatest
        have settled := (first.settled latest isLatest).of_payload (rest.kept isNewest)
        refine { settled with told := fun registration watches unconcerned => ?_ }
        rw [silent]
        exact settled.told registration watches unconcerned
      · exact fun quiet => (rest.kept isNewest).trans (first.kept quiet)
      · exact fun quiet registration => (silent registration).trans (first.told quiet registration)

/-- If none of those who have their turn writes, the beginning of the write is what is settled. -/
theorem settled_of_turns {property : Property} {watchers : Table SessionId Observer}
    (found : world.1.property? handle = some property)
    (isValue : property.watchers? = some watchers)
    (turns : Followed handle
      (.turns react { uuid := property.uuid, data } (order.arrange watchers.entries)) outer
      (world.1.overwrite handle data, world.2) log last) :
    Settled handle outer log last ((latest? log).getD ⟨data, watchers, outer⟩) := by
  cases isLatest : latest? log with
  | some latest => exact turns.settled latest isLatest
  | none =>
      refine ⟨?_, List.prefix_rfl, ?_⟩
      · rcases value?_of_watchers? found isValue with ⟨old, isPair⟩
        rw [turns.kept isLatest, value?_overwrite, if_pos rfl, isPair]
        rfl
      · intro registration watches unconcerned
        have visited : registration ∈ order.arrange watchers.entries :=
          (order.perm _).mem_iff.mpr ((Table.mem_entries_iff _ _ _).mpr watches)
        rw [turns.told isLatest, Stage.tells?, if_pos visited, Option.getD_none, Beginning.lastDue,
          unconcerned]
        rfl

theorem write {property : Property} {watchers : Table SessionId Observer} {told : Tree × ω}
    (found : world.1.property? handle = some property)
    (isValue : property.watchers? = some watchers)
    (turns : Followed handle
      (.turns react { uuid := property.uuid, data } (order.arrange watchers.entries)) outer
      (world.1.overwrite handle data, world.2) log told)
    (same : (last.1.value? handle).map Prod.fst = (told.1.value? handle).map Prod.fst)
    (remaining : Table SessionId Observer) :
    Followed handle (.write react order data) outer world
      (.began ⟨data, watchers, outer⟩ :: log ++ [.ended remaining]) last := by
  have settled := (turns.settled_of_turns found isValue).of_payload same
  refine ⟨?_, ?_, ?_⟩ <;> rw [latest?_write]
  · rintro latest ⟨⟩
    refine { settled with told := fun registration watches unconcerned => ?_ }
    rw [lastTurn?_write]
    exact settled.told registration watches unconcerned
  · exact nofun
  · exact nofun

theorem told_then {update : ValueUpdate} {registration : Registration}
    {others : List Registration} {reached : Bool}
    (called : Followed handle .call (outer ++ [⟨update.data, others⟩]) world log next)
    (rest : Followed handle (.turns react update others) outer next more last) :
    Followed handle (.turns react update (registration :: others)) outer world
      (.told registration update.data reached :: log ++ more) last := by
  cases isNewest : latest? more with
  | some newest => exact rest.after isNewest _ _ _
  | none =>
      -- The newest write, if any, was made by the observer that was called: to it, the turns of the
      -- others are turns that a write further out had yet to give.
      have both :
          latest? (.told registration update.data reached :: log ++ more) = latest? log := by
        rw [latest?_append, isNewest, latest?_told]
        rfl
      refine ⟨?_, ?_, ?_⟩ <;> rw [both]
      · intro latest isLatest
        have settled := (called.settled latest isLatest).of_payload (rest.kept isNewest)
        refine ⟨settled.payload, (List.prefix_append _ _).trans settled.within, ?_⟩
        intro other watches unconcerned
        rw [lastTurn?_append, lastTurn?_told, Option.map_or, Option.map_or, rest.told isNewest,
          Stage.tells?]
        by_cases yet : other ∈ others
        · rw [if_pos yet, Beginning.lastDue_of_left settled.within unconcerned yet]
          rfl
        · have elsewhere : due? (outer ++ [⟨update.data, others⟩]) other = none := by
            rw [due?_append, unconcerned, due?_singleton, if_neg yet]
            rfl
          rw [if_neg yet, settled.told other watches elsewhere]
          rfl
      · exact fun quiet => (rest.kept isNewest).trans (called.kept quiet)
      · intro quiet other
        rw [lastTurn?_append, lastTurn?_told, Option.map_or, Option.map_or, rest.told isNewest,
          called.told quiet]
        by_cases yet : other ∈ others
        · simp [Stage.tells?, yet]
        · rcases eq_or_ne registration other with rfl | differs
          · simp [Stage.tells?, yet]
          · simp [Stage.tells?, yet, differs, differs.symm]

end Followed

theorem Proceeds.followed (proceeds : Proceeds handle stage outer world log last) :
    Followed handle stage outer world log last := by
  induction proceeds with
  | returned outer world => exact ⟨nofun, fun _ => rfl, fun _ _ => rfl⟩
  | changed keeps rest ih => exact { ih with kept := fun quiet => (ih.kept quiet).trans keeps }
  | wrote first rest ihFirst ihRest => exact ihFirst.wrote ihRest
  | write found isValue turns written isLast ih =>
      exact ih.write found isValue (payload_of_write found isValue turns written) _
  | allTold outer react update world => exact ⟨nofun, fun _ => rfl, fun _ _ => rfl⟩
  | told called rest ihCalled ihRest => exact ihCalled.told_then ihRest

theorem exists_proceeds_of_turns
    (calls : ∀ outer observer update world, ∃ log,
      Proceeds handle .call outer world log (react observer update world).2)
    (outer : List Unfinished) (update : ValueUpdate) (registrations : List Registration)
    (world : Tree × ω) :
    ∃ log, Proceeds handle (.turns react update registrations) outer world log
      (deliver react update registrations world).2 := by
  induction registrations generalizing world with
  | nil => exact ⟨[], .allTold outer react update world⟩
  | cons registration others ih =>
      rcases calls (outer ++ [⟨update.data, others⟩]) registration.2 update world with ⟨log, called⟩
      rcases ih (react registration.2 update world).2 with ⟨more, rest⟩
      exact ⟨_, .told called rest⟩

/-- Every write of a value proceeds so, if the calls of its observers do. -/
theorem exists_proceeds_of_write {payload : Bytes} {watchers : Table SessionId Observer}
    (calls : ∀ outer observer update world, ∃ log,
      Proceeds handle .call outer world log (react observer update world).2)
    (isThere : world.1.value? handle = some (payload, watchers)) (order : VisitOrder)
    (data : Bytes) (outer : List Unfinished) :
    ∃ log last, Proceeds handle (.write react order data) outer world log last := by
  rcases exists_property_of_value? isThere with ⟨property, found, isValue⟩
  rcases exists_proceeds_of_turns calls outer ⟨property.uuid, data⟩
    (order.arrange watchers.entries) (world.1.overwrite handle data, world.2) with ⟨log, turns⟩
  have written : Tree.write react order handle data world = some _ :=
    write_eq_some found isValue
  have isLast := value?_of_write found isValue (Prod.eta _).symm written
  rcases Option.map_eq_some_iff.mp (turns.followed.settled_of_turns found isValue).payload with
    ⟨told, isTold, _⟩
  rw [isTold] at isLast
  exact ⟨_, _, .write found isValue turns written isLast⟩

/-- A write takes away the registrations of those whom it has not reached. -/
theorem Proceeds.misses_of_stays (proceeds : Proceeds handle stage outer world log last)
    {registration : Registration} (stays : StaysRegistered registration log)
    (missed : .told registration data false ∈ log) : stage.Misses world registration := by
  induction proceeds with
  | returned outer world => cases missed
  | changed keeps rest ih => exact ih stays missed
  | wrote first rest ihFirst ihRest =>
      rcases List.mem_append.mp missed with early | late
      · exact ihFirst (fun watchers mem => stays watchers (List.mem_append_left _ mem)) early
      · exact ihRest (fun watchers mem => stays watchers (List.mem_append_right _ mem)) late
  | write found isValue turns written isLast ih =>
      have unserved := ih
        (fun watchers mem => stays watchers (List.mem_append_left _ (List.mem_cons_of_mem _ mem)))
        (by simpa using missed)
      have isRemaining := stays _ (List.mem_append_right _ (List.mem_singleton_self _))
      have pruned := value?_of_write found isValue (Prod.eta _).symm written
      rw [isLast, eq_comm, Option.map_eq_some_iff] at pruned
      rcases pruned with ⟨value, _, isFiltered⟩
      rw [← (Prod.mk.inj isFiltered).2, Table.find?_filter,
        Option.filter_eq_some_iff] at isRemaining
      simp [show _ ∈ _ from unserved] at isRemaining
  | allTold outer react update world => cases missed
  | told called rest ihCalled ihRest =>
      simp only [List.cons_append, List.mem_cons, List.mem_append] at missed
      simp only [Stage.Misses, deliver]
      rcases missed with first | early | late
      · rw [WriteEvent.told.injEq] at first
        rcases first with ⟨rfl, rfl, isMissed⟩
        simp [← isMissed]
      · exact (ihCalled (fun watchers mem => stays watchers (by simp [mem])) early).elim
      · have unserved := ihRest (fun watchers mem => stays watchers (by simp [mem])) late
        split
        · exact unserved
        · exact List.mem_cons_of_mem _ unserved

theorem Proceeds.exists_beginning
    (proceeds : Proceeds handle (.write react order data) outer world log last) :
    Tree.write react order handle data world = some last ∧
      ∃ latest, latest? log = some latest := by
  cases proceeds with
  | write found isValue turns written isLast => exact ⟨written, _, latest?_write _ _ _⟩

/-- After a write, whatever its observers do, the payload is that of the write that began last, and
whoever was registered when it began was told last what was due then. -/
theorem Proceeds.last_told {uuid : Uuid} {tree after : Tree} {outside ended : ω}
    (found : tree.findUuid uuid = .ok handle)
    (proceeds : Proceeds handle (.write react order data) [] (tree.hold handle, outside) log
      (after, ended)) :
    setValue react order uuid data (tree, outside) = (.ok (), after.release handle, ended) ∧
      ∃ latest, latest? log = some latest ∧
        (after.value? handle).map Prod.fst = some latest.data ∧
        (∀ value, (after.release handle).value? handle = some value → value.1 = latest.data) ∧
        ∀ registration, latest.watchers.find? registration.1 = some registration.2 →
          ∃ reached, lastTurn? registration log = some (latest.lastDue registration, reached) ∧
            (StaysRegistered registration log → reached = true) := by
  rcases proceeds.exists_beginning with ⟨written, latest, isLatest⟩
  have settled := proceeds.followed.settled latest isLatest
  refine ⟨?_, latest, isLatest, settled.payload, ?_, ?_⟩
  · simp only [setValue_eq, found, written]
  · intro value isValue
    have payload := settled.payload
    rw [KeepsValues.release after handle handle value isValue] at payload
    exact Option.some.inj payload
  · intro registration watches
    have told := settled.told registration watches rfl
    rw [Option.map_eq_some_iff] at told
    rcases told with ⟨⟨_, reached⟩, isLast, rfl⟩
    refine ⟨reached, isLast, fun stays => ?_⟩
    by_contra missed
    rw [Bool.not_eq_true] at missed
    subst missed
    exact proceeds.misses_of_stays stays (mem_of_lastTurn? isLast)

/-- The second of three observers writes again. The first and the second are told of both writes in
order, and the third is told of the newer one first. -/
theorem Proceeds.last_told_nested :
    ∃ (react : Reaction Unit) (tree after : Tree) (log : List WriteEvent),
      setValue react .stored 100 [1] (tree, ()) = (.ok (), after.release 1, ()) ∧
      (after.value? 1).map Prod.fst = some [1, 0xee] ∧
      lastTurn? (2, 1) log = some ([1, 0xee], true) ∧
      lastTurn? (1, 0) log = some ([1, 0xee], true) ∧
      lastTurn? (3, 2) log = some ([1], true) := by
  let idle : Reaction Unit := fun _ _ world => (true, world)
  let react : Reaction Unit := fun observer update world =>
    if observer = 0 then
      (true, (Tree.write idle .stored 1 (update.data ++ [0xee]) world).getD world)
    else (true, world)
  let watchers : Table SessionId Observer := ((Table.empty.insert 2 1).insert 1 0).insert 3 2
  let tree := (Tree.new.attach rootHandle "v" (.new .value [0] 1) 100 .fresh).mapWatchers 1
    fun _ => watchers
  let middle := (tree.hold 1).overwrite 1 [1]
  let final := (middle.overwrite 1 [1, 0xee]).prune 1 []
  have inner : Proceeds 1 (.write idle .stored [1, 0xee]) [⟨[1], [(3, 2)]⟩] (middle, ()) _
      (final, ()) :=
    .write rfl rfl (.told (.returned _ _) (.told (.returned _ _)
      (.told (.returned _ _) (.allTold _ _ _ _)))) rfl rfl
  have turns : Proceeds 1 (.turns react ⟨100, [1]⟩ [(2, 1), (1, 0), (3, 2)]) [] (middle, ()) _
      (final, ()) :=
    .told (.returned _ _) (.told (.wrote inner (.returned _ _))
      (.told (.returned _ _) (.allTold _ _ _ _)))
  have proceeds : Proceeds 1 (.write react .stored [1]) [] (tree.hold 1, ()) _
      (final.prune 1 [], ()) :=
    .write rfl rfl turns rfl rfl
  let log : List WriteEvent := [.began ⟨[1], watchers, []⟩, .told (2, 1) [1] true,
    .told (1, 0) [1] true, .began ⟨[1, 0xee], watchers, [⟨[1], [(3, 2)]⟩]⟩,
    .told (2, 1) [1, 0xee] true, .told (1, 0) [1, 0xee] true, .told (3, 2) [1, 0xee] true,
    .ended watchers, .told (3, 2) [1] true, .ended watchers]
  change Proceeds 1 _ [] _ log _ at proceeds
  have found : tree.findUuid 100 = .ok 1 := rfl
  rcases Proceeds.last_told found proceeds with ⟨success, latest, isLatest, payload, _, told⟩
  injection isLatest with isLatest
  subst isLatest
  have stays : ∀ registration, watchers.find? registration.1 = some registration.2 →
      StaysRegistered registration log := by
    intro registration watches remaining mem
    simp [log] at mem
    exact mem ▸ watches
  rcases told (2, 1) rfl with ⟨_, first, firstReached⟩
  rcases told (1, 0) rfl with ⟨_, second, secondReached⟩
  rcases told (3, 2) rfl with ⟨_, third, thirdReached⟩
  rw [firstReached (stays _ rfl)] at first
  rw [secondReached (stays _ rfl)] at second
  rw [thirdReached (stays _ rfl)] at third
  exact ⟨react, tree, _, log, success, payload, first, second, third⟩

/-- An observer that is still registered has been told last of a payload that is not the current
one. -/
theorem exists_stale_observer :
    ∃ (tree after : Tree) (probes last : Probes),
      setValue probes.reaction .stored 100 [1] (tree, probes) = (.ok (), after, last) ∧
      (tree.watched 100).map (fun watched => watched.2.find? 2) = .ok (some 1) ∧
      (after.watched 100).map (fun watched => watched.2.find? 2) = .ok (some 1) ∧
      after.getValue 100 = .ok [1, 0xee] ∧
      (last.made.find? 1).map Probe.heard = some [⟨100, [1, 0xee]⟩, ⟨100, [1]⟩] := by
  let probes := (({} : Probes).make "writer" 1 .echo).make "reader" 2 .record
  let tree := (Tree.new.attach rootHandle "v" (.new .value [0] 1) 100 .fresh).mapWatchers 1
    fun watchers => (watchers.insert 1 0).insert 2 1
  refine ⟨tree, _, probes, _, rfl, rfl, ?_, ?_, ?_⟩
  all_goals decide +kernel

end Tree

end SharedTree
