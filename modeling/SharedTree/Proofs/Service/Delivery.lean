import SharedTree.Proofs.Service.Effects

/-!
# Delivering an update to sessions

When every registration of a value carries the number of its own subscriber, delivering an
update pushes it once to each subscriber and leaves all other sessions alone. A registration
that cannot be served belongs to a session that is gone or has stopped, and no such session is
served.
-/

namespace SharedTree

/-- Registrations of different subscribers, each observed by its own subscriber. -/
structure Registration.Proper (registrations : List Registration) : Prop where
  distinct : (registrations.map Prod.fst).Nodup
  own : ∀ registration ∈ registrations, registration.2 = registration.1.toNat

namespace Registration.Proper

variable {registration : Registration} {registrations others : List Registration}

theorem tail (proper : Proper (registration :: others)) : Proper others :=
  ⟨(List.nodup_cons.mp proper.distinct).2, fun other mem => proper.own other
    (List.mem_cons_of_mem _ mem)⟩

theorem head_not_mem (proper : Proper (registration :: others)) :
    registration.1 ∉ others.map Prod.fst :=
  (List.nodup_cons.mp proper.distinct).1

theorem observer_eq (proper : Proper registrations) (mem : registration ∈ registrations) :
    UInt64.ofNat registration.2 = registration.1 := by
  rw [proper.own registration mem, UInt64.ofNat_toNat]

theorem perm (proper : Proper registrations) (same : others.Perm registrations) : Proper others :=
  ⟨(same.map Prod.fst).nodup_iff.mpr proper.distinct, fun registration mem =>
    proper.own registration (same.mem_iff.mp mem)⟩

end Registration.Proper

namespace Service

open Registration (Proper)

variable {update : ValueUpdate} {registrations : List Registration}

theorem mem_map_arrange_iff (order : VisitOrder) (watchers : Table SessionId Observer)
    (id : SessionId) :
    id ∈ (order.arrange watchers.entries).map Prod.fst ↔ watchers.contains id = true := by
  rw [((order.perm _).map Prod.fst).mem_iff, Table.contains_iff]
  exact watchers.mem_keys_iff id

/-- Every subscriber is sent the update once, and nobody else. -/
theorem find?_deliver (proper : Proper registrations) (update : ValueUpdate)
    (world : Tree × Table SessionId Session) (id : SessionId) :
    (deliver reaction update registrations world).2.2.find? id =
      if id ∈ registrations.map Prod.fst then
        (world.2.find? id).map (·.push (.update update))
      else world.2.find? id := by
  induction registrations generalizing world with
  | nil => rfl
  | cons registration others ih =>
      simp only [deliver]
      rw [ih proper.tail, find?_reaction, proper.observer_eq List.mem_cons_self]
      by_cases isHead : id = registration.1
      · rw [if_pos isHead, isHead, if_neg proper.head_not_mem, if_pos (by simp)]
      · simp only [isHead, if_false, List.map_cons, List.mem_cons, false_or]

theorem unserved_reaction {observer : Observer} {world : Tree × Table SessionId Session}
    (unserved : (reaction observer update world).1 = false) :
    ∀ session, (reaction observer update world).2.2.find? (UInt64.ofNat observer) = some session →
      session.stopped = true := by
  intro session found
  rw [find?_reaction, if_pos rfl] at found
  rcases Option.map_eq_some_iff.mp found with ⟨before, isThere, rfl⟩
  simp only [reaction, isThere, Session.notify] at unserved
  split at unserved
  · next stopped => rwa [show before.push (.update update) = before by simp [Session.push, stopped]]
  · simpa using unserved

/-- A registration that was not served is that of a session that is gone or has stopped. -/
theorem stopped_of_unserved (proper : Proper registrations) {update : ValueUpdate}
    {world : Tree × Table SessionId Session} {registration : Registration}
    (unserved : registration ∈ (deliver reaction update registrations world).1) :
    ∀ session, (deliver reaction update registrations world).2.2.find? registration.1 =
      some session → session.stopped = true := by
  induction registrations generalizing world with
  | nil => cases unserved
  | cons first others ih =>
      intro session found
      simp only [deliver] at unserved found
      split at unserved
      · exact ih proper.tail unserved session found
      · next notReached =>
        rcases List.mem_cons.mp unserved with rfl | isLater
        · have observer := proper.observer_eq List.mem_cons_self
          rw [find?_deliver proper.tail, if_neg proper.head_not_mem, ← observer] at found
          exact unserved_reaction (by simpa using notReached) session found
        · exact ih proper.tail isLater session found

theorem not_reached_of_halted {observer : Observer} {world : Tree × Table SessionId Session}
    (halted : ∀ session, world.2.find? (UInt64.ofNat observer) = some session →
      session.stopped = true) :
    (reaction observer update world).1 = false := by
  unfold reaction
  dsimp only
  split
  · rfl
  · next session found => simp [Session.notify, halted session found]

/-- A session that is gone or has stopped is not served. -/
theorem unserved_of_halted (proper : Proper registrations) {update : ValueUpdate}
    {world : Tree × Table SessionId Session} {registration : Registration}
    (mem : registration ∈ registrations)
    (halted : ∀ session, world.2.find? registration.1 = some session → session.stopped = true) :
    registration ∈ (deliver reaction update registrations world).1 := by
  induction registrations generalizing world with
  | nil => cases mem
  | cons first others ih =>
      simp only [deliver]
      rcases List.mem_cons.mp mem with rfl | isLater
      · have notReached : (reaction registration.2 update world).1 = false := by
          apply not_reached_of_halted
          rwa [proper.observer_eq List.mem_cons_self]
        rw [notReached]
        exact List.mem_cons_self
      · have stillHalted : ∀ session, (reaction first.2 update world).2.2.find? registration.1 =
            some session → session.stopped = true := by
          intro session found
          rw [find?_reaction] at found
          split at found
          · rcases Option.map_eq_some_iff.mp found with ⟨before, isThere, rfl⟩
            simp [Session.push, halted before isThere]
          · exact halted session found
        have unserved := ih proper.tail isLater stillHalted
        split
        · exact unserved
        · exact List.mem_cons_of_mem _ unserved

end Service

end SharedTree
