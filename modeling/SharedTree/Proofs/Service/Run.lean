import Mathlib.Data.List.Induction
import SharedTree.Proofs.Service.Events

/-!
# Runs of the service

A run is any sequence of events that starts from a new service. Its log keeps each event
together with the service that it happened to.

In every run, handles are given in the order of the log, and every property was created by
the sender of a frame; an endpoint was created by the session that answers its calls.
-/

namespace SharedTree

/-- The runs that start from a new service, with their logs. -/
inductive Runs (maxBody : Nat) : List Occurrence → Service → Prop where
  | new : Runs maxBody [] (.new maxBody)
  | next {log : List Occurrence} {service : Service} (before : Runs maxBody log service)
      (event : ServiceEvent) (allowed : service.Allows event) :
      Runs maxBody (log ++ [⟨service, event⟩]) (service.next event)

namespace Runs

variable {maxBody : Nat} {log : List Occurrence} {service : Service}

/-- A run goes on with a frame that carries a message. -/
theorem serve (run : Runs maxBody log service) (sender : SessionId) (transaction : TransactionId)
    (message : Message) {frame : Frame} (_carries : Frame.ofMessage message transaction = .ok frame) :
    Runs maxBody (log ++ [⟨service, .frame .stored sender frame⟩])
      (service.next (.frame .stored sender frame)) :=
  run.next (.frame .stored sender frame) trivial

theorem coherent (run : Runs maxBody log service) : service.Coherent := by
  induction run with
  | new => exact .new _
  | next _ event allowed ih => exact ih.next allowed

/-- A session that has not been opened yet was never there. -/
theorem unborn (run : Runs maxBody log service) {id : SessionId}
    (unborn : service.nextSession.toNat ≤ id.toNat) :
    ∀ occurrence ∈ log, occurrence.before.session? id = none ∧
      occurrence.after.session? id = none := by
  induction run with
  | new => simp
  | next before event allowed ih =>
      have earlier := (Service.nextSession_le_next allowed).trans unborn
      intro occurrence mem
      rcases List.mem_append.mp mem with old | last
      · exact ih earlier occurrence old
      · rw [List.mem_singleton.mp last]
        exact ⟨before.coherent.session?_unborn earlier,
          (before.coherent.next allowed).session?_unborn unborn⟩

/-- Nothing of what a log has for existing sessions is for one that has not been opened yet. -/
theorem flatMap_unborn {α : Type} (run : Runs maxBody log service) {id : SessionId}
    (unborn : service.nextSession.toNat ≤ id.toNat) {part : Occurrence → List α}
    (silent : ∀ service event, service.session? id = none → part ⟨service, event⟩ = []) :
    log.flatMap part = [] := by
  rw [List.flatMap_eq_nil_iff]
  intro occurrence mem
  exact silent _ _ (run.unborn unborn occurrence mem).1

theorem nextHandle_le (run : Runs maxBody log service) :
    ∀ occurrence ∈ log, occurrence.after.tree.nextHandle ≤ service.tree.nextHandle := by
  induction run with
  | new => simp
  | next before event allowed ih =>
      rcases Service.grown_next before.coherent event with ⟨owner?, grown, _⟩
      intro occurrence mem
      rcases List.mem_append.mp mem with old | last
      · exact (ih occurrence old).trans grown.nextHandle
      · rw [List.mem_singleton.mp last]
        exact Nat.le_refl _

theorem nextHandle_le_after (run : Runs maxBody log service) {occurrence : Occurrence}
    (mem : occurrence ∈ log) :
    occurrence.before.tree.nextHandle ≤ occurrence.after.tree.nextHandle := by
  induction run with
  | new => cases mem
  | next before event allowed ih =>
      rcases List.mem_append.mp mem with old | last
      · exact ih old
      · rw [List.mem_singleton.mp last]
        rcases Service.grown_next before.coherent event with ⟨owner?, grown, _⟩
        exact grown.nextHandle

/-- Handles are given in the order of the log. -/
theorem ordered (run : Runs maxBody log service) :
    log.Pairwise fun earlier later =>
      earlier.after.tree.nextHandle ≤ later.before.tree.nextHandle := by
  induction run with
  | new => exact .nil
  | next before event allowed ih =>
      refine List.pairwise_append.mpr ⟨ih, List.pairwise_singleton _ _, ?_⟩
      intro earlier old later last
      rw [List.mem_singleton.mp last]
      exact before.nextHandle_le earlier old

/-- A property that an event creates has the handle that was to be given next. -/
theorem creates_eq (run : Runs maxBody log service) {occurrence : Occurrence} {handle : Handle}
    (mem : occurrence ∈ log) (creates : occurrence.Creates handle) :
    handle = occurrence.before.tree.nextHandle ∧ handle < occurrence.after.tree.nextHandle := by
  induction run with
  | new => cases mem
  | next before event allowed ih =>
      rcases List.mem_append.mp mem with old | last
      · exact ih old
      · rw [List.mem_singleton.mp last] at creates ⊢
        rcases Service.grown_next before.coherent event with ⟨owner?, grown, _⟩
        rcases (Tree.exists?_iff _ _).mp creates.2 with ⟨property, found⟩
        refine ⟨?_, (before.coherent.next allowed).sound.bounded _ _ found⟩
        rcases grown.origin handle property found with ⟨earlier, earlierFound, _⟩ | ⟨isNext, _⟩
        · have existed := (Tree.exists?_iff _ _).mpr ⟨earlier, earlierFound⟩
          rw [creates.1] at existed
          cases existed
        · exact isNext

/-- Every property but the root was created in the run. -/
theorem exists_creates (run : Runs maxBody log service) {handle : Handle}
    (found : service.tree.exists? handle = true) (notRoot : handle ≠ Tree.rootHandle) :
    ∃ occurrence ∈ log, occurrence.Creates handle := by
  induction run with
  | new =>
      rcases (Tree.exists?_iff _ _).mp found with ⟨property, isThere⟩
      exact absurd ((Tree.eq_of_property?_new isThere).1) notRoot
  | @next log service before event allowed ih =>
      cases existed : service.tree.exists? handle with
      | true =>
          rcases ih existed with ⟨occurrence, mem, creates⟩
          exact ⟨occurrence, List.mem_append_left _ mem, creates⟩
      | false => exact ⟨⟨service, event⟩, by simp, existed, found⟩

/-! ## Parts of a run -/

variable {earlier later : List Occurrence} {made : Occurrence}

theorem of_concat (run : Runs maxBody (log ++ [made]) service) :
    Runs maxBody log made.before ∧ made.before.Allows made.event ∧ service = made.after := by
  generalize whole : log ++ [made] = full at run
  cases run with
  | new => simp at whole
  | next before event allowed =>
      rcases List.append_inj' whole rfl with ⟨rfl, same⟩
      cases same
      exact ⟨before, allowed, rfl⟩

/-- What holds when a log begins and is kept by every event holds for the rest of the log. -/
theorem induction_after {motive : List Occurrence → Service → Prop}
    (run : Runs maxBody (earlier ++ later) service)
    (start : ∀ first, Runs maxBody earlier first → motive [] first)
    (step : ∀ rest middle event, Runs maxBody (earlier ++ rest) middle → middle.Allows event →
      motive rest middle → motive (rest ++ [⟨middle, event⟩]) (middle.next event)) :
    motive later service := by
  induction later using List.reverseRecOn generalizing service with
  | nil =>
      rw [List.append_nil] at run
      exact start service run
  | append_singleton rest last ih =>
      rw [← List.append_assoc] at run
      rcases run.of_concat with ⟨before, allowed, rfl⟩
      exact step rest last.before last.event before allowed (ih before)

theorem coherent_of_mem (run : Runs maxBody log service) :
    ∀ occurrence ∈ log, occurrence.before.Coherent := by
  induction run with
  | new => simp
  | next before event allowed ih =>
      intro occurrence mem
      rcases List.mem_append.mp mem with old | last
      · exact ih occurrence old
      · rw [List.mem_singleton.mp last]
        exact before.coherent

theorem of_append (run : Runs maxBody (earlier ++ later) service) :
    ∃ first, Runs maxBody earlier first :=
  run.induction_after (motive := fun _ _ => ∃ first, Runs maxBody earlier first)
    (fun first before => ⟨first, before⟩) fun _ _ _ _ _ before => before

theorem before_made (run : Runs maxBody (earlier ++ made :: later) service) :
    Runs maxBody earlier made.before ∧ made.before.Allows made.event ∧
      Runs maxBody (earlier ++ [made]) made.after := by
  rw [List.append_cons] at run
  rcases run.of_append with ⟨first, untilMade⟩
  rcases untilMade.of_concat with ⟨before, allowed, rfl⟩
  exact ⟨before, allowed, untilMade⟩

/-! ## Owners -/

/-- The session that answers the calls of an endpoint created it, and is signed in. -/
theorem owned (run : Runs maxBody log service) {endpoint : Handle} {property : Property}
    {handler : SessionId} (found : service.tree.property? endpoint = some property)
    (answers : property.handler? = some handler) :
    (∃ creation ∈ log, creation.Creates endpoint ∧ creation.event.sender? = some handler) ∧
      handler.toNat < service.nextSession.toNat ∧
      ∀ session, service.session? handler = some session → session.signedIn = true := by
  induction run generalizing property with
  | new =>
      rw [(Tree.eq_of_property?_new found).2] at answers
      cases answers
  | @next log service before event allowed ih =>
      have coherent := before.coherent
      rcases Service.grown_next coherent event with ⟨owner?, grown, isOwner⟩
      have stays {session later : Session} (isThere : service.session? handler = some session)
          (signedIn : session.signedIn = true)
          (laterFound : (service.next event).session? handler = some later) :
          later.signedIn = true := coherent.signedIn_next isThere laterFound signedIn
      rcases grown.origin endpoint property found with ⟨old, oldFound, same⟩ | ⟨isNew, owns⟩
      · rcases ih oldFound (same.symm.trans answers) with ⟨creation, born, signedIn⟩
        rcases creation with ⟨occurrence, mem, creates⟩
        refine ⟨⟨occurrence, List.mem_append_left _ mem, creates⟩,
          Nat.lt_of_lt_of_le born (Service.nextSession_le_next allowed), ?_⟩
        intro later laterFound
        cases isThere : service.session? handler with
        | none =>
            rcases Service.opened_of_absent isThere laterFound with ⟨_, _, _, isNext, _⟩
            rw [isNext] at born
            exact absurd born (Nat.lt_irrefl _)
        | some session => exact stays isThere (signedIn session isThere) laterFound
      · rcases isOwner handler (owns handler answers) with
          ⟨⟨order, frame, rfl⟩, session, isThere, signedIn⟩
        refine ⟨⟨⟨service, .frame order handler frame⟩, by simp, ⟨?_, ?_⟩, rfl⟩, ?_, ?_⟩
        · rw [isNew, ← Bool.not_eq_true, Tree.exists?_iff]
          rintro ⟨impossible, isFound⟩
          exact coherent.sound.ne_nextHandle isFound rfl
        · exact (Tree.exists?_iff _ _).mpr ⟨property, found⟩
        · exact Nat.lt_of_lt_of_le (coherent.numbered _ _ isThere).2
            (Service.nextSession_le_next allowed)
        · intro later laterFound
          exact stays isThere signedIn laterFound

end Runs

end SharedTree
