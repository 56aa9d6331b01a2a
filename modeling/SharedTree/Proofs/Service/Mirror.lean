import Mathlib.Data.List.TakeWhile
import SharedTree.Proofs.Client.Mirror
import SharedTree.Proofs.Service.Run

/-!
# What clients hear of the tree

A session that has signed in is told of every creation and every deletion, in the order in
which they happen. Whatever is drained from its backlog and whatever still waits there
therefore makes a directory that mirrors the tree since the session signed in.

The main result, `Runs.heard_mirrors`, is about the moments at which nothing waits.
-/

namespace SharedTree

namespace Service

variable {service after : Service} {order : VisitOrder} {sender : SessionId} {frame : Frame}
  {event : ServiceEvent}

/-- What a step does to the tree, and what a session hears of it. -/
inductive Told (before after : Tree) (session later : Session) : Prop where
  | nothing (quiet : before.Quiet after) (signedIn : later.signedIn = session.signedIn)
      (changes : later.changes = session.changes)
  | signedIn (same : after = before) (signedIn : later.signedIn = true)
      (changes : later.changes = session.changes)
  | created {path : String} {kind : PropertyKind} {payload : Bytes} {owner : SessionId}
      {info : PropertyInfo}
      (success : before.create path kind payload owner = (.ok info, after))
      (signedIn : later.signedIn = session.signedIn)
      (changes : later.changes =
        session.changes ++ if session.signedIn then [.created info] else [])
  | deleted {path : String} {uuid : Uuid} (success : before.delete path = (.ok uuid, after))
      (signedIn : later.signedIn = session.signedIn)
      (changes : later.changes =
        session.changes ++ if session.signedIn then [.deleted uuid] else [])

theorem Told.of_carried {before after : Tree} {session later : Session}
    {earlierState laterState : Option Session} (quiet : before.Quiet after)
    (carried : Carried Session.Unannounced earlierState laterState)
    (found : earlierState = some session) (laterFound : laterState = some later)
    (going : later.stopped = false) : Told before after session later := by
  rcases carried.present session found with ⟨same, sameFound, unannounced⟩
  rw [laterFound] at sameFound
  cases sameFound
  exact .nothing quiet unannounced.signedIn (unannounced.going going).2

theorem told_broadcast {tree : Tree} {change : TreeChange} {id : SessionId}
    {session later : Session} (found : service.session? id = some session)
    (laterFound : (({ service with tree } : Service).broadcast order change).session? id =
      some later)
    (listed : later.listed = true) (going : later.stopped = false) :
    later.signedIn = session.signedIn ∧
      later.changes = session.changes ++ if session.signedIn then [change] else [] := by
  have foundThere : ({ service with tree } : Service).session? id = some session := found
  rw [session?_broadcast, foundThere, Option.map_some, Option.some.injEq] at laterFound
  have wasListed : session.listed = true := by
    by_contra unlisted
    rw [if_neg unlisted] at laterFound
    rw [laterFound] at unlisted
    exact unlisted listed
  rw [if_pos wasListed, announcedTo] at laterFound
  by_cases signedIn : session.signedIn = true
  · rw [if_pos signedIn] at laterFound
    rw [← laterFound] at going
    rw [← laterFound, Session.signedIn_push,
      Session.changes_of_pushed (.push (.change change) session) going, if_pos signedIn]
    exact ⟨rfl, rfl⟩
  · rw [if_neg signedIn] at laterFound
    rw [if_neg signedIn, laterFound, List.append_nil]
    exact ⟨rfl, rfl⟩

theorem Handled.told (handled : Handled service order sender frame after) {id : SessionId}
    {session later : Session} (found : service.session? id = some session)
    (laterFound : after.session? id = some later) (listed : later.listed = true)
    (going : later.stopped = false) : Told service.tree after.tree session later := by
  have closed := Session.Unannounced.closed
  cases handled with
  | nothing => exact .of_carried (.refl _) (.refl closed.refl _) found laterFound going
  | signedIn asker asked =>
      rw [session?_modifySession, found] at laterFound
      split at laterFound
      · cases laterFound
        exact .signedIn rfl rfl rfl
      · cases laterFound
        exact .nothing (.refl _) rfl rfl
  | created asker allowed success =>
      have heard := told_broadcast found laterFound listed going
      rw [(broadcast_rest _ _ _).1]
      exact .created success heard.1 heard.2
  | deleted success =>
      have heard := told_broadcast found laterFound listed going
      rw [(broadcast_rest _ _ _).1]
      exact .deleted success heard.1 heard.2
  | written success =>
      refine .of_carried (Tree.quiet_setValue passive_reaction success)
        (carried_setValue (fun entries are => closed.pushUpdates ?_) success id) found laterFound
        going
      intro entry mem
      rcases are entry mem with ⟨uuid, same⟩
      exact ⟨_, same⟩
  | watched watches asker =>
      exact .of_carried watches.alike.quiet (.refl closed.refl _) found laterFound going
  | called asker allowed asked callee made =>
      exact .of_carried (addCall_rest _ _ _ _).1.quiet (carried_call closed.toKept rfl id) found
        laterFound going
  | answered asker asked caller recorded mine =>
      exact .of_carried (lent_releaseCalls _ _).quiet
        (carried_answerCall closed.toKept (closed.answer _ _) caller id) found laterFound going

theorem told_next {id : SessionId} {session later : Session} (notDrained : event ≠ .drained id)
    (found : service.session? id = some session)
    (laterFound : (service.next event).session? id = some later) (listed : later.listed = true)
    (going : later.stopped = false) (born : id.toNat < service.nextSession.toNat) :
    Told service.tree (service.next event).tree session later := by
  have closed := Session.Unannounced.closed
  have unlists (order : LeaveOrder) (other : SessionId) := carried_unlist closed.toKept
    (closed.answer · []) service order other id fun _ => .unlist
  cases event with
  | opened maxEntries transport =>
      have other : id ≠ service.nextSession := by
        rintro rfl
        exact Nat.lt_irrefl _ born
      rw [next, session?_openSession, if_neg other] at laterFound
      exact .of_carried (.refl _) (.refl closed.refl _) found laterFound going
  | frame order sender frame =>
      exact (handled_handle service order sender frame).told found laterFound listed going
  | stopped other =>
      exact .of_carried (.refl _) (.modify closed.refl service other closed.stop id) found
        laterFound going
  | unlisted order other =>
      exact .of_carried (unlist_rest _ _ _).1.quiet (unlists order other) found
        laterFound going
  | closed order other =>
      rw [next, session?_close] at laterFound
      split at laterFound
      · cases laterFound
      · exact .of_carried (close_rest _ _ _).1.quiet (unlists order other) found
          laterFound going
  | drained other =>
      have different : id ≠ other := by
        rintro rfl
        exact notDrained rfl
      rw [next, session?_drain, if_neg different] at laterFound
      rw [next, (drain_rest _ _).1]
      exact .of_carried (.refl _) (.refl closed.refl _) found laterFound going

end Service

/-! ## Directories of clients -/

/-- The directory of a client that takes all frames drained from its backlog. -/
def heard (id : SessionId) (log : List Occurrence) : Directory :=
  Directory.empty.takeFrames (log.flatMap (·.drained id))

/-- The part of a log from the event that first signs a session in. -/
def sinceSignIn (id : SessionId) (log : List Occurrence) : List Occurrence :=
  log.dropWhile fun occurrence => !(occurrence.after.session? id).any (·.signedIn)

/-- The handle that the tree was to give next when a session first signed in. -/
def firstSignIn? (id : SessionId) (log : List Occurrence) : Option Handle :=
  (sinceSignIn id log).head?.map fun occurrence => occurrence.before.tree.nextHandle

/-- Everything that is drained from the backlog of a session fits the size field of a frame. -/
def Occurrence.Fits (id : SessionId) (occurrence : Occurrence) : Prop :=
  ∀ batch ∈ occurrence.batches id, batch.toFrame? ≠ none

instance (id : SessionId) (occurrence : Occurrence) : Decidable (occurrence.Fits id) :=
  inferInstanceAs (Decidable (∀ batch ∈ occurrence.batches id, batch.toFrame? ≠ none))

/-- What a directory knows and what waits in the backlog make a mirror since the first sign-in. -/
structure Informed (tree : Tree) (since : Option Handle) (directory : Directory)
    (session : Session) : Prop where
  plain : ∀ frame, .frame frame ∈ session.backlog.entries →
    frame.header.kind ≠ .ok .metaUpdateNotification
  before : since = none → session.signedIn = false ∧ directory = .empty ∧ session.changes = []
  after : ∀ handle, since = some handle → session.signedIn = true ∧ handle ≤ tree.nextHandle ∧
    (directory.replay session.changes).Mirrors tree (handle ≤ ·)

theorem heard_concat (id : SessionId) (log : List Occurrence) (occurrence : Occurrence) :
    heard id (log ++ [occurrence]) = (heard id log).takeFrames (occurrence.drained id) := by
  rw [heard, List.flatMap_append, Directory.takeFrames_append, List.flatMap_singleton]
  rfl

theorem firstSignIn?_concat (id : SessionId) (log : List Occurrence) (occurrence : Occurrence) :
    firstSignIn? id (log ++ [occurrence]) = (firstSignIn? id log).or
      (if (occurrence.after.session? id).any (·.signedIn) then
        some occurrence.before.tree.nextHandle else none) := by
  simp only [firstSignIn?, sinceSignIn, List.dropWhile_append]
  cases log.dropWhile fun occurrence => !(occurrence.after.session? id).any (·.signedIn) with
  | cons first rest => rfl
  | nil =>
      by_cases now : (occurrence.after.session? id).any (·.signedIn) = true
      · simp [now]
      · simp [now]

namespace Informed

open Service

variable {tree next : Tree} {since : Option Handle} {directory : Directory}
  {session later : Session}

theorem nextHandle_le_of_create {path : String} {kind : PropertyKind} {payload : Bytes}
    {owner : SessionId} {info : PropertyInfo}
    (success : tree.create path kind payload owner = (.ok info, next)) :
    tree.nextHandle ≤ next.nextHandle := by
  rcases Tree.create_eq_ok success with ⟨_, _, _, _, _, _, _, _, _, rfl⟩
  exact Nat.le_succ _

theorem after_of_told (informed : Informed tree since directory session) (sound : tree.Sound)
    (told : Told tree next session later) {handle : Handle} (known : since = some handle) :
    later.signedIn = true ∧ handle ≤ next.nextHandle ∧
      (directory.replay later.changes).Mirrors next (handle ≤ ·) := by
  rcases informed.after handle known with ⟨signedIn, started, mirrors⟩
  cases told with
  | nothing quiet same changes =>
      rw [same, changes, quiet.nextHandle]
      exact ⟨signedIn, started, mirrors.quiet sound quiet⟩
  | signedIn same isNow changes =>
      rw [same, changes]
      exact ⟨isNow, started, mirrors⟩
  | created success same changes =>
      rw [same, changes, if_pos signedIn, Directory.replay_append]
      exact ⟨signedIn, started.trans (nextHandle_le_of_create success),
        mirrors.create sound started success⟩
  | deleted success same changes =>
      rcases Tree.delete_announces sound success with ⟨_, _, nextHandle, _⟩
      rw [same, changes, if_pos signedIn, Directory.replay_append, nextHandle]
      exact ⟨signedIn, started, mirrors.delete sound success⟩

theorem plain_of_served (informed : Informed tree since directory session)
    (served : session.Served Session.Regular later) :
    ∀ frame, .frame frame ∈ later.backlog.entries →
      frame.header.kind ≠ .ok .metaUpdateNotification := by
  rcases served with ⟨entries, pushed, regular⟩
  intro frame mem
  rcases pushed.mem_of_mem mem with old | new
  · exact informed.plain frame old
  · rcases regular _ new with isCall | isAnswer
    · simp [isCall]
    · simp [isAnswer]

/-- A session that has not signed in hears nothing. -/
theorem changes_of_told (told : Told tree next session later) (notYet : session.signedIn = false) :
    later.changes = session.changes := by
  cases told with
  | nothing _ _ changes => exact changes
  | signedIn _ _ changes => exact changes
  | created _ _ changes => rw [changes, if_neg (by simp [notYet]), List.append_nil]
  | deleted _ _ changes => rw [changes, if_neg (by simp [notYet]), List.append_nil]

/-- Signing in leaves the tree as it is. -/
theorem eq_of_told (told : Told tree next session later) (notYet : session.signedIn = false)
    (signedIn : later.signedIn = true) : next = tree := by
  cases told with
  | signedIn same _ _ => exact same
  | nothing _ same _ | created _ same _ | deleted _ same _ =>
      rw [same, notYet] at signedIn
      cases signedIn

theorem told (informed : Informed tree since directory session) (sound : tree.Sound)
    (told : Told tree next session later) (served : session.Served Session.Regular later) :
    Informed next (since.or (if later.signedIn then some tree.nextHandle else none)) directory
      later := by
  have plain := informed.plain_of_served served
  cases known : since with
  | some handle =>
      rw [Option.some_or]
      refine ⟨plain, (fun impossible => nomatch impossible), ?_⟩
      rintro _ ⟨rfl⟩
      exact informed.after_of_told sound told known
  | none =>
      rw [Option.none_or]
      rcases informed.before known with ⟨notYet, unheard, unchanged⟩
      have silent := (changes_of_told told notYet).trans unchanged
      cases signedIn : later.signedIn with
      | false =>
          rw [if_neg (by simp)]
          exact ⟨plain, fun _ => ⟨signedIn, unheard, silent⟩,
            fun _ impossible => nomatch impossible⟩
      | true =>
          rw [if_pos rfl]
          refine ⟨plain, (fun impossible => nomatch impossible), ?_⟩
          rintro _ ⟨rfl⟩
          rw [eq_of_told told notYet signedIn, silent, unheard]
          refine ⟨signedIn, Nat.le_refl _, .empty ?_⟩
          intro uuid handle inIndex
          rcases sound.indexed _ _ inIndex with ⟨property, _, found, _⟩
          exact Nat.not_le.mpr (sound.bounded _ _ found)

theorem since_or (informed : Informed tree since directory session) {now : Handle} :
    (since.or (if session.signedIn then some now else none)) = since := by
  cases known : since with
  | some handle => rfl
  | none => rw [(informed.before known).1, Option.none_or, if_neg (by simp)]

theorem drain (informed : Informed tree since directory session)
    (fits : ∀ batch ∈ Batch.gather session.backlog.maxBody session.backlog.entries,
      batch.toFrame? ≠ none) :
    Informed tree since (directory.takeFrames session.drain.1) session.drain.2 := by
  have emptied : session.drain.2.changes = [] := rfl
  have taken : directory.takeFrames session.drain.1 = directory.replay session.changes :=
    Directory.takeFrames_backlog fits informed.plain
  refine ⟨(fun _ impossible => nomatch impossible), ?_, ?_⟩
  · intro known
    rcases informed.before known with ⟨notYet, unheard, unchanged⟩
    refine ⟨notYet, ?_, emptied⟩
    rw [taken, unchanged, unheard]
    rfl
  · intro handle known
    rw [taken, emptied]
    exact informed.after handle known

end Informed

namespace Runs

variable {maxBody : Nat} {log : List Occurrence} {service : Service} {id : SessionId}
  {session : Session}

theorem heard_eq_empty_of_unborn (run : Runs maxBody log service)
    (unborn : service.nextSession.toNat ≤ id.toNat) :
    heard id log = .empty ∧ firstSignIn? id log = none := by
  have absent := run.unborn unborn
  refine ⟨?_, ?_⟩
  · rw [heard, List.flatMap_eq_nil_iff.mpr]
    · rfl
    · intro occurrence mem
      rw [Occurrence.drained_eq_batches, Occurrence.batches_of_absent (absent occurrence mem).1]
      rfl
  · rw [firstSignIn?, sinceSignIn, List.dropWhile_eq_nil_iff.mpr]
    · rfl
    · intro occurrence mem
      simp [(absent occurrence mem).2]

/-- What is drained moves from the backlog of a session into the directory of its client. -/
theorem informed_drained (found : service.session? id = some session)
    (informed : Informed service.tree (firstSignIn? id log) (heard id log) session)
    (fits : Occurrence.Fits id ⟨service, .drained id⟩) :
    Informed (service.next (.drained id)).tree (firstSignIn? id (log ++ [⟨service, .drained id⟩]))
      (heard id (log ++ [⟨service, .drained id⟩])) session.drain.2 := by
  have batches : Occurrence.batches id ⟨service, .drained id⟩ =
      Batch.gather session.backlog.maxBody session.backlog.entries := by
    simp [Occurrence.batches, found]
  have laterFound : (service.next (.drained id)).session? id = some session.drain.2 := by
    rw [Service.next, Service.session?_drain, if_pos rfl, found, Option.map_some]
  rw [Occurrence.Fits, batches] at fits
  rw [firstSignIn?_concat, heard_concat, Occurrence.drained_eq_batches, batches, Occurrence.after,
    laterFound, Service.next, (Service.drain_rest _ _).1]
  change Informed service.tree ((firstSignIn? id log).or
    (if session.signedIn then some service.tree.nextHandle else none)) _ _
  rw [informed.since_or]
  exact informed.drain fits

theorem informed (run : Runs maxBody log service) (found : service.session? id = some session)
    (listed : session.listed = true) (going : session.stopped = false)
    (fits : ∀ occurrence ∈ log, occurrence.Fits id) :
    Informed service.tree (firstSignIn? id log) (heard id log) session := by
  induction run generalizing session with
  | new => cases found
  | @next log service run event allowed ih =>
      have earlierFits : ∀ occurrence ∈ log, occurrence.Fits id :=
        fun occurrence mem => fits occurrence (List.mem_append_left _ mem)
      have coherent := run.coherent
      -- A session that was not there has just been opened; nothing was drained from it before.
      cases beforeFound : service.session? id with
      | none =>
          rcases Service.opened_of_absent beforeFound found with
            ⟨maxEntries, transport, rfl, rfl, rfl⟩
          rcases run.heard_eq_empty_of_unborn (Nat.le_refl _) with ⟨unheard, notYet⟩
          rw [firstSignIn?_concat, heard_concat, unheard, notYet, Occurrence.after, found]
          exact ⟨(fun _ impossible => nomatch impossible), fun _ => ⟨rfl, rfl, rfl⟩,
            fun _ impossible => nomatch impossible⟩
      | some before =>
          by_cases isDrained : event = .drained id
          · subst isDrained
            rw [Service.next, Service.session?_drain, if_pos rfl, beforeFound] at found
            cases found
            exact informed_drained beforeFound (ih beforeFound listed going earlierFits)
              (fits _ (by simp))
          · have notClosed : ¬event.Closes id := by
              rintro ⟨order, rfl⟩
              rw [Service.next, Service.session?_close, if_pos rfl] at found
              cases found
            have nothing : Occurrence.drained id ⟨service, event⟩ = [] := by
              rw [Occurrence.drained_eq_batches, Occurrence.batches_of_ne isDrained]
              rfl
            have served : before.Served Session.Regular session := by
              rcases coherent.served_next beforeFound isDrained notClosed with
                ⟨later, laterFound, served⟩
              rw [found] at laterFound
              cases laterFound
              exact served.imp fun _ => Service.Queues.regular
            have stayed : before.listed = true ∧ before.stopped = false := by
              rcases served with ⟨entries, pushed, _⟩
              exact ⟨pushed.listed listed, (pushed.going going).1⟩
            have informed := ih beforeFound stayed.1 stayed.2 earlierFits
            have told := Service.told_next isDrained beforeFound found listed going
              (coherent.numbered id before beforeFound).2
            rw [firstSignIn?_concat, heard_concat, nothing, Occurrence.after, found]
            exact informed.told coherent.sound told served

/-- The properties created since a session signed in are those with the handles since then. -/
theorem firstSignIn?_le_iff (run : Runs maxBody log service) {since handle : Handle}
    (signedIn : firstSignIn? id log = some since) (found : service.tree.exists? handle = true)
    (notRoot : handle ≠ Tree.rootHandle) :
    since ≤ handle ↔ ∃ occurrence ∈ sinceSignIn id log, occurrence.Creates handle := by
  rcases Option.map_eq_some_iff.mp signedIn with ⟨first, isFirst, rfl⟩
  rcases List.head?_eq_some_iff.mp isFirst with ⟨rest, split⟩
  have whole : log = (log.takeWhile fun occurrence =>
      !(occurrence.after.session? id).any (·.signedIn)) ++ first :: rest := by
    rw [← split]
    exact List.takeWhile_append_dropWhile.symm
  have ordered := run.ordered
  rw [whole, List.pairwise_append, List.pairwise_cons] at ordered
  rw [split]
  constructor
  · intro late
    rcases run.exists_creates found notRoot with ⟨occurrence, mem, creates⟩
    refine ⟨occurrence, ?_, creates⟩
    have given := (run.creates_eq mem creates).2
    rw [whole] at mem
    rcases List.mem_append.mp mem with early | late
    · have before := ordered.2.2 occurrence early first (by simp)
      exact absurd (Nat.lt_of_lt_of_le given before) (Nat.not_lt.mpr late)
    · exact late
  · rintro ⟨occurrence, mem, creates⟩
    have inLog : occurrence ∈ log := by
      rw [whole]
      exact List.mem_append_right _ mem
    rw [(run.creates_eq inLog creates).1]
    rcases List.mem_cons.mp mem with rfl | later
    · exact Nat.le_refl _
    · have firstInLog : first ∈ log := by
        rw [whole]
        simp
      exact (run.nextHandle_le_after firstInLog).trans (ordered.2.1.1 occurrence later)

/-- Announcements keep the directory of a client a mirror of the tree. Whenever nothing waits in the
backlog of a session that is listed and was never told to stop, a client that took all that was
drained from it knows exactly the live properties created since the session first signed in. -/
theorem heard_mirrors (run : Runs maxBody log service) (found : service.listed? id = some session)
    (going : session.stopped = false) (flushed : session.backlog.entries = [])
    (fits : ∀ occurrence ∈ log, occurrence.Fits id) :
    (heard id log).Mirrors service.tree fun handle =>
      ∃ occurrence ∈ sinceSignIn id log, occurrence.Creates handle := by
  rcases (service.listed?_eq_some_iff id session).mp found with ⟨isThere, listed⟩
  have informed := run.informed isThere listed going fits
  have unchanged : session.changes = [] := by rw [Session.changes, flushed, List.filterMap_nil]
  cases signedIn : firstSignIn? id log with
  | none =>
      rw [(informed.before signedIn).2.1]
      apply Directory.Mirrors.empty
      rintro uuid handle _ ⟨occurrence, mem, _⟩
      rw [List.head?_eq_none_iff.mp (Option.map_eq_none_iff.mp signedIn)] at mem
      cases mem
  | some since =>
      have mirrors := (informed.after since signedIn).2.2
      rw [unchanged] at mirrors
      apply mirrors.congr
      intro uuid handle inIndex
      have linked := run.coherent.sound.toLinked
      rcases linked.indexed _ _ inIndex with ⟨property, parent, isThere, _⟩
      exact run.firstSignIn?_le_iff signedIn ((Tree.exists?_iff _ _).mpr ⟨property, isThere⟩)
        (linked.indexed_ne_root inIndex)

theorem heard_mirrors_reissued :
    ∃ log service session, Runs 64 log service ∧ service.listed? 1 = some session ∧
      session.stopped = false ∧ session.backlog.entries = [] ∧
      (heard 1 log).find? 101 = some ⟨101, .node, "/b"⟩ ∧ (heard 1 log).uuidOf? "/a" = some 102 ∧
      (heard 1 log).Mirrors service.tree fun handle =>
        ∃ occurrence ∈ sinceSignIn 1 log, occurrence.Creates handle := by
  have serve {log : List Occurrence} {service : Service} {frame : Frame}
      (before : Runs 64 log service) (message : Message)
      (_ : Frame.ofMessage message 1 = .ok frame) :=
    before.next (.frame .stored 1 frame) trivial
  have run : Runs 64 [] (.new 64) := .new
  have run := run.next (.opened 8 .sink) (by decide)
  have run := serve run (.signinRequest protocolVersion 0 ⟨1⟩) rfl
  have run := serve run (.createRequest .value [] "/c") rfl
  have run := serve run (.createRequest .value [] "/a") rfl
  have run := run.next (.drained 1) trivial
  have run := serve run (.deleteRequest "/a") rfl
  have run := serve run (.createRequest .node [] "/b") rfl
  have run := serve run (.createRequest .rpc [] "/a") rfl
  have run := run.next (.drained 1) trivial
  refine ⟨_, _, _, run, rfl, rfl, rfl, rfl, rfl, run.heard_mirrors rfl rfl rfl ?_⟩
  decide +kernel

end Runs

end SharedTree
