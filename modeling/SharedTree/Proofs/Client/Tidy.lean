import SharedTree.Proofs.Client.Steps

/-!
# Every step keeps a client tidy

A client is tidy when its requests, the table of those that wait, that of those that are decided and
that of the frames on their way fit together (`Client.Tidy`). Every step keeps it so
(`Client.Tidy.next`).
-/

namespace SharedTree

namespace Client

variable {client before after : Client} {step : ClientStep} {number : Nat}

theorem nodup_concat {numbers : List Nat} (nodup : numbers.Nodup) {number : Nat}
    (absent : number ∉ numbers) : (numbers ++ [number]).Nodup := by
  rw [← List.concat_eq_append]
  exact nodup.concat absent

/-- What goes on is asked under the same number, for the same answer. -/
theorem GoesOn.find?_requests (goes : before.GoesOn after) {request : Request}
    (found : after.requests.find? number = some request) :
    ∃ earlier, before.requests.find? number = some earlier ∧
      earlier.question = request.question ∧ earlier.transaction = request.transaction := by
  have same := goes.requests number
  rw [found, Option.map_some] at same
  rcases Option.map_eq_some_iff.mp same.symm with ⟨earlier, isThere, equal⟩
  exact ⟨earlier, isThere, (Prod.mk.inj equal).1, (Prod.mk.inj equal).2⟩

theorem GoesOn.find?_requests_before (goes : before.GoesOn after) {request : Request}
    (found : before.requests.find? number = some request) :
    ∃ later, after.requests.find? number = some later ∧
      later.question = request.question ∧ later.transaction = request.transaction := by
  have same := goes.requests number
  rw [found, Option.map_some] at same
  rcases Option.map_eq_some_iff.mp same with ⟨later, isThere, equal⟩
  exact ⟨later, isThere, (Prod.mk.inj equal).1, (Prod.mk.inj equal).2⟩

namespace Tidy

theorem new (config : ClientConfig) : (Client.new config).Tidy where
  waits := by simp [Client.new]
  known := by simp [Client.new]
  disconnected := by simp [Client.new]
  begun := by simp [Client.new]
  sending := by simp [Client.new, Table.contains]
  own := by simp [Client.new]
  onTheirWay := by simp [Client.new, OnTheirWay]
  endedOnce := .nil
  gone := by simp [Client.new]
  shut := nofun

/-! ## What is known of a tidy client -/

/-- A request waits under one transaction id. -/
theorem waits_once (tidy : client.Tidy) {first second : TransactionId}
    (one : client.waiting.find? first = some number)
    (other : client.waiting.find? second = some number) : first = second := by
  rcases ((tidy.waits first number).mp one).1 with ⟨request, found, rfl⟩
  rcases ((tidy.waits second number).mp other).1 with ⟨same, foundSame, rfl⟩
  rw [found] at foundSame
  cases foundSame
  rfl

theorem find?_waiting_erase (tidy : client.Tidy) {transaction : TransactionId}
    (waits : client.waiting.find? transaction = some number) (other : TransactionId)
    (waiter : Nat) : (client.waiting.erase transaction).find? other = some waiter ↔
      client.waiting.find? other = some waiter ∧ waiter ≠ number := by
  rcases ((tidy.waits _ _).mp waits).1 with ⟨request, found, rfl⟩
  exact tidy.find?_waiting_strike found
    (fun waiter waiterWaits => (Option.some.inj (waits.symm.trans waiterWaits)).symm) other waiter

theorem reads_of_waits (tidy : client.Tidy) {transaction : TransactionId}
    (waits : client.waiting.find? transaction = some number) : client.reading = true := by
  rw [← Bool.not_eq_false]
  intro ended
  rw [(tidy.shut ended).2] at waits
  cases waits

theorem requested (tidy : client.Tidy) {transaction : TransactionId}
    (waits : client.waiting.find? transaction = some number) :
    ∃ request, client.requests.find? number = some request := by
  rcases ((tidy.waits _ _).mp waits).1 with ⟨request, found, _⟩
  exact ⟨request, found⟩

theorem mem_waiting_iff (tidy : client.Tidy) : number ∈ client.waiting.values ↔
    (∃ request, client.requests.find? number = some request) ∧
      client.decided.find? number = none := by
  rw [Table.mem_values_iff]
  constructor
  · rintro ⟨transaction, waits⟩
    exact ⟨tidy.requested waits, ((tidy.waits _ _).mp waits).2⟩
  · rintro ⟨⟨request, found⟩, undecided⟩
    exact ⟨request.transaction, (tidy.waits _ _).mpr ⟨⟨request, found, rfl⟩, undecided⟩⟩

theorem values_nodup (tidy : client.Tidy) : client.waiting.values.Nodup := by
  refine List.Nodup.map_on ?_ (.of_map Prod.fst client.waiting.distinct)
  rintro ⟨first, number⟩ one ⟨second, _⟩ other rfl
  rw [Table.mem_entries_iff] at one other
  rw [tidy.waits_once one other]

/-- The number of the next request is that of no request. -/
theorem fresh (tidy : client.Tidy) : client.requests.find? client.nextRequest = none := by
  cases found : client.requests.find? client.nextRequest with
  | none => rfl
  | some request => exact absurd (tidy.begun _ _ found) (Nat.lt_irrefl _)

theorem fresh_decided (tidy : client.Tidy) :
    client.decided.find? client.nextRequest = none := by
  cases decided : client.decided.find? client.nextRequest with
  | none => rfl
  | some outcome =>
      rcases tidy.known _ _ decided with ⟨request, found⟩
      cases tidy.fresh.symm.trans found

theorem fresh_ended (tidy : client.Tidy) : client.nextRequest ∉ client.ended.map Prod.fst :=
  fun mem => Nat.lt_irrefl _ (tidy.gone _ mem).1

theorem fresh_outgoing (tidy : client.Tidy) :
    client.outgoing.contains client.nextRequest = false := by
  rw [← Bool.not_eq_true]
  exact fun leaves => Nat.lt_irrefl _ (tidy.sending _ leaves)

theorem fresh_waiting (tidy : client.Tidy) (transaction : TransactionId) :
    client.waiting.find? transaction ≠ some client.nextRequest :=
  tidy.not_waiting_of_absent tidy.fresh transaction

/-! ## Steps -/

theorem goesOn (tidy : before.Tidy) (goes : before.GoesOn after) : after.Tidy where
  waits := by
    intro transaction number
    rw [goes.waiting, goes.decided, tidy.waits]
    refine and_congr_left fun _ => ⟨?_, ?_⟩
    · rintro ⟨request, found, rfl⟩
      rcases goes.find?_requests_before found with ⟨later, isThere, _, same⟩
      exact ⟨later, isThere, same⟩
    · rintro ⟨request, found, rfl⟩
      rcases goes.find?_requests found with ⟨earlier, isThere, _, same⟩
      exact ⟨earlier, isThere, same⟩
  known := by
    intro number outcome decided
    rw [goes.decided] at decided
    rcases tidy.known number outcome decided with ⟨request, found⟩
    rcases goes.find?_requests_before found with ⟨later, isThere, _⟩
    exact ⟨later, isThere⟩
  disconnected := by
    rw [goes.decided]
    exact tidy.disconnected
  begun := by
    intro number request found
    rcases goes.find?_requests found with ⟨earlier, isThere, _⟩
    exact Nat.lt_of_lt_of_le (tidy.begun number earlier isThere) goes.nextRequest
  sending := by
    intro number leaves
    rcases goes.outgoing number leaves with old | ⟨_, below⟩
    · exact Nat.lt_of_lt_of_le (tidy.sending number old) goes.nextRequest
    · exact below
  own := by
    intro number request other found leaves waits
    rcases goes.find?_requests found with ⟨earlier, isThere, _, same⟩
    rw [goes.waiting, ← same] at waits
    rcases goes.outgoing number leaves with old | ⟨rfl, _⟩
    · exact tidy.own number earlier other isThere old waits
    · cases tidy.fresh.symm.trans isThere
  onTheirWay := goes.onTheirWay tidy.onTheirWay
  endedOnce := by
    rw [goes.ended]
    exact tidy.endedOnce
  gone := by
    rw [goes.ended]
    intro number mem
    rcases tidy.gone number mem with ⟨older, absent, written⟩
    refine ⟨Nat.lt_of_lt_of_le older goes.nextRequest, ?_, ?_⟩
    · cases found : after.requests.find? number with
      | none => rfl
      | some request =>
          rcases goes.find?_requests found with ⟨earlier, isThere, _⟩
          cases absent.symm.trans isThere
    · rw [← Bool.not_eq_true]
      intro leaves
      rcases goes.outgoing number leaves with old | ⟨rfl, _⟩
      · cases written.symm.trans old
      · exact Nat.lt_irrefl _ older
  shut := by
    rw [goes.reading, goes.waiting]
    intro ended
    exact ⟨goes.closed (tidy.shut ended).1, (tidy.shut ended).2⟩

theorem endsAtOnce (tidy : before.Tidy) {result : Except ClientError Reply}
    (ends : before.EndsAtOnce result after) : after.Tidy := by
  have kept : ∀ number, after.requests.find? number = before.requests.find? number := by
    intro number
    rw [ends.requests, Table.find?_erase]
    split
    · next isNext => rw [isNext, tidy.fresh]
    · rfl
  have numbers : after.ended.map Prod.fst = before.ended.map Prod.fst ++ [before.nextRequest] := by
    rw [ends.ended, List.map_append]
    rfl
  constructor
  · simpa only [ends.waiting, ends.decided, kept] using tidy.waits
  · simpa only [ends.decided, kept] using tidy.known
  · simpa only [ends.decided] using tidy.disconnected
  · intro number request found
    rw [kept] at found
    rw [ends.nextRequest]
    exact Nat.lt_succ_of_lt (tidy.begun number request found)
  · intro number leaves
    rw [ends.outgoing] at leaves
    rw [ends.nextRequest]
    exact Nat.lt_succ_of_lt (tidy.sending number leaves)
  · simpa only [ends.waiting, ends.outgoing, kept] using tidy.own
  · simpa only [OnTheirWay, ends.outgoing, kept] using tidy.onTheirWay
  · rw [numbers]
    exact nodup_concat tidy.endedOnce tidy.fresh_ended
  · intro number mem
    rw [ends.nextRequest, kept, ends.outgoing]
    rw [numbers, List.mem_append, List.mem_singleton] at mem
    rcases mem with old | rfl
    · exact ⟨Nat.lt_succ_of_lt (tidy.gone number old).1, (tidy.gone number old).2⟩
    · exact ⟨Nat.lt_succ_self _, tidy.fresh, tidy.fresh_outgoing⟩
  · simpa only [ends.closed, ends.reading, ends.waiting] using tidy.shut

theorem issue (tidy : client.Tidy) (isOpen : client.closed = false)
    (free : client.Free (drawTransaction client.counter).1) (question : Question)
    (frame : Frame) : (client.issue question frame).Tidy where
  waits := by
    intro transaction number
    have unawaited := free.unawaited
    unfold Client.issue
    simp only [Table.find?_insert]
    by_cases isNext : number = client.nextRequest
    · subst isNext
      have fresh := tidy.fresh_waiting transaction
      have undecided := tidy.fresh_decided
      grind
    · have waits := tidy.waits transaction number
      grind
  known := by
    intro number outcome decided
    rcases tidy.known number outcome decided with ⟨request, found⟩
    have older : number ≠ client.nextRequest := Nat.ne_of_lt (tidy.begun _ _ found)
    exact ⟨request, by simpa [Client.issue, older] using found⟩
  disconnected := tidy.disconnected
  begun := by
    intro number request found
    simp only [Client.issue, Table.find?_insert] at found ⊢
    split at found
    · next isNext => omega
    · exact Nat.lt_succ_of_lt (tidy.begun number request found)
  sending := by
    intro number leaves
    rcases (Table.contains_insert _ _ _ _).mp leaves with old | rfl
    · exact Nat.lt_succ_of_lt (tidy.sending number old)
    · exact Nat.lt_succ_self _
  own := by
    intro number request other found leaves waits
    simp only [Client.issue, Table.find?_insert] at found waits
    rcases (Table.contains_insert _ _ _ _).mp leaves with old | rfl
    · rw [if_neg (Nat.ne_of_lt (tidy.sending number old))] at found
      rw [if_neg (free.unsent number request found old)] at waits
      exact tidy.own number request other found old waits
    · rw [if_pos rfl] at found
      cases found
      rw [if_pos rfl] at waits
      exact (Option.some.inj waits).symm
  onTheirWay := by
    intro number request found
    simp only [Client.issue, Table.find?_insert, Table.contains_insert] at found ⊢
    split at found
    · next isNext =>
      cases found
      simp [isNext]
    · next older => rw [or_iff_left older, tidy.onTheirWay number request found]
  endedOnce := tidy.endedOnce
  gone := by
    intro number mem
    rcases tidy.gone number mem with ⟨older, absent, written⟩
    refine ⟨Nat.lt_succ_of_lt older, ?_, ?_⟩
    · simpa [Client.issue, Nat.ne_of_lt older] using absent
    · rw [← Bool.not_eq_true, Client.issue, Table.contains_insert, written]
      simp [Nat.ne_of_lt older]
  shut ended := by
    rw [(tidy.shut ended).1] at isOpen
    cases isOpen

theorem answer (tidy : client.Tidy) {transaction : TransactionId}
    (waits : client.waiting.find? transaction = some number) (message : Message) :
    (client.answer transaction number message).Tidy where
  waits := by
    intro other waiter
    simp only [Client.answer, strike, Client.decide, tidy.find?_waiting_erase waits, tidy.waits,
      Table.find?_insert]
    split <;> simp [*]
  known := by
    intro other outcome decided
    simp only [Client.answer, Client.decide, Table.find?_insert] at decided
    split at decided
    · next same =>
      rw [same]
      exact tidy.requested waits
    · exact tidy.known other outcome decided
  disconnected := by
    intro other error decided
    simp only [Client.answer, Client.decide, Table.find?_insert] at decided
    split at decided
    · cases decided
    · exact tidy.disconnected other error decided
  begun := tidy.begun
  sending := tidy.sending
  own := by
    intro other request waiter found leaves isWaiting
    exact tidy.own other request waiter found leaves
      ((tidy.find?_waiting_erase waits _ _).mp isWaiting).1
  onTheirWay := tidy.onTheirWay
  endedOnce := tidy.endedOnce
  gone := tidy.gone
  shut := by
    intro ended
    cases (tidy.reads_of_waits waits).symm.trans ended

theorem ends (tidy : before.Tidy) {result : Except ClientError Reply}
    (ending : before.Ending step number result) (ends : before.Ends number result after) :
    after.Tidy := by
  have unended : number ∉ before.ended.map Prod.fst ∧ number < before.nextRequest := by
    have leaving (leaves : before.outgoing.contains number = true) :
        number ∉ before.ended.map Prod.fst ∧ number < before.nextRequest := by
      refine ⟨fun mem => ?_, tidy.sending number leaves⟩
      cases (tidy.gone number mem).2.2.symm.trans leaves
    have asked {request : Request} (found : before.requests.find? number = some request) :
        number ∉ before.ended.map Prod.fst ∧ number < before.nextRequest := by
      refine ⟨fun mem => ?_, tidy.begun number request found⟩
      cases (tidy.gone number mem).2.1.symm.trans found
    cases ending with
    | told leaves _ => exact leaving leaves
    | unwritable leaves => exact leaving leaves
    | takenUp found _ => exact asked found
    | expired found _ _ => exact asked found
  have erased {other : Nat} {request : Request}
      (found : after.requests.find? other = some request) :
      before.requests.find? other = some request ∧ other ≠ number := by
    rw [ends.requests, Table.find?_erase] at found
    split at found
    · cases found
    · next differs => exact ⟨found, differs⟩
  have numbers : after.ended.map Prod.fst = before.ended.map Prod.fst ++ [number] := by
    rw [ends.ended, List.map_append]
    rfl
  constructor
  · intro transaction other
    rw [ends.waiting, tidy.waits, ends.requests, ends.decided, Table.find?_erase,
      Table.find?_erase]
    split <;> simp [*]
  · intro other outcome decided
    rw [ends.decided, Table.find?_erase] at decided
    split at decided
    · cases decided
    · next differs =>
      rcases tidy.known other outcome decided with ⟨request, found⟩
      exact ⟨request, by rw [ends.requests, Table.find?_erase, if_neg differs, found]⟩
  · intro other error decided
    rw [ends.decided, Table.find?_erase] at decided
    split at decided
    · cases decided
    · exact tidy.disconnected other error decided
  · intro other request found
    rw [ends.nextRequest]
    exact tidy.begun other request (erased found).1
  · intro other leaves
    rw [ends.outgoing, Table.contains_erase] at leaves
    rw [ends.nextRequest]
    exact tidy.sending other leaves.1
  · intro other request waiter found leaves waits
    rw [ends.outgoing, Table.contains_erase] at leaves
    exact tidy.own other request waiter (erased found).1 leaves.1
      ((ends.waiting _ _).mp waits).1
  · intro other request found
    rw [ends.outgoing, Table.contains_erase, and_iff_left (erased found).2]
    exact tidy.onTheirWay other request (erased found).1
  · rw [numbers]
    exact nodup_concat tidy.endedOnce unended.1
  · intro other mem
    rw [numbers, List.mem_append, List.mem_singleton] at mem
    rw [ends.nextRequest, ends.requests, ends.outgoing, Table.find?_erase, ← Bool.not_eq_true,
      Table.contains_erase]
    rcases mem with old | rfl
    · rcases tidy.gone other old with ⟨older, absent, written⟩
      exact ⟨older, by simp [absent], by simp [written]⟩
    · exact ⟨unended.2, if_pos rfl, fun remains => remains.2 rfl⟩
  · intro ended
    rw [ends.reading] at ended
    rw [ends.closed]
    refine ⟨(tidy.shut ended).1, fun transaction => ?_⟩
    cases waits : after.waiting.find? transaction with
    | none => rfl
    | some other =>
        have waited := ((ends.waiting _ _).mp waits).1
        rw [(tidy.shut ended).2] at waited
        cases waited

theorem endReading (tidy : client.Tidy) (reads : client.reading = true) :
    client.endReading.Tidy := by
  rw [endReading_of_reads reads]
  constructor
  · intro transaction number
    simp only [Table.find?_empty, Table.find?_foldl_insert, reduceCtorEq, false_iff, not_and]
    rintro ⟨request, found, _⟩
    split
    · intro undecided
      cases undecided
    · next silent =>
      intro undecided
      exact silent (tidy.mem_waiting_iff.mpr ⟨⟨request, found⟩, undecided⟩)
  · intro number outcome decided
    dsimp only at decided
    rw [Table.find?_foldl_insert] at decided
    split at decided
    · next waits => exact (tidy.mem_waiting_iff.mp waits).1
    · exact tidy.known number outcome decided
  · intro number error decided
    dsimp only at decided
    rw [Table.find?_foldl_insert] at decided
    split at decided
    · cases decided
      rfl
    · exact tidy.disconnected number error decided
  · exact tidy.begun
  · exact tidy.sending
  · intro number request other _ _ waits
    cases waits
  · exact tidy.onTheirWay
  · exact tidy.endedOnce
  · exact tidy.gone
  · exact fun _ => ⟨rfl, fun _ => rfl⟩

theorem next (tidy : before.Tidy) (moves : before.Moves step after) : after.Tidy := by
  cases moves with
  | goesOn _ _ _ goes => exact tidy.goesOn goes
  | endedAtOnce _ ends => exact tidy.endsAtOnce ends
  | issued isOpen _ free => exact tidy.issue isOpen free _ _
  | answered _ _ _ waits => exact tidy.answer waits _
  | ended ending ends => exact tidy.ends ending ends
  | readingEnded reads => exact tidy.endReading reads

end Tidy

end Client

end SharedTree
