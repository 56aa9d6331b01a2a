import SharedTree.Proofs.Wire.Canonical

/-!
# Reading an input that is cut off

Bytes behind an input never change what has been read of it. A value that was read is read again,
and a part that was wrong is still wrong. A part that was not all there has the same length as
before, and is not all there until as many bytes have been added as it lacked. Therefore what is
left of a value that has been cut off fails for want of bytes, and for no other reason, wherever the
cut is.
-/

namespace SharedTree

namespace Reader

variable {α β : Type} {count : Nat} {input rest : Bytes} {error : WireError}

theorem bind_error {reader : Reader α} (next : α → Reader β)
    (failed : reader input = .error error rest) : (reader >>= next) input = .error error rest := by
  simp only [bind, EStateM.bind, failed]

theorem bind_eq_error {reader : Reader α} {next : α → Reader β}
    (failed : (reader >>= next) input = .error error rest) :
    reader input = .error error rest ∨
      ∃ middle left, reader input = .ok middle left ∧ next middle left = .error error rest := by
  simp only [bind, EStateM.bind] at failed
  cases first : reader input with
  | error error left =>
      rw [first] at failed
      cases failed
      exact Or.inl rfl
  | ok middle left =>
      rw [first] at failed
      exact Or.inr ⟨middle, left, rfl, failed⟩

/-- What becomes of a failure when bytes are added behind the input, and that there are no other
failures than these. -/
def Persists (reader : Reader α) (input : Bytes) : WireError → Bytes → Prop
  | .truncated needed remaining, rest =>
    rest.length = remaining ∧ remaining < needed ∧
      ∀ more : Bytes, more.length < needed - remaining →
        reader (input ++ more) = .error (.truncated needed (remaining + more.length)) (rest ++ more)
  | .invalidUtf8, rest => ∀ more, reader (input ++ more) = .error .invalidUtf8 (rest ++ more)
  | .invalidChoice field byte, rest =>
    ∀ more, reader (input ++ more) = .error (.invalidChoice field byte) (rest ++ more)
  | _, _ => False

/-- A reader that bytes behind its input do not confuse, and that leaves an end of its input. -/
structure Steady (reader : Reader α) : Prop where
  ok : ∀ {input value rest}, reader input = .ok value rest →
    rest <:+ input ∧ ∀ more, reader (input ++ more) = .ok value (rest ++ more)
  error : ∀ {input error rest}, reader input = .error error rest →
    rest <:+ input ∧ reader.Persists input error rest

theorem Persists.imp {reader : Reader α} {other : Reader β} {begun : Bytes}
    (persists : reader.Persists input error rest)
    (alsoFails : ∀ more error rest, reader (input ++ more) = .error error rest →
      other (begun ++ more) = .error error rest) :
    other.Persists begun error rest := by
  cases error with
  | truncated needed remaining =>
      rcases persists with ⟨left, less, still⟩
      exact ⟨left, less, fun more few => alsoFails _ _ _ (still more few)⟩
  | invalidUtf8 => exact fun more => alsoFails _ _ _ (persists more)
  | invalidChoice field byte => exact fun more => alsoFails _ _ _ (persists more)
  | unknownKind tag => exact persists
  | lengthOverflow bodySize => exact persists
  | undersized size => exact persists

theorem steady_pure (value : α) : (pure value : Reader α).Steady where
  ok := by
    intro input same rest done
    cases done
    exact ⟨List.suffix_rfl, fun _ => rfl⟩
  error := by
    intro input error rest failed
    cases failed

theorem Steady.bind {reader : Reader α} {next : α → Reader β} (steady : reader.Steady)
    (nextSteady : ∀ value, (next value).Steady) : (reader >>= next).Steady where
  ok := by
    intro input value rest done
    rcases bind_eq_ok done with ⟨middle, left, first, last⟩
    rcases steady.ok first with ⟨leftEnd, firstMore⟩
    rcases (nextSteady middle).ok last with ⟨restEnd, lastMore⟩
    refine ⟨restEnd.trans leftEnd, ?_⟩
    intro more
    rw [bind_ok (firstMore more), lastMore]
  error := by
    intro input error rest failed
    rcases bind_eq_error failed with first | ⟨middle, left, first, last⟩
    · rcases steady.error first with ⟨restEnd, persists⟩
      exact ⟨restEnd, persists.imp fun _ _ _ fails => bind_error next fails⟩
    · rcases steady.ok first with ⟨leftEnd, firstMore⟩
      rcases (nextSteady middle).error last with ⟨restEnd, persists⟩
      refine ⟨restEnd.trans leftEnd, persists.imp ?_⟩
      intro more error rest fails
      rw [bind_ok (firstMore more), fails]

theorem take_of_short (short : input.length < count) :
    take count input = .error (.truncated count input.length) input := by
  unfold take
  dsimp only
  rw [if_pos]
  rw [List.length_take]
  omega

theorem take_eq_error (failed : take count input = .error error rest) :
    input.length < count ∧ error = .truncated count input.length ∧ rest = input := by
  unfold take at failed
  dsimp only at failed
  split at failed
  · next short =>
    cases failed
    rw [List.length_take] at short
    exact ⟨by omega, rfl, rfl⟩
  · cases failed

theorem steady_take (count : Nat) : (take count).Steady where
  ok := by
    intro input taken rest done
    have long := (take_eq_ok done).1
    have same := append_of_take done
    refine ⟨⟨taken, same⟩, ?_⟩
    intro more
    rw [← same, ← long, List.append_assoc]
    exact take_append taken (rest ++ more)
  error := by
    intro input error rest failed
    rcases take_eq_error failed with ⟨short, rfl, rfl⟩
    refine ⟨List.suffix_rfl, rfl, short, ?_⟩
    intro more few
    have stillShort : (rest ++ more).length < count := by
      rw [List.length_append]
      omega
    rw [take_of_short stillShort, List.length_append]

theorem steady_number (width : Nat) : (Reader.number width).Steady :=
  (steady_take width).bind fun _ => steady_pure _

theorem text_of_take_error (failed : take count input = .error error rest) :
    Reader.text count input = .error error rest := by
  simp only [Reader.text, failed]

theorem text_of_valid {taken : Bytes} {text : String} (done : take count input = .ok taken rest)
    (valid : String.fromUTF8? taken.toByteArray = some text) :
    Reader.text count input = .ok text rest := by
  simp only [Reader.text, done, valid]

theorem text_of_invalid {taken : Bytes} (done : take count input = .ok taken rest)
    (invalid : String.fromUTF8? taken.toByteArray = none) :
    Reader.text count input = .error .invalidUtf8 input := by
  simp only [Reader.text, done, invalid]

theorem steady_text (count : Nat) : (Reader.text count).Steady where
  ok := by
    intro input text rest done
    cases first : take count input with
    | error failure left =>
        rw [text_of_take_error first] at done
        cases done
    | ok taken left =>
        rcases (steady_take count).ok first with ⟨leftEnd, firstMore⟩
        cases valid : String.fromUTF8? taken.toByteArray with
        | none =>
            rw [text_of_invalid first valid] at done
            cases done
        | some same =>
            rw [text_of_valid first valid] at done
            cases done
            exact ⟨leftEnd, fun more => text_of_valid (firstMore more) valid⟩
  error := by
    intro input error rest failed
    cases first : take count input with
    | error failure left =>
        rw [text_of_take_error first] at failed
        cases failed
        rcases (steady_take count).error first with ⟨leftEnd, persists⟩
        exact ⟨leftEnd, persists.imp fun _ _ _ fails => text_of_take_error fails⟩
    | ok taken left =>
        have firstMore := ((steady_take count).ok first).2
        cases valid : String.fromUTF8? taken.toByteArray with
        | none =>
            rw [text_of_invalid first valid] at failed
            cases failed
            exact ⟨List.suffix_rfl, fun more => text_of_invalid (firstMore more) valid⟩
        | some same =>
            rw [text_of_valid first valid] at failed
            cases failed

theorem steady_itemsInto {item : Reader α} (steady : item.Steady) (count : Nat)
    (newestFirst : List α) : (itemsInto item count newestFirst).Steady := by
  induction count generalizing newestFirst with
  | zero => exact steady_pure _
  | succ count ih => exact steady.bind fun next => ih (next :: newestFirst)

/-- What is left of the bytes of a value after a cut fails, and only for want of bytes. -/
theorem Steady.truncated_of_cut {reader : Reader α} (steady : reader.Steady) {front more : Bytes}
    {value : α} (done : reader (front ++ more) = .ok value rest) (cut : rest.length < more.length) :
    ∃ needed remaining left, reader front = .error (.truncated needed remaining) left := by
  cases early : reader front with
  | ok other left =>
      have again := (steady.ok early).2 more
      rw [done] at again
      cases again
      rw [List.length_append] at cut
      omega
  | error failure left =>
      have persists := (steady.error early).2
      cases failure with
      | truncated needed remaining => exact ⟨needed, remaining, left, rfl⟩
      | invalidUtf8 =>
          have again := persists more
          rw [done] at again
          cases again
      | invalidChoice field byte =>
          have again := persists more
          rw [done] at again
          cases again
      | unknownKind tag => exact persists.elim
      | lengthOverflow bodySize => exact persists.elim
      | undersized size => exact persists.elim

end Reader

namespace Codec

variable {α : Type}

theorem steady_word8 : word8.read.Steady :=
  (Reader.steady_number 1).bind fun _ => Reader.steady_pure _

theorem steady_choice [DecidableEq α] (field : String) (choices : List α) :
    (choice field choices).read.Steady := by
  apply steady_word8.bind
  intro byte
  cases choices[byte.toNat]? with
  | some value => exact Reader.steady_pure value
  | none =>
      refine ⟨?_, ?_⟩
      · intro input value rest done
        cases done
      · intro input error rest failed
        cases failed
        exact ⟨List.suffix_rfl, fun _ => rfl⟩

theorem Built.steady {codec : Codec α} (built : codec.Built) : codec.read.Steady := by
  induction built with
  | word8 => exact steady_word8
  | word32 => exact (Reader.steady_number 4).bind fun _ => Reader.steady_pure _
  | word64 => exact (Reader.steady_number 8).bind fun _ => Reader.steady_pure _
  | blob => exact (Reader.steady_number 4).bind Reader.steady_take
  | text => exact (Reader.steady_number 4).bind Reader.steady_text
  | choice field _ _ _ => exact steady_choice field _
  | array _ ih =>
      exact (Reader.steady_number 4).bind fun count => Reader.steady_itemsInto ih count []
  | pair _ _ firstIh secondIh =>
      exact firstIh.bind fun left => secondIh.bind fun right => Reader.steady_pure (left, right)
  | as _ _ _ ih => exact ih.bind fun _ => Reader.steady_pure _

theorem Built.truncated_of_cut {codec : Codec α} (built : codec.Built) {value : α}
    {front more : Bytes} (split : front ++ more = codec.encode value) (cut : more ≠ [])
    (fits : codec.size value < UInt32.size) :
    ∃ needed remaining rest, codec.read front = .error (.truncated needed remaining) rest := by
  have whole := built.lawful.read_encode value [] fits
  rw [List.append_nil, ← split] at whole
  apply built.steady.truncated_of_cut whole
  exact List.length_pos_iff.mpr cut

end Codec

theorem Message.steady_reader (kind : MessageKind) : (Message.reader kind).Steady :=
  kind.built_layout.steady.bind fun _ => Reader.steady_pure _

/-- Bytes that follow an input change nothing about what is read of it or about what is wrong with
it, and add to a part that is not all there, until it is. So a value that has been cut off fails for
want of bytes and for no other reason. -/
theorem wire_steady :
    (∀ (α : Type) (codec : Codec α), codec.Built → codec.read.Steady) ∧
      (∀ kind : MessageKind, kind.layout.Built ∧ (Message.reader kind).Steady) ∧
      (∀ (α : Type) (reader : Reader α) (front more : Bytes) (value : α) (rest : Bytes),
        reader.Steady → reader (front ++ more) = .ok value rest → rest.length < more.length →
          ∃ needed remaining left, reader front = .error (.truncated needed remaining) left) ∧
      ∀ (α : Type) (codec : Codec α) (value : α) (front more : Bytes), codec.Built →
        front ++ more = codec.encode value → more ≠ [] → codec.size value < UInt32.size →
          ∃ needed remaining left,
            codec.read front = .error (.truncated needed remaining) left := by
  refine ⟨?_, ?_, ?_, ?_⟩
  · intro α codec built
    exact built.steady
  · intro kind
    exact ⟨kind.built_layout, Message.steady_reader kind⟩
  · intro α reader front more value rest steady done cut
    exact steady.truncated_of_cut done cut
  · intro α codec value front more built split cut fits
    exact built.truncated_of_cut split cut fits

theorem wire_steady_texts :
    (Codec.array .text).read [2, 0, 0, 0, 1, 0, 0, 0, 65, 3, 0, 0, 0, 66] =
        .error (.truncated 3 1) [66] ∧
      (Codec.array .text).read ([2, 0, 0, 0, 1, 0, 0, 0, 65, 3, 0, 0, 0, 66] ++ [67]) =
        .error (.truncated 3 2) [66, 67] ∧
      (∃ needed remaining left, (Codec.array .text).read [1, 0, 0, 0, 2, 0, 0, 0, 65] =
        .error (.truncated needed remaining) left) ∧
      ∃ needed remaining left, Message.reader .createResponse [3, 7, 0] =
        .error (.truncated needed remaining) left := by
  have built : (Codec.array .text).Built := .array .text
  have short : (Codec.array .text).read [2, 0, 0, 0, 1, 0, 0, 0, 65, 3, 0, 0, 0, 66] =
      .error (.truncated 3 1) [66] := by
    rfl
  have persists := ((wire_steady.1 _ _ built).error short).2
  refine ⟨short, persists.2.2 [67] (by decide), ?_, ?_⟩
  · exact wire_steady.2.2.2 _ _ ["AB"] _ [66] built (by decide) (by simp) (by decide)
  · exact wire_steady.2.2.1 _ _ [3, 7, 0] [0, 0, 5] (.createResponse .alreadyExist 7) [5]
      (wire_steady.2.1 .createResponse).2 rfl (by decide)

end SharedTree
