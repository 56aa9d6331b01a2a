import SharedTree.Proofs.Wire.Frame

/-!
# One byte string for each value

The written form is canonical. Whatever bytes a reader accepts, they are the bytes that writing
the value gives, followed by the bytes it has left over. Nothing that was consumed is forgotten:
the length of a blob is that of its bytes, the count of an array that of its items, and a choice
has one byte for each of its values.
-/

namespace SharedTree

namespace Reader

variable {α : Type} {count width number : Nat} {input rest : Bytes}

theorem append_of_take {taken : Bytes} (done : take count input = .ok taken rest) :
    taken ++ rest = input := by
  unfold take at done
  dsimp only at done
  split at done
  · cases done
  · cases done
    exact List.take_append_drop count input

theorem append_of_number (done : Reader.number width input = .ok number rest) :
    Bytes.ofNat width number ++ rest = input ∧ number < Bytes.span width := by
  rcases bind_eq_ok done with ⟨taken, left, first, last⟩
  cases last
  have long := (take_eq_ok first).1
  have same := Bytes.ofNat_toNat taken
  have bound := Bytes.toNat_lt taken
  rw [long] at same bound
  refine ⟨?_, bound⟩
  rw [same]
  exact append_of_take first

theorem append_of_text {text : String} (done : Reader.text count input = .ok text rest) :
    text.toByteArray.data.toList ++ rest = input := by
  unfold Reader.text at done
  split at done
  · cases done
  · next taken left first =>
    split at done
    · next same valid =>
      cases done
      unfold String.fromUTF8? at valid
      split at valid
      · cases valid
        have bytes : taken.toByteArray.data.toList = taken := by rw [List.data_toByteArray]
        exact (congrArg (· ++ rest) bytes).trans (append_of_take first)
      · cases valid
    · cases done

end Reader

namespace Codec

variable {α β : Type}

/-- Nothing that a reader consumes is forgotten: the value is written as the same bytes. -/
def Retains (codec : Codec α) : Prop :=
  ∀ {input value rest}, codec.read input = .ok value rest → codec.encode value ++ rest = input

theorem retains_word8 : word8.Retains := by
  intro input word rest done
  rcases Reader.bind_eq_ok done with ⟨number, left, first, last⟩
  cases last
  exact (Reader.append_of_number first).1

theorem retains_word32 : word32.Retains := by
  intro input word rest done
  rcases Reader.bind_eq_ok done with ⟨number, left, first, last⟩
  cases last
  rcases Reader.append_of_number first with ⟨same, bound⟩
  simp only [word32]
  rw [UInt32.toNat_ofNat_of_lt' bound]
  exact same

theorem retains_word64 : word64.Retains := by
  intro input word rest done
  rcases Reader.bind_eq_ok done with ⟨number, left, first, last⟩
  cases last
  rcases Reader.append_of_number first with ⟨same, bound⟩
  simp only [word64]
  rw [UInt64.toNat_ofNat_of_lt' bound]
  exact same

theorem retains_blob : blob.Retains := by
  intro input bytes rest done
  rcases Reader.bind_eq_ok done with ⟨count, left, first, last⟩
  have counted := (Reader.append_of_number first).1
  have long := (Reader.take_eq_ok last).1
  simp only [blob, countBytes, long, List.append_assoc]
  rw [Reader.append_of_take last, counted]

theorem retains_text : text.Retains := by
  intro input string rest done
  rcases Reader.bind_eq_ok done with ⟨count, left, first, last⟩
  have counted := (Reader.append_of_number first).1
  have long := (Reader.text_eq_ok last).1
  simp only [text, countBytes, long, List.append_assoc]
  rw [Reader.append_of_text last, counted]

theorem retains_choice [DecidableEq α] (field : String) {choices : List α}
    (distinct : choices.Nodup) : (choice field choices).Retains := by
  intro input value rest done
  rcases Reader.bind_eq_ok done with ⟨byte, left, first, last⟩
  cases there : choices[byte.toNat]? with
  | none =>
      simp only [there] at last
      cases last
  | some chosen =>
      simp only [there] at last
      cases last
      rcases List.getElem?_eq_some_iff.mp there with ⟨position, chosenEq⟩
      have back := distinct.idxOf_getElem byte.toNat position
      rw [chosenEq] at back
      simp only [choice, back, UInt8.ofNat_toNat]
      exact retains_word8 first

/-- The items that are read, behind those read before, are written as the bytes consumed. -/
theorem append_of_itemsInto {item : Codec α} (retains : item.Retains) {count : Nat}
    {newestFirst items : List α} {input rest : Bytes}
    (done : Reader.itemsInto item.read count newestFirst input = .ok items rest) :
    ∃ read, items = newestFirst.reverse ++ read ∧ read.length = count ∧
      read.flatMap item.encode ++ rest = input := by
  induction count generalizing newestFirst input with
  | zero =>
      cases done
      exact ⟨[], (List.append_nil _).symm, rfl, rfl⟩
  | succ count ih =>
      rcases Reader.bind_eq_ok done with ⟨next, left, first, others⟩
      rcases ih others with ⟨read, itemsEq, long, same⟩
      refine ⟨next :: read, ?_, ?_, ?_⟩
      · simpa using itemsEq
      · rw [List.length_cons, long]
      · rw [List.flatMap_cons, List.append_assoc, same]
        exact retains first

theorem retains_array {item : Codec α} (retains : item.Retains) : (array item).Retains := by
  intro input items rest done
  rcases Reader.bind_eq_ok done with ⟨count, left, first, last⟩
  rcases append_of_itemsInto retains last with ⟨read, itemsEq, long, same⟩
  rw [List.reverse_nil, List.nil_append] at itemsEq
  subst itemsEq
  have counted := (Reader.append_of_number first).1
  simp only [array, countBytes, long, List.append_assoc]
  rw [same, counted]

theorem retains_pair {first : Codec α} {second : Codec β} (firstRetains : first.Retains)
    (secondRetains : second.Retains) : (pair first second).Retains := by
  intro input parts rest done
  rcases Reader.bind_eq_ok done with ⟨left, middle, firstRead, others⟩
  rcases Reader.bind_eq_ok others with ⟨right, last, secondRead, done⟩
  cases done
  simp only [pair, List.append_assoc]
  rw [secondRetains secondRead, firstRetains firstRead]

theorem retains_as {codec : Codec α} (retains : codec.Retains) {build : α → β} {parts : β → α}
    (faithful : ∀ fields, parts (build fields) = fields) : (codec.as build parts).Retains := by
  intro input value rest done
  rcases Reader.bind_eq_ok done with ⟨fields, left, first, last⟩
  cases last
  simp only [Codec.as, faithful]
  exact retains first

theorem Built.retains {codec : Codec α} (built : codec.Built) : codec.Retains := by
  induction built with
  | word8 => exact retains_word8
  | word32 => exact retains_word32
  | word64 => exact retains_word64
  | blob => exact retains_blob
  | text => exact retains_text
  | choice field distinct _ _ => exact retains_choice field distinct
  | array _ ih => exact retains_array ih
  | pair _ _ firstIh secondIh => exact retains_pair firstIh secondIh
  | as _ _ faithful ih => exact retains_as ih faithful

/-- The bytes that a value is read from are those that it is written as, so there is one byte string
for each value. -/
structure Canonical (codec : Codec α) : Prop where
  encode_append : ∀ input value rest, codec.read input = .ok value rest →
    codec.encode value ++ rest = input
  size_add : ∀ input value rest, codec.read input = .ok value rest →
    codec.size value + rest.length = input.length
  unique : ∀ left right value, codec.read left = .ok value [] → codec.read right = .ok value [] →
    left = right

theorem Built.canonical {codec : Codec α} (built : codec.Built) : codec.Canonical where
  encode_append _ _ _ done := built.retains done
  size_add := by
    intro input value rest done
    rw [← built.retains done, List.length_append, built.lawful.length_encode]
  unique := by
    intro left right value leftDone rightDone
    exact (built.retains leftDone).symm.trans (built.retains rightDone)

end Codec

namespace Message

@[simp] theorem encode_ofFields (kind : MessageKind) (fields : kind.Fields) :
    (ofFields kind fields).encode = kind.layout.encode fields := by
  cases kind <;> rfl

theorem encode_append_of_reader {kind : MessageKind} {body rest : Bytes} {message : Message}
    (done : reader kind body = .ok message rest) :
    message.kind = kind ∧ message.encode ++ rest = body := by
  rcases Reader.bind_eq_ok done with ⟨fields, left, first, last⟩
  cases last
  refine ⟨kind_ofFields kind fields, ?_⟩
  rw [encode_ofFields]
  exact kind.built_layout.retains first

end Message

namespace Header

theorem ofNat_word (bytes : Bytes) (start : Nat) (inside : start + 4 ≤ bytes.length) :
    Bytes.ofNat 4 (UInt32.ofNat (Bytes.toNat ((bytes.drop start).take 4))).toNat =
      (bytes.drop start).take 4 := by
  have long : ((bytes.drop start).take 4).length = 4 := by
    rw [List.length_take, List.length_drop]
    omega
  have same := Bytes.ofNat_toNat ((bytes.drop start).take 4)
  have bound := Bytes.toNat_lt ((bytes.drop start).take 4)
  rw [long] at same bound
  rw [UInt32.toNat_ofNat_of_lt' bound]
  exact same

theorem encode_ofBytes {bytes : Bytes} (long : length ≤ bytes.length) :
    (ofBytes bytes).encode = bytes.take length := by
  rw [length] at long
  simp only [encode, ofBytes]
  rw [ofNat_word bytes 1 (by omega), ofNat_word bytes 5 (by omega)]
  cases bytes with
  | nil => exact absurd long (by simp)
  | cons tag rest =>
      have words : rest.take 8 = rest.take 4 ++ (rest.drop 4).take 4 := by rw [← List.take_add]
      simp only [length, List.headD_cons, List.drop_succ_cons, List.drop_zero,
        List.take_succ_cons, List.cons_append, words]

end Header

/-- Whatever is read, of any type that can be written, is written as the bytes that it was read
from. This goes for the body of every message, and for headers whatever their tag and size are. -/
theorem wire_canonical :
    (∀ (α : Type) (codec : Codec α), codec.Built → codec.Canonical) ∧
      (∀ kind : MessageKind, kind.layout.Built) ∧
      (∀ kind body message rest, Message.reader kind body = .ok message rest →
        message.kind = kind ∧ message.encode ++ rest = body ∧
          message.size + rest.length = body.length) ∧
      ∀ bytes : Bytes, Header.length ≤ bytes.length →
        ∃ header, Header.parse bytes = .ok header ∧ header.encode = bytes.take Header.length := by
  refine ⟨fun _ _ built => built.canonical, MessageKind.built_layout, ?_, ?_⟩
  · intro kind body message rest done
    rcases Message.encode_append_of_reader done with ⟨sameKind, same⟩
    refine ⟨sameKind, same, ?_⟩
    rw [← message.length_encode, ← List.length_append, same]
  · intro bytes long
    refine ⟨Header.ofBytes bytes, ?_, Header.encode_ofBytes long⟩
    rw [Header.parse, if_neg (Nat.not_lt.mpr long)]

theorem wire_canonical_nested :
    (∃ (items : List (List String)) (rest : Bytes),
      (Codec.array (.array .text)).read [2, 0, 0, 0, 0, 0, 0, 0, 1, 0, 0, 0, 1, 0, 0, 0, 65, 9] =
          .ok items rest ∧
        (Codec.array (.array .text)).encode items ++ rest =
          [2, 0, 0, 0, 0, 0, 0, 0, 1, 0, 0, 0, 1, 0, 0, 0, 65, 9]) ∧
      (∃ (message : Message) (rest : Bytes),
        Message.reader .createResponse [3, 7, 0, 0, 0, 5, 6] = .ok message rest ∧
          message.encode ++ rest = [3, 7, 0, 0, 0, 5, 6]) ∧
      ∃ header, Header.parse [255, 3, 0, 0, 0, 1, 2, 3, 4] = .ok header ∧
        header.encode = [255, 3, 0, 0, 0, 1, 2, 3, 4] := by
  refine ⟨⟨[[], ["A"]], [9], ?_⟩, ⟨.createResponse .alreadyExist 7, [5, 6], ?_⟩, ?_⟩
  · have read : (Codec.array (.array .text)).read
        [2, 0, 0, 0, 0, 0, 0, 0, 1, 0, 0, 0, 1, 0, 0, 0, 65, 9] = .ok [[], ["A"]] [9] := by
      rfl
    exact ⟨read, (wire_canonical.1 _ _ (.array (.array .text))).encode_append _ _ _ read⟩
  · have read : Message.reader .createResponse [3, 7, 0, 0, 0, 5, 6] =
        .ok (.createResponse .alreadyExist 7) [5, 6] := by
      rfl
    exact ⟨read, (wire_canonical.2.2.1 _ _ _ _ read).2.1⟩
  · exact wire_canonical.2.2.2 _ (by decide)

end SharedTree
