import SharedTree.Proofs.Wire.Codec

/-!
# Messages that travel

A message travels as a frame, and nothing of it is lost on the way: the header says what kind it
is and how long its body is, and the body is read as the message again, whatever follows it. All
that a message needs for this is that the size word can hold the size of its frame. The words in
front of blobs, texts and arrays are no narrower than the size word, and nothing that they count
takes no bytes, so they can then hold their counts as well.

The main result, `Message.survives_wire`, says so of every message.
-/

namespace SharedTree

namespace Header

@[simp] theorem length_encode (header : Header) : header.encode.length = length := by
  simp [encode, length]

theorem ofBytes_encode (header : Header) (rest : Bytes) :
    ofBytes (header.encode ++ rest) = header := by
  have size : (Bytes.toNat (Bytes.ofNat 4 header.size.toNat)) = header.size.toNat := by
    rw [Bytes.toNat_ofNat]
    exact Nat.mod_eq_of_lt header.size.toNat_lt
  have transaction :
      (Bytes.toNat (Bytes.ofNat 4 header.transaction.toNat)) = header.transaction.toNat := by
    rw [Bytes.toNat_ofNat]
    exact Nat.mod_eq_of_lt header.transaction.toNat_lt
  have first : ((header.encode ++ rest).drop 1).take 4 = Bytes.ofNat 4 header.size.toNat := by
    simp [encode, Bytes.ofNat]
  have second :
      ((header.encode ++ rest).drop 5).take 4 = Bytes.ofNat 4 header.transaction.toNat := by
    simp [encode, Bytes.ofNat]
  simp only [ofBytes, first, second, size, transaction, UInt32.ofNat_toNat]
  rfl

@[simp] theorem ofBytes_encode_self (header : Header) : ofBytes header.encode = header := by
  simpa using header.ofBytes_encode []

theorem parse_encode (header : Header) : parse header.encode = .ok header := by
  simp [parse]

end Header

namespace Codec

variable {α β : Type}

/-- The numbers stand as words in what is written of a value, and none is above its size. -/
def Counts (codec : Codec α) (value : α) (counts : List Nat) : Prop :=
  ∀ count ∈ counts, count ≤ codec.size value ∧ countBytes count <:+: codec.encode value

theorem counts_nil (codec : Codec α) (value : α) : codec.Counts value [] := by
  simp [Counts]

theorem counts_blob (bytes : Bytes) : blob.Counts bytes [bytes.length] := by
  intro count isLength
  obtain rfl := List.mem_singleton.mp isLength
  exact ⟨Nat.le_add_left _ _, (List.prefix_append _ _).isInfix⟩

theorem counts_text (string : String) : text.Counts string [string.utf8ByteSize] := by
  intro count isLength
  obtain rfl := List.mem_singleton.mp isLength
  exact ⟨Nat.le_add_left _ _, (List.prefix_append _ _).isInfix⟩

theorem counts_pair {first : Codec α} {second : Codec β} {left : α} {right : β}
    {firstCounts secondCounts : List Nat} (firstWritten : first.Counts left firstCounts)
    (secondWritten : second.Counts right secondCounts) :
    (pair first second).Counts (left, right) (firstCounts ++ secondCounts) := by
  intro count mem
  rcases List.mem_append.mp mem with inFirst | inSecond
  · rcases firstWritten count inFirst with ⟨bounded, written⟩
    refine ⟨?_, written.trans (List.prefix_append _ _).isInfix⟩
    simp only [pair]
    omega
  · rcases secondWritten count inSecond with ⟨bounded, written⟩
    refine ⟨?_, written.trans (List.suffix_append _ _).isInfix⟩
    simp only [pair]
    omega

theorem size_le_sizeAll {item : Codec α} {items : List α} {one : α} (mem : one ∈ items) :
    item.size one ≤ item.sizeAll items := by
  induction items with
  | nil => cases mem
  | cons first others ih =>
      simp only [sizeAll]
      rcases List.mem_cons.mp mem with rfl | later
      · omega
      · have := ih later
        omega

theorem encode_infix_flatMap {item : Codec α} {items : List α} {one : α} (mem : one ∈ items) :
    item.encode one <:+: items.flatMap item.encode := by
  rcases List.append_of_mem mem with ⟨before, behind, rfl⟩
  exact ⟨before.flatMap item.encode, behind.flatMap item.encode, by simp⟩

theorem counts_array {item : Codec α} (lawful : item.Lawful) {countsOf : α → List Nat}
    (each : ∀ one, item.Counts one (countsOf one)) (items : List α) :
    (array item).Counts items (items.length :: items.flatMap countsOf) := by
  intro count mem
  rcases List.mem_cons.mp mem with rfl | inner
  · have few := length_le_sizeAll lawful items
    refine ⟨?_, (List.prefix_append _ _).isInfix⟩
    simp only [array]
    omega
  · rcases List.mem_flatMap.mp inner with ⟨one, oneMem, countMem⟩
    rcases each one count countMem with ⟨bounded, written⟩
    have within : item.size one ≤ item.sizeAll items := size_le_sizeAll oneMem
    refine ⟨?_, (written.trans (encode_infix_flatMap oneMem)).trans
      (List.suffix_append _ _).isInfix⟩
    simp only [array]
    omega

theorem counts_as {codec : Codec α} {build : α → β} {parts : β → α} {value : β}
    {counts : List Nat} (written : codec.Counts (parts value) counts) :
    (codec.as build parts).Counts value counts :=
  written

end Codec

namespace Message

/-- The lengths and counts in front of the blobs, texts and arrays of a message. -/
def counts : Message → List Nat
  | .createRequest _ data path => [data.length, path.utf8ByteSize]
  | .metaUpdateNotification creations deletions =>
    creations.length :: creations.map (·.path.utf8ByteSize) ++ [deletions.length]
  | .propertyUpdateNotification updates => updates.length :: updates.map (·.data.length)
  | .setValueIndication update => [update.data.length]
  | .deleteRequest path | .getSpecificMetaRequest path => [path.utf8ByteSize]
  | .getSpecificMetaResponse info => [info.path.utf8ByteSize]
  | .getValueResponse data | .rpcRequest _ data | .rpcResponse data | .handleRpcRequest _ _ _ data
  | .handleRpcResponse _ _ data => [data.length]
  | .signinRequest .. | .signinResponse _ | .createResponse .. | .deleteResponse _
  | .subscribeRequest _ | .subscribeResponse _ | .unsubscribeRequest _ | .unsubscribeResponse _
  | .getValueRequest _ => []

theorem counts_info (info : PropertyInfo) :
    PropertyInfo.codec.Counts info [info.path.utf8ByteSize] :=
  Codec.counts_as (Codec.counts_pair (Codec.counts_nil _ _)
    (Codec.counts_pair (Codec.counts_nil _ _) (Codec.counts_text _)))

theorem counts_update (update : ValueUpdate) :
    ValueUpdate.codec.Counts update [update.data.length] :=
  Codec.counts_as (Codec.counts_pair (Codec.counts_nil _ _) (Codec.counts_blob _))

/-- The counts of a message are written in its body, and none is above the size of the body. -/
theorem counts_layout (message : Message) :
    message.kind.layout.Counts message.fields message.counts := by
  have behindWord {α β : Type} {first : Codec α} {second : Codec β} {left : α} {right : β}
      {counts : List Nat} (written : second.Counts right counts) :
      (first.pair second).Counts (left, right) counts :=
    Codec.counts_pair (Codec.counts_nil first left) written
  cases message with
  | createRequest kind data path =>
      have written := Codec.counts_pair (Codec.counts_blob data) (Codec.counts_text path)
      exact behindWord written
  | metaUpdateNotification creations deletions =>
      have infos := Codec.counts_array
        (MessageKind.lawful_layout .getSpecificMetaResponse) counts_info creations
      have uuids := Codec.counts_array Codec.lawful_word32 (Codec.counts_nil _) deletions
      have nothing : deletions.flatMap (fun _ => ([] : List Nat)) = [] := by simp
      rw [← List.map_eq_flatMap] at infos
      rw [nothing] at uuids
      exact Codec.counts_pair infos uuids
  | propertyUpdateNotification updates =>
      have written := Codec.counts_array
        (MessageKind.lawful_layout .setValueIndication) counts_update updates
      rw [← List.map_eq_flatMap] at written
      exact written
  | setValueIndication update => exact counts_update update
  | deleteRequest path => exact Codec.counts_text path
  | getSpecificMetaRequest path => exact Codec.counts_text path
  | getSpecificMetaResponse info => exact counts_info info
  | getValueResponse data => exact Codec.counts_blob data
  | rpcRequest uuid parameter => exact behindWord (Codec.counts_blob parameter)
  | rpcResponse returnValue => exact Codec.counts_blob returnValue
  | handleRpcRequest caller transaction uuid parameter =>
      exact behindWord (behindWord (behindWord (Codec.counts_blob parameter)))
  | handleRpcResponse caller transaction returnValue =>
      exact behindWord (behindWord (Codec.counts_blob returnValue))
  | signinRequest version refreshRate features => exact Codec.counts_nil _ _
  | signinResponse version => exact Codec.counts_nil _ _
  | createResponse code uuid => exact Codec.counts_nil _ _
  | deleteResponse code => exact Codec.counts_nil _ _
  | subscribeRequest uuid => exact Codec.counts_nil _ _
  | subscribeResponse code => exact Codec.counts_nil _ _
  | unsubscribeRequest uuid => exact Codec.counts_nil _ _
  | unsubscribeResponse code => exact Codec.counts_nil _ _
  | getValueRequest uuid => exact Codec.counts_nil _ _

/-- The body of a message is read as the message, and what follows it is left. -/
theorem reader_encode {message : Message} (fits : message.size < UInt32.size) (more : Bytes) :
    reader message.kind (message.encode ++ more) = .ok message more := by
  have read := message.kind.lawful_layout.read_encode message.fields more fits
  simp only [reader, encode, Reader.bind_ok read, ofFields_fields]
  rfl

end Message

namespace Frame

/-- A frame from which nothing of a message is lost. -/
structure Conveys (frame : Frame) (message : Message) (transaction : TransactionId) : Prop where
  tag : frame.header.tag = message.kind.tag
  transaction : frame.transaction = transaction
  body : frame.body = message.encode
  bodySize : frame.header.bodySize = .ok frame.body.length
  header : Header.parse (frame.encode.take Header.length) = .ok frame.header
  carried : frame.message = .ok message
  /-- Bytes behind the body make no difference. -/
  longer : ∀ more, ({ frame with body := frame.body ++ more } : Frame).message = .ok message
  /-- The words in front of blobs, texts and arrays hold their lengths and counts. -/
  counts : ∀ count ∈ message.counts,
    Codec.countBytes count <:+: frame.body ∧ (Codec.countBytes count).toNat = count

variable {message : Message} {transaction : TransactionId} {frame : Frame}

theorem ofMessage_eq_error_iff {error : WireError} :
    ofMessage message transaction = .error error ↔
      UInt32.size ≤ message.size + Header.length ∧ error = .lengthOverflow message.size := by
  unfold ofMessage Header.forBody
  split
  · next fits =>
    constructor
    · intro impossible
      cases impossible
    · intro tooLong
      omega
  · next tooLong =>
    simp only [bind, Except.bind, Except.error.injEq, Nat.le_of_not_lt tooLong, true_and]
    exact eq_comm

theorem bodySize_ofMessage (made : ofMessage message transaction = .ok frame) :
    frame.header.bodySize = .ok frame.body.length := by
  have body := length_body_ofMessage made
  rcases ofMessage_eq_ok_iff.mp made with ⟨fits, rfl⟩
  have size : (UInt32.ofNat (message.size + Header.length)).toNat =
      message.size + Header.length := by
    rw [UInt32.toNat_ofNat']
    exact Nat.mod_eq_of_lt fits
  simp only [Header.bodySize, size, body, Nat.add_sub_cancel]
  exact if_neg (Nat.not_lt.mpr (Nat.le_add_left _ _))

theorem take_encode (frame : Frame) : frame.encode.take Header.length = frame.header.encode := by
  have front : (frame.header.encode ++ frame.body).take frame.header.encode.length =
      frame.header.encode := List.take_left
  rwa [Header.length_encode] at front

theorem conveys_ofMessage (made : ofMessage message transaction = .ok frame) :
    frame.Conveys message transaction := by
  have bodySize := bodySize_ofMessage made
  have carried := message_ofMessage made
  rcases ofMessage_eq_ok_iff.mp made with ⟨fits, rfl⟩
  refine ⟨rfl, rfl, rfl, bodySize, ?_, carried, ?_, ?_⟩
  · rw [take_encode]
    exact Header.parse_encode _
  · intro more
    have read := message.reader_encode (by omega) more
    simp only [Frame.message, Header.kind, MessageKind.ofTag_tag, bind, Except.bind,
      Message.decode, Reader.value, read]
  · intro count mem
    rcases message.counts_layout count mem with ⟨bounded, written⟩
    have small : count < Bytes.span 4 := by
      have span : UInt32.size = Bytes.span 4 := by decide
      have size : count ≤ message.size := bounded
      omega
    refine ⟨written, ?_⟩
    rw [Codec.countBytes, Bytes.toNat_ofNat]
    exact Nat.mod_eq_of_lt small

end Frame

namespace Message

/-- Writing a message takes as many bytes as its size says. It has no frame exactly when the size
word cannot hold the size of the frame, and nothing of it is lost from its frame. -/
theorem survives_wire (message : Message) (transaction : TransactionId) :
    message.encode.length = message.size ∧
      (∀ error, Frame.ofMessage message transaction = .error error ↔
        UInt32.size ≤ message.size + Header.length ∧ error = .lengthOverflow message.size) ∧
      ∀ frame, Frame.ofMessage message transaction = .ok frame →
        frame.Conveys message transaction :=
  ⟨message.length_encode, fun _ => Frame.ofMessage_eq_error_iff,
    fun _ made => Frame.conveys_ofMessage made⟩

theorem survives_wire_nested :
    ∃ frame,
      Frame.ofMessage (.metaUpdateNotification [⟨100, .node, "/é"⟩] [7, 8]) 5 = .ok frame ∧
      frame.header = ⟨0x2e, 37, 5⟩ ∧
      (metaUpdateNotification [⟨100, .node, "/é"⟩] [7, 8]).counts = [1, 3, 2] ∧
      frame.Conveys (.metaUpdateNotification [⟨100, .node, "/é"⟩] [7, 8]) 5 :=
  ⟨_, rfl, rfl, by decide, (survives_wire _ _).2.2 _ rfl⟩

end Message

end SharedTree
