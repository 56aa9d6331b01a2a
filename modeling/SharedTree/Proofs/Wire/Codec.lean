import SharedTree.Wire.Frame

/-!
# Reading back what was written

A codec is lawful when its reader takes exactly the bytes of a value from the front of any
input that begins with them, as long as their number fits a 32-bit word, and takes no fewer
bytes than writing what it reads would take. Writing a value takes as many bytes as its
size says. Every codec that is made of words, blobs, texts and choices by forming arrays and
records is lawful, and messages have such codecs. So a frame made of a message carries that
message and is as long as the message, and no frame carries a message that is longer than its
body.
-/

namespace SharedTree

theorem length_toByteArray_toList (text : String) :
    text.toByteArray.data.toList.length = text.utf8ByteSize := by
  rw [Array.length_toList]
  rfl

namespace Reader

variable {α β : Type}

theorem bind_ok {reader : Reader α} {next : α → Reader β} {input rest : Bytes} {value : α}
    (done : reader input = .ok value rest) : (reader >>= next) input = next value rest := by
  simp only [bind, EStateM.bind, done]

theorem bind_eq_ok {reader : Reader α} {next : α → Reader β} {input rest : Bytes} {value : β}
    (done : (reader >>= next) input = .ok value rest) :
    ∃ middle left, reader input = .ok middle left ∧ next middle left = .ok value rest := by
  simp only [bind, EStateM.bind] at done
  cases first : reader input with
  | error error left =>
      rw [first] at done
      cases done
  | ok middle left =>
      rw [first] at done
      exact ⟨middle, left, rfl, done⟩

theorem take_eq_ok {count : Nat} {input taken rest : Bytes}
    (done : take count input = .ok taken rest) :
    taken.length = count ∧ count + rest.length = input.length := by
  unfold take at done
  dsimp only at done
  split at done
  · cases done
  · next enough =>
    cases done
    rw [List.length_take] at enough ⊢
    rw [List.length_drop]
    omega

theorem number_eq_ok {width number : Nat} {input rest : Bytes}
    (done : Reader.number width input = .ok number rest) : width + rest.length = input.length := by
  rcases bind_eq_ok done with ⟨taken, left, first, last⟩
  cases last
  exact (take_eq_ok first).2

theorem text_eq_ok {count : Nat} {input rest : Bytes} {text : String}
    (done : Reader.text count input = .ok text rest) :
    text.utf8ByteSize = count ∧ count + rest.length = input.length := by
  unfold Reader.text at done
  split at done
  · cases done
  · next taken left first =>
    split at done
    · next same valid =>
      cases done
      have lengths := take_eq_ok first
      unfold String.fromUTF8? at valid
      split at valid
      · cases valid
        refine ⟨?_, lengths.2⟩
        rw [← lengths.1, ← List.size_toByteArray]
        rfl
      · cases valid
    · cases done

theorem take_append (front rest : Bytes) : take front.length (front ++ rest) = .ok front rest := by
  simp [take]

theorem number_append {width number : Nat} (fits : number < Bytes.span width) (rest : Bytes) :
    Reader.number width (Bytes.ofNat width number ++ rest) = .ok number rest := by
  have taken := take_append (Bytes.ofNat width number) rest
  rw [Bytes.length_ofNat] at taken
  rw [Reader.number, bind_ok taken, Bytes.toNat_ofNat, Nat.mod_eq_of_lt fits]
  rfl

theorem text_append (text : String) (rest : Bytes) :
    Reader.text text.utf8ByteSize (text.toByteArray.data.toList ++ rest) = .ok text rest := by
  have taken := take_append text.toByteArray.data.toList rest
  have size := length_toByteArray_toList text
  have again : text.toByteArray.data.toList.toByteArray = text.toByteArray := by
    apply ByteArray.ext
    rw [List.data_toByteArray]
  rw [size] at taken
  simp only [Reader.text, taken, again, String.fromUTF8?, dif_pos text.isValidUTF8]
  rfl

end Reader

namespace Codec

variable {α β : Type}

/-- The reader takes back what was written, and no fewer bytes than the size of what it reads. A
written value is never without bytes, so there are no more items in an array than bytes. -/
structure Lawful (codec : Codec α) : Prop where
  positive : ∀ value, 0 < codec.size value
  length_encode : ∀ value, (codec.encode value).length = codec.size value
  read_encode : ∀ value rest, codec.size value < UInt32.size →
    codec.read (codec.encode value ++ rest) = .ok value rest
  size_read : ∀ input value rest, codec.read input = .ok value rest →
    codec.size value + rest.length ≤ input.length

theorem read_word8 (word : UInt8) (rest : Bytes) : word8.read (word :: rest) = .ok word rest := by
  have read := Reader.number_append (show word.toNat < Bytes.span 1 from word.toNat_lt) rest
  rw [Bytes.ofNat, Bytes.ofNat, UInt8.ofNat_toNat, List.cons_append, List.nil_append] at read
  simp only [word8, Reader.bind_ok read, UInt8.ofNat_toNat]
  rfl

theorem lawful_word8 : word8.Lawful where
  positive _ := by simp [word8]
  length_encode _ := rfl
  read_encode word rest _ := read_word8 word rest
  size_read := by
    intro input word rest done
    rcases Reader.bind_eq_ok done with ⟨number, left, first, last⟩
    cases last
    exact Nat.le_of_eq (Reader.number_eq_ok first)

theorem lawful_word32 : word32.Lawful where
  positive _ := by simp [word32]
  length_encode word := Bytes.length_ofNat 4 word.toNat
  read_encode := by
    intro word rest _
    have read := Reader.number_append (show word.toNat < Bytes.span 4 from word.toNat_lt) rest
    simp only [word32, Reader.bind_ok read, UInt32.ofNat_toNat]
    rfl
  size_read := by
    intro input word rest done
    rcases Reader.bind_eq_ok done with ⟨number, left, first, last⟩
    cases last
    exact Nat.le_of_eq (Reader.number_eq_ok first)

theorem lawful_word64 : word64.Lawful where
  positive _ := by simp [word64]
  length_encode word := Bytes.length_ofNat 8 word.toNat
  read_encode := by
    intro word rest _
    have read := Reader.number_append (show word.toNat < Bytes.span 8 from word.toNat_lt) rest
    simp only [word64, Reader.bind_ok read, UInt64.ofNat_toNat]
    rfl
  size_read := by
    intro input word rest done
    rcases Reader.bind_eq_ok done with ⟨number, left, first, last⟩
    cases last
    exact Nat.le_of_eq (Reader.number_eq_ok first)

theorem read_countBytes {count : Nat} (fits : count < UInt32.size) (rest : Bytes) :
    Reader.number 4 (countBytes count ++ rest) = .ok count rest :=
  Reader.number_append fits rest

theorem length_countBytes (count : Nat) : (countBytes count).length = 4 :=
  Bytes.length_ofNat 4 count

theorem lawful_blob : blob.Lawful where
  positive _ := by simp only [blob]; omega
  length_encode bytes := by simp only [blob, List.length_append, length_countBytes]
  read_encode := by
    intro bytes rest fits
    have short : bytes.length < UInt32.size := by
      simp only [blob] at fits
      omega
    have counted := read_countBytes short (bytes ++ rest)
    simp only [blob, List.append_assoc, Reader.bind_ok counted, Reader.take_append]
  size_read := by
    intro input bytes rest done
    rcases Reader.bind_eq_ok done with ⟨count, left, first, last⟩
    have counted := Reader.number_eq_ok first
    have taken := Reader.take_eq_ok last
    simp only [blob]
    omega

theorem lawful_text : text.Lawful where
  positive _ := by simp only [text]; omega
  length_encode string := by
    simp only [text, List.length_append, length_countBytes, length_toByteArray_toList]
  read_encode := by
    intro string rest fits
    have short : string.utf8ByteSize < UInt32.size := by
      simp only [text] at fits
      omega
    have counted := read_countBytes short (string.toByteArray.data.toList ++ rest)
    simp only [text, List.append_assoc, Reader.bind_ok counted, Reader.text_append]
  size_read := by
    intro input string rest done
    rcases Reader.bind_eq_ok done with ⟨count, left, first, last⟩
    have counted := Reader.number_eq_ok first
    have taken := Reader.text_eq_ok last
    simp only [text]
    omega

theorem itemsInto_append {item : Codec α} (lawful : item.Lawful) (items newestFirst : List α)
    (rest : Bytes) (fits : item.sizeAll items < UInt32.size) :
    Reader.itemsInto item.read items.length newestFirst (items.flatMap item.encode ++ rest) =
      .ok (newestFirst.reverse ++ items) rest := by
  induction items generalizing newestFirst with
  | nil => simp [Reader.itemsInto, pure, EStateM.pure]
  | cons first others ih =>
      rw [sizeAll] at fits
      have read := lawful.read_encode first (others.flatMap item.encode ++ rest) (by omega)
      simp only [List.length_cons, Reader.itemsInto, List.flatMap_cons, List.append_assoc,
        Reader.bind_ok read]
      rw [ih _ (by omega)]
      simp

theorem sizeAll_append (item : Codec α) (items others : List α) :
    item.sizeAll (items ++ others) = item.sizeAll items + item.sizeAll others := by
  induction items with
  | nil => simp [sizeAll]
  | cons first rest ih => rw [List.cons_append, sizeAll, ih, sizeAll, Nat.add_assoc]

theorem sizeAll_reverse (item : Codec α) (items : List α) :
    item.sizeAll items.reverse = item.sizeAll items := by
  induction items with
  | nil => rfl
  | cons first rest ih =>
      rw [List.reverse_cons, sizeAll_append, ih, sizeAll, sizeAll, sizeAll]
      omega

theorem size_itemsInto {item : Codec α} (lawful : item.Lawful) {count : Nat}
    {newestFirst items : List α} {input rest : Bytes}
    (done : Reader.itemsInto item.read count newestFirst input = .ok items rest) :
    item.sizeAll items + rest.length ≤
      item.sizeAll newestFirst + input.length := by
  induction count generalizing newestFirst input with
  | zero =>
      cases done
      exact Nat.le_of_eq (by rw [sizeAll_reverse])
  | succ count ih =>
      rcases Reader.bind_eq_ok done with ⟨next, left, first, others⟩
      have read := lawful.size_read _ _ _ first
      have total := ih others
      rw [sizeAll] at total
      omega

theorem length_le_sizeAll {item : Codec α} (lawful : item.Lawful) (items : List α) :
    items.length ≤ item.sizeAll items := by
  induction items with
  | nil => simp
  | cons first others ih =>
      have := lawful.positive first
      simp only [List.length_cons, sizeAll]
      omega

theorem length_flatMap_encode {item : Codec α} (lawful : item.Lawful) (items : List α) :
    (items.flatMap item.encode).length = item.sizeAll items := by
  induction items with
  | nil => rfl
  | cons first others ih =>
      rw [List.flatMap_cons, List.length_append, lawful.length_encode, ih, sizeAll]

theorem lawful_array {item : Codec α} (lawful : item.Lawful) : (array item).Lawful where
  positive _ := by simp only [array]; omega
  length_encode items := by
    simp only [array, List.length_append, length_countBytes, length_flatMap_encode lawful]
  read_encode := by
    intro items rest fits
    simp only [array] at fits
    have few := length_le_sizeAll lawful items
    have short : items.length < UInt32.size := by omega
    have counted := read_countBytes short (items.flatMap item.encode ++ rest)
    simp only [array, List.append_assoc, Reader.bind_ok counted]
    rw [itemsInto_append lawful _ _ _ (by omega)]
    rfl
  size_read := by
    intro input items rest done
    rcases Reader.bind_eq_ok done with ⟨count, left, first, last⟩
    have counted := Reader.number_eq_ok first
    have total := size_itemsInto lawful last
    simp only [array, sizeAll] at total ⊢
    omega

theorem lawful_pair {first : Codec α} {second : Codec β} (firstLawful : first.Lawful)
    (secondLawful : second.Lawful) : (pair first second).Lawful where
  positive parts := Nat.add_pos_left (firstLawful.positive parts.1) _
  length_encode parts := by
    simp only [pair, List.length_append, firstLawful.length_encode, secondLawful.length_encode]
  read_encode := by
    intro parts rest fits
    simp only [pair] at fits
    have left := firstLawful.read_encode parts.1 (second.encode parts.2 ++ rest) (by omega)
    have right := secondLawful.read_encode parts.2 rest (by omega)
    simp only [pair, List.append_assoc, Reader.bind_ok left, Reader.bind_ok right]
    rfl
  size_read := by
    intro input parts rest done
    rcases Reader.bind_eq_ok done with ⟨left, middle, firstRead, others⟩
    rcases Reader.bind_eq_ok others with ⟨right, last, secondRead, done⟩
    cases done
    have firstSize := firstLawful.size_read _ _ _ firstRead
    have secondSize := secondLawful.size_read _ _ _ secondRead
    simp only [pair]
    omega

theorem lawful_as {codec : Codec α} (lawful : codec.Lawful) {build : α → β} {parts : β → α}
    (inverse : ∀ value, build (parts value) = value)
    (faithful : ∀ fields, parts (build fields) = fields) : (codec.as build parts).Lawful where
  positive value := lawful.positive (parts value)
  length_encode value := lawful.length_encode (parts value)
  read_encode := by
    intro value rest fits
    have read := lawful.read_encode (parts value) rest fits
    simp only [Codec.as, Reader.bind_ok read, inverse]
    rfl
  size_read := by
    intro input value rest done
    rcases Reader.bind_eq_ok done with ⟨fields, left, first, last⟩
    cases last
    simp only [Codec.as, faithful]
    exact lawful.size_read _ _ _ first

theorem lawful_choice [DecidableEq α] (field : String) {choices : List α}
    (complete : ∀ value, value ∈ choices) (few : choices.length ≤ 256) :
    (choice field choices).Lawful where
  positive _ := by simp [choice]
  length_encode _ := rfl
  read_encode := by
    intro value rest _
    have position := List.idxOf_lt_length_of_mem (complete value)
    have byte := read_word8 (UInt8.ofNat (choices.idxOf value)) rest
    have back : (UInt8.ofNat (choices.idxOf value)).toNat = choices.idxOf value := by
      rw [UInt8.toNat_ofNat', Nat.mod_eq_of_lt (by omega)]
    have there : choices[choices.idxOf value]? = some value := by
      rw [List.getElem?_eq_getElem position, List.getElem_idxOf position]
    simp only [choice, List.cons_append, List.nil_append, Reader.bind_ok byte, back, there]
    rfl
  size_read := by
    intro input value rest done
    rcases Reader.bind_eq_ok done with ⟨byte, left, first, last⟩
    rcases Reader.bind_eq_ok first with ⟨number, same, read, made⟩
    cases made
    cases there : choices[(UInt8.ofNat number).toNat]? with
    | none =>
        simp only [there] at last
        cases last
    | some choice =>
        simp only [there] at last
        cases last
        exact Nat.le_of_eq (Reader.number_eq_ok read)

/-- A codec made of words, blobs, texts and choices by forming arrays and records. The values of a
choice are different ones, and a record is no more than its fields. -/
inductive Built : {α : Type} → Codec α → Prop where
  | word8 : Built word8
  | word32 : Built word32
  | word64 : Built word64
  | blob : Built blob
  | text : Built text
  | choice {α : Type} [DecidableEq α] (field : String) {choices : List α}
      (distinct : choices.Nodup) (complete : ∀ value, value ∈ choices)
      (few : choices.length ≤ 256) : Built (choice field choices)
  | array {α : Type} {item : Codec α} (built : Built item) : Built (array item)
  | pair {α β : Type} {first : Codec α} {second : Codec β} (firstBuilt : Built first)
      (secondBuilt : Built second) : Built (pair first second)
  | as {α β : Type} {codec : Codec α} {build : α → β} {parts : β → α} (built : Built codec)
      (inverse : ∀ value, build (parts value) = value)
      (faithful : ∀ fields, parts (build fields) = fields) : Built (codec.as build parts)

theorem Built.lawful {codec : Codec α} (built : codec.Built) : codec.Lawful := by
  induction built with
  | word8 => exact lawful_word8
  | word32 => exact lawful_word32
  | word64 => exact lawful_word64
  | blob => exact lawful_blob
  | text => exact lawful_text
  | choice field _ complete few => exact lawful_choice field complete few
  | array _ ih => exact lawful_array ih
  | pair _ _ firstIh secondIh => exact lawful_pair firstIh secondIh
  | as _ inverse faithful ih => exact lawful_as ih inverse faithful

end Codec

theorem PropertyKind.built_codec : PropertyKind.codec.Built :=
  .choice _ (by decide) (fun kind => by cases kind <;> decide) (by decide)

theorem CreateCode.built_codec : CreateCode.codec.Built :=
  .choice _ (by decide) (fun code => by cases code <;> decide) (by decide)

theorem DeleteCode.built_codec : DeleteCode.codec.Built :=
  .choice _ (by decide) (fun code => by cases code <;> decide) (by decide)

theorem SubscribeCode.built_codec : SubscribeCode.codec.Built :=
  .choice _ (by decide) (fun code => by cases code <;> decide) (by decide)

theorem UnsubscribeCode.built_codec : UnsubscribeCode.codec.Built :=
  .choice _ (by decide) (fun code => by cases code <;> decide) (by decide)

theorem FeatureFlags.built_codec : FeatureFlags.codec.Built :=
  .as .word64 (fun _ => rfl) fun _ => rfl

theorem PropertyInfo.built_codec : PropertyInfo.codec.Built :=
  .as (.pair .word32 (.pair PropertyKind.built_codec .text)) (fun _ => rfl) fun _ => rfl

theorem ValueUpdate.built_codec : ValueUpdate.codec.Built :=
  .as (.pair .word32 .blob) (fun _ => rfl) fun _ => rfl

namespace MessageKind

theorem built_layout (kind : MessageKind) : kind.layout.Built := by
  cases kind with
  | signinRequest => exact .pair .word32 (.pair .word32 FeatureFlags.built_codec)
  | signinResponse => exact .word32
  | createRequest => exact .pair PropertyKind.built_codec (.pair .blob .text)
  | createResponse => exact .pair CreateCode.built_codec .word32
  | metaUpdateNotification => exact .pair (.array PropertyInfo.built_codec) (.array .word32)
  | deleteRequest => exact .text
  | deleteResponse => exact DeleteCode.built_codec
  | setValueIndication => exact ValueUpdate.built_codec
  | subscribeRequest => exact .word32
  | subscribeResponse => exact SubscribeCode.built_codec
  | propertyUpdateNotification => exact .array ValueUpdate.built_codec
  | unsubscribeRequest => exact .word32
  | unsubscribeResponse => exact UnsubscribeCode.built_codec
  | getValueRequest => exact .word32
  | getValueResponse => exact .blob
  | rpcRequest => exact .pair .word32 .blob
  | rpcResponse => exact .blob
  | handleRpcRequest => exact .pair .word64 (.pair .word32 (.pair .word32 .blob))
  | handleRpcResponse => exact .pair .word64 (.pair .word32 .blob)
  | getSpecificMetaRequest => exact .text
  | getSpecificMetaResponse => exact PropertyInfo.built_codec

/-- The fields of every kind of message can be read back. -/
theorem lawful_layout (kind : MessageKind) : kind.layout.Lawful := kind.built_layout.lawful

end MessageKind

namespace Message

theorem decode_encode {message : Message} (fits : message.size < UInt32.size) :
    decode message.kind message.encode = .ok message := by
  have read := message.kind.lawful_layout.read_encode message.fields [] fits
  rw [List.append_nil] at read
  rw [decode, Reader.value, reader, encode, Reader.bind_ok read, ofFields_fields]
  rfl

theorem length_encode (message : Message) : message.encode.length = message.size :=
  message.kind.lawful_layout.length_encode message.fields

theorem size_rpcResponse (returnValue : Bytes) :
    (rpcResponse returnValue).size = 4 + returnValue.length := rfl

theorem size_handleRpcResponse (caller : SessionId) (transaction : TransactionId)
    (returnValue : Bytes) :
    (handleRpcResponse caller transaction returnValue).size =
      8 + (4 + (4 + returnValue.length)) := rfl

@[simp] theorem size_ofFields (kind : MessageKind) (fields : kind.Fields) :
    (ofFields kind fields).size = kind.layout.size fields := by
  cases kind <;> rfl

/-- A message that is read from a body is no longer than the body. -/
theorem size_le_of_decode {kind : MessageKind} {body : Bytes} {message : Message}
    (done : decode kind body = .ok message) : message.size ≤ body.length := by
  unfold decode Reader.value at done
  split at done
  · next same rest read =>
    cases done
    rcases Reader.bind_eq_ok read with ⟨fields, left, first, last⟩
    cases last
    have size := kind.lawful_layout.size_read _ _ _ first
    rw [size_ofFields]
    omega
  · cases done

end Message

namespace Frame

variable {message : Message} {transaction : TransactionId} {frame : Frame}

theorem ofMessage_eq_ok_iff :
    ofMessage message transaction = .ok frame ↔ message.size + Header.length < UInt32.size ∧
      frame = { header := { tag := message.kind.tag,
                            size := UInt32.ofNat (message.size + Header.length), transaction },
                body := message.encode } := by
  unfold ofMessage Header.forBody
  split
  · next fits =>
    simp only [bind, Except.bind, pure, Except.pure, Except.ok.injEq, fits, true_and]
    exact eq_comm
  · next tooLong =>
    constructor
    · intro impossible
      cases impossible
    · intro made
      exact absurd made.1 tooLong

theorem exists_ofMessage (fits : message.size + Header.length < UInt32.size)
    (transaction : TransactionId) : ∃ frame, ofMessage message transaction = .ok frame :=
  ⟨_, ofMessage_eq_ok_iff.mpr ⟨fits, rfl⟩⟩

theorem ofMessage_of_toOption (made : (ofMessage message transaction).toOption = some frame) :
    ofMessage message transaction = .ok frame := by
  cases outcome : ofMessage message transaction with
  | error error =>
      rw [outcome] at made
      cases made
  | ok same =>
      rw [outcome] at made
      cases made
      rfl

theorem transaction_ofMessage (made : ofMessage message transaction = .ok frame) :
    frame.transaction = transaction := by
  rw [(ofMessage_eq_ok_iff.mp made).2]
  rfl

theorem kind_ofMessage (made : ofMessage message transaction = .ok frame) :
    frame.header.kind = .ok message.kind := by
  rw [(ofMessage_eq_ok_iff.mp made).2]
  exact MessageKind.ofTag_tag _

theorem length_body_ofMessage (made : ofMessage message transaction = .ok frame) :
    frame.body.length = message.size := by
  rw [(ofMessage_eq_ok_iff.mp made).2]
  exact message.length_encode

/-- A frame made of a message carries that message. -/
theorem message_ofMessage (made : ofMessage message transaction = .ok frame) :
    frame.message = .ok message := by
  rcases ofMessage_eq_ok_iff.mp made with ⟨fits, rfl⟩
  simp only [Frame.message, Header.kind, MessageKind.ofTag_tag, bind, Except.bind]
  exact Message.decode_encode (by omega)

theorem size_le_of_message (carried : frame.message = .ok message) :
    message.size ≤ frame.body.length := by
  unfold Frame.message at carried
  cases known : frame.header.kind with
  | error error =>
      rw [known] at carried
      cases carried
  | ok kind =>
      rw [known] at carried
      exact Message.size_le_of_decode carried

theorem kind_of_message (carried : frame.message = .ok message) :
    frame.header.kind = .ok message.kind := by
  unfold Frame.message at carried
  cases known : frame.header.kind with
  | error error =>
      rw [known] at carried
      cases carried
  | ok kind =>
      rw [known] at carried
      simp only [bind, Except.bind, Message.decode, Reader.value, Message.reader,
        EStateM.bind] at carried
      cases read : kind.layout.read frame.body with
      | error error rest =>
          rw [read] at carried
          cases carried
      | ok fields rest =>
          rw [read] at carried
          cases carried
          rw [Message.kind_ofFields]

end Frame

end SharedTree
