import WebSocket.Frame.Reader
import WebSocket.Proofs.BigEndian

/-!
# Frames that a server sends

Each message that this side sends is one final frame without a mask, and frames come one after
another with nothing between them (`Frame.encodeAll`). A reader that knows the three forms of a
length takes each of them back whole and leaves what stands behind it (`Frame.read?_encode`), and
so it recovers everything that was sent (`Frame.readAll_encodeAll`).
-/

namespace WebSocket.Frame

/-- The frames of messages, one after another. -/
def encodeAll (messages : List (MessageKind × Bytes)) : Bytes :=
  messages.flatMap fun message => encode message.1 message.2

/-- What a header says of its frame. -/
structure Heading where
  fin : Bool
  opcode : Nat
  length : Nat
  deriving DecidableEq, Repr

/-- The header at the front, if all of it is there, and what follows it. -/
def readHeader? : Bytes → Option (Heading × Bytes)
  | [] => none
  | first :: rest =>
    match readLength? rest with
    | none => none
    | some (length, rest) => some (⟨first &&& 0x80 ≠ 0, (first &&& 0x0F).toNat, length⟩, rest)

/-- The whole frames at the front, and what follows them. -/
def readAll (bytes : Bytes) : List Unmasked × Bytes :=
  match _h : read? bytes with
  | none => ([], bytes)
  | some (frame, rest) =>
    let (frames, rest) := readAll rest
    (frame :: frames, rest)
termination_by bytes.length
decreasing_by exact length_read?_lt _h

/-- A message as a reader finds it: one final frame. -/
def whole (message : MessageKind × Bytes) : Unmasked := ⟨true, message.1.opcode.code, message.2⟩

/-- The message that a final data frame holds. -/
def Unmasked.message? (frame : Unmasked) : Option (MessageKind × Bytes) :=
  if frame.fin ∧ frame.opcode = Opcode.text.code then some (.text, frame.payload)
  else if frame.fin ∧ frame.opcode = Opcode.binary.code then some (.binary, frame.payload)
  else none

variable {length : Nat}

/-- A length behind the byte that announces it is read back. -/
theorem readLength?_escape {byte : UInt8} (announces : byte = 126 ∨ byte = 127)
    (room : length < 256 ^ lengthWidth byte) (rest : Bytes) :
    readLength? (byte :: (BigEndian.encode (lengthWidth byte) length ++ rest)) =
      some (length, rest) := by
  have width := BigEndian.length_encode (lengthWidth byte) length
  have digits : splitExact? (lengthWidth byte)
      (BigEndian.encode (lengthWidth byte) length ++ rest) =
        some (BigEndian.encode (lengthWidth byte) length, rest) := by
    simpa only [width] using splitExact?_append (BigEndian.encode (lengthWidth byte) length) rest
  have several : ¬ byte < 126 ∧ ¬ byte > 127 := by
    rcases announces with rfl | rfl <;> decide
  simp only [readLength?, if_neg several.1, if_neg several.2, digits, BigEndian.decode_encode,
    Nat.mod_eq_of_lt room]

/-- Each of the three forms of a length is read back. -/
theorem readLength?_lengthBytes (word : length < 2 ^ 64) (rest : Bytes) :
    readLength? (lengthBytes 0 length ++ rest) = some (length, rest) := by
  unfold lengthBytes
  split
  · next inline =>
    have value : (UInt8.ofNat length).toNat = length :=
      UInt8.toNat_ofNat_of_lt' (Nat.lt_trans inline (by decide))
    have short : (0 ||| UInt8.ofNat length) < 126 := by
      rw [UInt8.zero_or, UInt8.lt_iff_toNat_lt, value]
      exact inline
    rw [List.singleton_append, readLength?, if_pos short, UInt8.zero_or, value]
  · split
    · next short => exact readLength?_escape (.inl rfl) short rest
    · exact readLength?_escape (.inr rfl) word rest

/-- A frame is read as its header and as many bytes as that announces. -/
theorem read?_eq (bytes : Bytes) :
    read? bytes = (readHeader? bytes).bind fun (heading, rest) =>
      (splitExact? heading.length rest).map fun (payload, rest) =>
        (⟨heading.fin, heading.opcode, payload⟩, rest) := by
  cases bytes with
  | nil => rfl
  | cons first rest =>
    simp only [read?, readHeader?]
    cases readLength? rest with
    | none => rfl
    | some found =>
      obtain ⟨length, rest⟩ := found
      simp only [Option.bind_some]
      cases splitExact? length rest <;> rfl

/-- A header that this side writes is read back. -/
theorem readHeader?_header (opcode : Opcode) (word : length < 2 ^ 64) (rest : Bytes) :
    readHeader? (header opcode length ++ rest) = some (⟨true, opcode.code, length⟩, rest) := by
  have bits : ∀ opcode : Opcode,
      decide ((0x80 ||| UInt8.ofNat opcode.code) &&& 0x80 ≠ 0) = true ∧
        ((0x80 ||| UInt8.ofNat opcode.code) &&& 0x0F).toNat = opcode.code := by
    intro opcode
    cases opcode <;> decide
  simp only [header, List.cons_append, readHeader?, readLength?_lengthBytes word,
    (bits opcode).1, (bits opcode).2]

/-- **A frame that this side sends is read back.** -/
theorem read?_encode (kind : MessageKind) {payload : Bytes} (word : payload.length < 2 ^ 64)
    (rest : Bytes) : read? (encode kind payload ++ rest) = some (whole (kind, payload), rest) := by
  rw [read?_eq, encode, List.append_assoc, readHeader?_header kind.opcode word]
  simp only [Option.bind_some, splitExact?_append, Option.map_some, whole]

theorem readAll_of_read? {bytes rest : Bytes} {frame : Unmasked}
    (found : read? bytes = some (frame, rest)) :
    readAll bytes = (frame :: (readAll rest).1, (readAll rest).2) := by
  rw [readAll]
  split
  · next missing =>
    rw [found] at missing
    cases missing
  · next same =>
    rw [found] at same
    cases same
    rfl

/-- What was sent is recovered, and nothing is left. -/
theorem readAll_encodeAll {messages : List (MessageKind × Bytes)}
    (words : ∀ message ∈ messages, message.2.length < 2 ^ 64) :
    readAll (encodeAll messages) = (messages.map whole, []) := by
  induction messages with
  | nil =>
    rw [readAll]
    rfl
  | cons message messages ih =>
    obtain ⟨word, words⟩ := List.forall_mem_cons.mp words
    have first : read? (encodeAll (message :: messages)) =
        some (whole message, encodeAll messages) := read?_encode message.1 word _
    rw [readAll_of_read? first, ih words, List.map_cons]

/-- Of a message only data comes back as a message. -/
theorem message?_whole (message : MessageKind × Bytes) :
    (whole message).message? = if message.1.isControl then none else some message := by
  obtain ⟨kind, payload⟩ := message
  cases kind <;> rfl

end WebSocket.Frame
