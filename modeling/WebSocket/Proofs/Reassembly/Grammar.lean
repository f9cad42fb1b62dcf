import Mathlib.Algebra.Order.Ring.Int
import WebSocket.Frame.Header
import WebSocket.Frame.Reassembler

/-!
# The grammar of client frames

A decoder that has all bytes at hand and takes one whole frame at a time from the front. It keeps
nothing between two frames but the message that is not finished. Each reader looks at bytes in
the order in which they come, so that a fault counts as soon as the byte is there that shows it,
whatever is missing behind it; and where nothing is wrong so far but bytes are missing, the
frame is incomplete.

Bits are taken from a byte by division, lengths from their digits and the payload byte by byte:
nothing here is shared with the machine that reads blocks.
-/

namespace WebSocket.Grammar

/-- What stands at the front of a byte string. -/
inductive Reading (α : Type) where
  /-- Nothing is wrong, but bytes are missing. -/
  | incomplete
  | wrong (error : Error)
  | whole (value : α) (rest : Bytes)
  deriving DecidableEq, Repr

/-- Goes on with what follows. -/
def Reading.andThen {α β : Type} (reading : Reading α) (next : α → Bytes → Reading β) :
    Reading β :=
  match reading with
  | .incomplete => .incomplete
  | .wrong error => .wrong error
  | .whole value rest => next value rest

/-- A data message whose final fragment has not come. -/
structure Unfinished where
  kind : MessageKind
  payload : Bytes
  deriving DecidableEq, Repr

/-- The opcode with this number. -/
def opcode? (number : Nat) : Option Opcode :=
  [Opcode.continuation, .text, .binary, .close, .ping, .pong].find? (·.code = number)

/-- Why a frame may not come while a message is unfinished, or while none is. -/
def misplaced? (assembling fin : Bool) : Opcode → Option Error
  | .close | .ping | .pong => if fin then none else some .fragmentedControlFrame
  | .continuation => if assembling then none else some (.protocolViolation .strayContinuation)
  | .text | .binary => if assembling then some (.protocolViolation .interruptedMessage) else none

/-- The first byte: final bit, three reserved bits and opcode. -/
def readOpening (assembling : Bool) : Bytes → Reading (Bool × Opcode)
  | [] => .incomplete
  | byte :: rest =>
    let fin : Bool := 128 ≤ byte.toNat
    if byte.toNat / 16 % 8 ≠ 0 then .wrong .reservedBitsSet
    else
      match opcode? (byte.toNat % 16) with
      | none => .wrong (.reservedOpcode (byte.toNat % 16))
      | some opcode =>
        match misplaced? assembling fin opcode with
        | some error => .wrong error
        | none => .whole (fin, opcode) rest

/-- How many bytes of length follow a length of seven bits. -/
def lengthWidth (low : Nat) : Nat := if low = 126 then 2 else if low = 127 then 8 else 0

/-- The length that `low` gives or announces. A longer spelling than it needs is accepted. -/
def readNumber (low : Nat) (bytes : Bytes) : Reading Nat :=
  let width := lengthWidth low
  if bytes.length < width then .incomplete
  else
    .whole (if width = 0 then low else BigEndian.decode (bytes.take width)) (bytes.drop width)

/-- The mask bit, which has to be set, and the length. -/
def readLength : Bytes → Reading Nat
  | [] => .incomplete
  | byte :: rest =>
    if byte.toNat < 128 then .wrong .unmaskedClientFrame
    else readNumber (byte.toNat - 128) rest

/-- Why a frame of this length is refused; `held` bytes of its message are there already. -/
def oversize? (limits : Limits) (held : Nat) (opcode : Opcode) (length : Nat) : Option Error :=
  if length > 2 ^ 63 - 1 then some (.protocolViolation (.negativeLength (length - 2 ^ 64)))
  else if length > limits.maxPayload then some (.frameTooLarge length limits.maxPayload)
  else if opcode.isControl then
    if length > 125 then some (.controlFrameTooLarge length)
    else if length > limits.maxMessage then some (.messageTooLarge length limits.maxMessage)
    else none
  else if held + length > limits.maxMessage then
    some (.messageTooLarge (held + length) limits.maxMessage)
  else none

def allow (limits : Limits) (held : Nat) (opcode : Opcode) (length : Nat) (rest : Bytes) :
    Reading Nat :=
  match oversize? limits held opcode length with
  | some error => .wrong error
  | none => .whole length rest

def readSize (limits : Limits) (held : Nat) (opcode : Opcode) (bytes : Bytes) : Reading Nat :=
  (readLength bytes).andThen (allow limits held opcode)

def readKey : Bytes → Reading Mask
  | first :: second :: third :: fourth :: rest => .whole ⟨first, second, third, fourth⟩ rest
  | _ => .incomplete

def readPayload (mask : Mask) (length : Nat) (bytes : Bytes) : Reading Bytes :=
  if bytes.length < length then .incomplete
  else
    .whole ((bytes.take length).mapIdx fun place byte => byte ^^^ mask.byteAt place)
      (bytes.drop length)

/-- The message that a frame of this opcode belongs to or leaves alone. -/
def begin (unfinished : Option Unfinished) : Opcode → Option Unfinished
  | .text => some ⟨.text, []⟩
  | .binary => some ⟨.binary, []⟩
  | .continuation | .close | .ping | .pong => unfinished

/-- How many bytes of the unfinished message are there. -/
def held (unfinished : Option Unfinished) : Nat := (unfinished.elim [] (·.payload)).length

/-- One whole frame. -/
def readFrame (limits : Limits) (unfinished : Option Unfinished) (bytes : Bytes) :
    Reading Frame.Client :=
  (readOpening unfinished.isSome bytes).andThen fun (fin, opcode) rest =>
  (readSize limits (held (begin unfinished opcode)) opcode rest).andThen fun length rest =>
  (readKey rest).andThen fun mask rest =>
  (readPayload mask length rest).andThen fun payload rest =>
    .whole { fin, opcode, payload, mask } rest

/-- What a frame reports, and the message that is unfinished behind it. -/
def absorb (unfinished : Option Unfinished) (frame : Frame.Client) :
    Option Event × Option Unfinished :=
  match frame.opcode with
  | .close => (some (.close frame.payload), unfinished)
  | .ping => (some (.ping frame.payload), unfinished)
  | .pong => (none, unfinished)
  | .text | .binary | .continuation =>
    match begin unfinished frame.opcode with
    | none => (none, none)
    | some message =>
      let payload := message.payload ++ frame.payload
      if frame.fin then (some (.message message.kind payload), none)
      else (none, some { message with payload })

theorem andThen_eq_whole {α β : Type} {reading : Reading α} {next : α → Bytes → Reading β}
    {value : β} {rest : Bytes} (h : reading.andThen next = .whole value rest) :
    ∃ first between, reading = .whole first between ∧ next first between = .whole value rest := by
  cases reading with
  | incomplete => cases h
  | wrong => cases h
  | whole first between => exact ⟨first, between, rfl, h⟩

theorem length_lt_of_readOpening {assembling : Bool} {bytes rest : Bytes} {opening : Bool × Opcode}
    (h : readOpening assembling bytes = .whole opening rest) : rest.length < bytes.length := by
  cases bytes with
  | nil => cases h
  | cons byte tail =>
    simp only [readOpening] at h
    split at h
    · cases h
    · split at h
      · cases h
      · split at h
        · cases h
        · cases h
          exact Nat.lt_succ_self _

theorem length_le_of_readLength {length : Nat} {bytes rest : Bytes}
    (h : readLength bytes = .whole length rest) : rest.length ≤ bytes.length := by
  cases bytes with
  | nil => cases h
  | cons byte tail =>
    simp only [readLength, readNumber] at h
    split at h
    · cases h
    · split at h
      · cases h
      · obtain ⟨-, rfl⟩ := Reading.whole.inj h
        simp only [List.length_drop, List.length_cons]
        omega

theorem length_le_of_readSize {limits : Limits} {held length : Nat} {opcode : Opcode}
    {bytes rest : Bytes} (h : readSize limits held opcode bytes = .whole length rest) :
    rest.length ≤ bytes.length := by
  obtain ⟨length, between, read, admitted⟩ := andThen_eq_whole h
  unfold allow at admitted
  split at admitted
  · cases admitted
  · obtain ⟨-, rfl⟩ := Reading.whole.inj admitted
    exact length_le_of_readLength read

theorem length_le_of_readKey {bytes rest : Bytes} {mask : Mask}
    (h : readKey bytes = .whole mask rest) : rest.length ≤ bytes.length := by
  unfold readKey at h
  split at h
  · cases h
    simp only [List.length_cons]
    omega
  · cases h

theorem length_le_of_readPayload {mask : Mask} {length : Nat} {bytes payload rest : Bytes}
    (h : readPayload mask length bytes = .whole payload rest) : rest.length ≤ bytes.length := by
  unfold readPayload at h
  split at h
  · cases h
  · cases h
    simp

/-- A frame takes at least one byte. -/
theorem length_lt_of_readFrame {limits : Limits} {unfinished : Option Unfinished}
    {bytes rest : Bytes} {frame : Frame.Client}
    (h : readFrame limits unfinished bytes = .whole frame rest) :
    rest.length < bytes.length := by
  obtain ⟨⟨fin, opcode⟩, afterOpening, opening, h⟩ := andThen_eq_whole h
  obtain ⟨length, afterSize, size, h⟩ := andThen_eq_whole h
  obtain ⟨mask, afterKey, key, h⟩ := andThen_eq_whole h
  obtain ⟨payload, afterPayload, payloadRead, h⟩ := andThen_eq_whole h
  cases h
  calc rest.length
    _ ≤ afterKey.length := length_le_of_readPayload payloadRead
    _ ≤ afterSize.length := length_le_of_readKey key
    _ ≤ afterOpening.length := length_le_of_readSize size
    _ < bytes.length := length_lt_of_readOpening opening

/-- What a byte string comes to: the events that it reports and its first fault. -/
structure Decoding where
  events : List Event
  fault : Option Error
  deriving DecidableEq, Repr

/-- The event of a frame comes before those of the frames behind it. -/
def Decoding.behind (event : Option Event) (decoding : Decoding) : Decoding :=
  { decoding with events := event.toList ++ decoding.events }

/-- Takes frame after frame, up to a close frame, a fault or an incomplete frame. -/
def decode (limits : Limits) (unfinished : Option Unfinished) (bytes : Bytes) : Decoding :=
  match _h : readFrame limits unfinished bytes with
  | .incomplete => ⟨[], none⟩
  | .wrong error => ⟨[], some error⟩
  | .whole frame rest =>
    let (event, unfinished) := absorb unfinished frame
    if frame.opcode = .close then ⟨event.toList, none⟩
    else (decode limits unfinished rest).behind event
termination_by bytes.length
decreasing_by exact length_lt_of_readFrame _h

end WebSocket.Grammar
