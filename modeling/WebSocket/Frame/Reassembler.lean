import WebSocket.Frame.Mask
import WebSocket.Frame.Opcode
import WebSocket.Settings

/-!
# Reassembling messages

`Reassembler` reads the frames of a client from blocks of bytes that may begin and end anywhere.
A frame is read in stages. Each stage takes from a block what it needs and keeps what it has so
far in the machine, so that it can go on with the next block; `feed` passes from stage to stage
until the block is used up. A frame that breaks the protocol is rejected at the first byte that
shows it. From then on, and after a close frame, the machine ignores what it is given.

Data frames are collected in one buffer until the final fragment is complete. Control frames
have a second buffer, so that a ping between two fragments leaves the message as it is.
-/

namespace WebSocket

/-- Something the connection has to act on. -/
inductive Event where
  /-- A whole message; its kind is that of the first fragment. -/
  | message (kind : MessageKind) (payload : Bytes)
  | ping (payload : Bytes)
  | close (payload : Bytes)
  deriving DecidableEq, Repr

/-- What is read next of a frame. -/
inductive Stage where
  | start
  | length
  | extendedLength
  | key
  /-- Extension data, of which there is none. -/
  | extension
  | payload
  /-- Nothing is read any more. -/
  | closing
  deriving DecidableEq, Repr

/-- Collects the payloads of frames. -/
structure Accumulator where
  buffer : Array UInt8 := #[]
  /-- The opcode of the first fragment while a message is in progress. -/
  opcode : Option Opcode := none
  deriving DecidableEq, Repr

def Accumulator.append (accumulator : Accumulator) (bytes : Bytes) : Accumulator :=
  { accumulator with buffer := accumulator.buffer ++ bytes }

/-- Bounds the stages that can be over one after another without taking a byte. -/
def Stage.slack : Stage → Nat
  | extendedLength => 4
  | key => 3
  | extension => 2
  | payload => 1
  | start | length | closing => 0

/-- A machine between two blocks. What concerns a frame keeps its last value when the frame is
over. -/
structure Reassembler where
  stage : Stage := .start
  fin : Bool := false
  opcode : Opcode := .continuation
  /-- The payload length, as far as it is read. -/
  payloadLength : UInt64 := 0
  /-- How many bytes of an extended length are missing. -/
  lengthMissing : Nat := 0
  /-- How many bytes of the payload are missing. -/
  remaining : Nat := 0
  mask : Mask := .zero
  /-- How many bytes of the key are read. -/
  keyRead : Nat := 0
  /-- Whether the key changes the payload. -/
  masked : Bool := false
  /-- How many bytes of the payload are read. -/
  offset : Nat := 0
  control : Accumulator := {}
  message : Accumulator := {}
  deriving DecidableEq, Repr

/-- What a stage makes of the bytes at hand. -/
inductive Progress where
  /-- The stage needs more bytes than there are. -/
  | pause (machine : Reassembler)
  /-- The stage is over and leaves the rest of the bytes to the next one. -/
  | advance (machine : Reassembler) (rest : Bytes) (event : Option Event)
  | reject (machine : Reassembler) (error : Error)
  deriving DecidableEq, Repr

namespace Reassembler

def isClosed (machine : Reassembler) : Bool := machine.stage = .closing

/-- Whether a data message has begun and is not complete. -/
def isAssembling (machine : Reassembler) : Bool := machine.message.opcode.isSome

/-- How many bytes are held for the data message in progress. -/
def buffered (machine : Reassembler) : Nat := machine.message.buffer.size

/-- Forgets what has been collected. A frame in progress is still read to its end. -/
def release (machine : Reassembler) : Reassembler :=
  { machine with control := {}, message := {} }

/-- Closes the machine and forgets what has been collected. -/
def abort (machine : Reassembler) : Reassembler := { machine.release with stage := .closing }

/-- Begins a frame, if one of this opcode may come now. -/
def beginFrame (machine : Reassembler) (fin : Bool) (opcode : Opcode) :
    Except Error Reassembler :=
  let begun := { machine with fin, opcode }
  if opcode.isControl then
    if fin then .ok begun else .error .fragmentedControlFrame
  else if opcode = .continuation then
    if machine.isAssembling then .ok begun else .error (.protocolViolation .strayContinuation)
  else if machine.isAssembling then .error (.protocolViolation .interruptedMessage)
  else .ok { begun with message := { machine.message with opcode := some opcode } }

/-- The first byte of a frame. -/
def openFrame (machine : Reassembler) (byte : UInt8) : Except Error Reassembler :=
  if byte &&& 0x70 ≠ 0 then .error .reservedBitsSet
  else
    match Opcode.ofCode (byte &&& 0x0F).toNat with
    | .error error => .error error
    | .ok opcode => machine.beginFrame (byte &&& 0x80 ≠ 0) opcode

def readStart (machine : Reassembler) : Bytes → Progress
  | [] => .pause machine
  | byte :: rest =>
    match machine.openFrame byte with
    | .error error => .reject machine error
    | .ok machine => .advance { machine with stage := .length } rest none

/-- A length of seven bits is the length itself or announces one of two or eight bytes: the value
to begin with, and how many bytes are missing. -/
def announced (low : UInt8) : UInt64 × Nat :=
  if low = 126 then (0, 2) else if low = 127 then (0, 8) else (low.toUInt64, 0)

def readLength (machine : Reassembler) : Bytes → Progress
  | [] => .pause machine
  | byte :: rest =>
    if byte &&& 0x80 = 0 then .reject machine .unmaskedClientFrame
    else
      let (payloadLength, lengthMissing) := announced (byte &&& 0x7F)
      .advance { machine with stage := .extendedLength, payloadLength, lengthMissing } rest none

/-- Takes bytes one by one as long as the machine wants more, and goes on with what is left. -/
def readWhile (wants : Reassembler → Bool) (take : Reassembler → UInt8 → Reassembler)
    (goOn : Reassembler → Bytes → Progress) (machine : Reassembler) : Bytes → Progress
  | [] => if wants machine then .pause machine else goOn machine []
  | byte :: rest =>
    if wants machine then readWhile wants take goOn (take machine byte) rest
    else goOn machine (byte :: rest)

def wantsLength (machine : Reassembler) : Bool := 0 < machine.lengthMissing

def takeLength (machine : Reassembler) (byte : UInt8) : Reassembler :=
  { machine with
    payloadLength := machine.payloadLength <<< 8 ||| byte.toUInt64
    lengthMissing := machine.lengthMissing - 1 }

/-- Whether a frame of the length that was read may go on. -/
def checkLength (limits : Limits) (machine : Reassembler) : Except Error Unit :=
  let length := machine.payloadLength.toNat
  if machine.payloadLength > Int64.maxValue.toUInt64 then
    .error (.protocolViolation (.negativeLength machine.payloadLength.toInt64.toInt))
  else
    match limits.checkPayload length with
    | .error error => .error error
    | .ok () =>
      if !machine.opcode.isControl then limits.checkMessage (machine.buffered + length)
      else if length > Error.maxControlPayload then .error (.controlFrameTooLarge length)
      else limits.checkMessage length

/-- Nothing of the payload is taken before its length is checked. -/
def endLength (limits : Limits) (machine : Reassembler) (rest : Bytes) : Progress :=
  match machine.checkLength limits with
  | .error error => .reject machine error
  | .ok () =>
    .advance { machine with stage := .key, remaining := machine.payloadLength.toNat, keyRead := 0 }
      rest none

def readExtendedLength (limits : Limits) : Reassembler → Bytes → Progress :=
  readWhile wantsLength takeLength (endLength limits)

def wantsKey (machine : Reassembler) : Bool := machine.keyRead < 4

def takeKey (machine : Reassembler) (byte : UInt8) : Reassembler :=
  { machine with mask := machine.mask.set machine.keyRead byte, keyRead := machine.keyRead + 1 }

def endKey (machine : Reassembler) (rest : Bytes) : Progress :=
  .advance
    { machine with stage := .extension, keyRead := 0, offset := 0, masked := machine.mask ≠ .zero }
    rest none

def readKey : Reassembler → Bytes → Progress := readWhile wantsKey takeKey endKey

/-- Adds bytes to the buffer of the frame's class. -/
def append (machine : Reassembler) (bytes : Bytes) : Reassembler :=
  { machine with
    control := if machine.opcode.isControl then machine.control.append bytes else machine.control
    message := if machine.opcode.isControl then machine.message else machine.message.append bytes }

/-- Payload bytes as they were before masking. -/
def unmask (machine : Reassembler) (bytes : Bytes) : Bytes :=
  if machine.masked then machine.mask.applyAt machine.offset bytes else bytes

/-- Takes the next bytes of the payload. -/
def collect (machine : Reassembler) (bytes : Bytes) : Reassembler :=
  { machine.append (machine.unmask bytes) with
    offset := machine.offset + bytes.length, remaining := machine.remaining - bytes.length }

/-- Ends a frame: hands over what is complete and clears its buffer. -/
def complete (machine : Reassembler) : Reassembler × Option Event :=
  match machine.opcode with
  | .close =>
    ({ machine with stage := .closing, control := {} },
      some (.close machine.control.buffer.toList))
  | .ping =>
    ({ machine with stage := .start, control := {} },
      some (.ping machine.control.buffer.toList))
  | .pong =>
    ({ machine with stage := .start, control := { machine.control with buffer := #[] } }, none)
  | .text | .binary | .continuation =>
    if machine.fin then
      ({ machine with stage := .start, message := {} },
        some (.message ((machine.message.opcode.bind Opcode.kind?).getD .text)
          machine.message.buffer.toList))
    else ({ machine with stage := .start }, none)

def readPayload (machine : Reassembler) (bytes : Bytes) : Progress :=
  let taken := machine.collect (bytes.take machine.remaining)
  if 0 < taken.remaining then .pause taken
  else
    let (ended, event) := taken.complete
    .advance ended (bytes.drop machine.remaining) event

/-- What the current stage makes of the bytes. -/
def proceed (limits : Limits) (machine : Reassembler) (bytes : Bytes) : Progress :=
  match machine.stage with
  | .start => machine.readStart bytes
  | .length => machine.readLength bytes
  | .extendedLength => machine.readExtendedLength limits bytes
  | .key => machine.readKey bytes
  | .extension => .advance { machine with stage := .payload } bytes none
  | .payload => machine.readPayload bytes
  | .closing => .pause machine

/-- Falls with every stage that is over. -/
def workLeft (machine : Reassembler) (bytes : Bytes) : Nat :=
  5 * bytes.length + machine.stage.slack

section Advance

variable {limits : Limits} {machine next : Reassembler} {bytes rest : Bytes}
  {event : Option Event}

theorem advance_of_readStart (h : machine.readStart bytes = .advance next rest event) :
    next.stage = .length ∧ rest.length < bytes.length := by
  cases bytes with
  | nil => cases h
  | cons byte tail =>
    simp only [readStart] at h
    split at h
    · cases h
    · cases h
      exact ⟨rfl, Nat.lt_succ_self _⟩

theorem advance_of_readLength (h : machine.readLength bytes = .advance next rest event) :
    next.stage = .extendedLength ∧ rest.length < bytes.length := by
  cases bytes with
  | nil => cases h
  | cons byte tail =>
    simp only [readLength] at h
    split at h
    · cases h
    · cases h
      exact ⟨rfl, Nat.lt_succ_self _⟩

theorem advance_of_readWhile {wants : Reassembler → Bool} {take : Reassembler → UInt8 → Reassembler}
    {goOn : Reassembler → Bytes → Progress} {after : Stage}
    (ends : ∀ machine bytes, goOn machine bytes = .advance next rest event →
      next.stage = after ∧ rest.length ≤ bytes.length)
    (h : machine.readWhile wants take goOn bytes = .advance next rest event) :
    next.stage = after ∧ rest.length ≤ bytes.length := by
  fun_induction readWhile wants take goOn machine bytes with
  | case1 => cases h
  | case2 => exact ends _ _ h
  | case3 machine byte tail _ ih =>
    obtain ⟨stage, fewer⟩ := ih h
    exact ⟨stage, Nat.le_succ_of_le fewer⟩
  | case4 => exact ends _ _ h

theorem advance_of_readExtendedLength
    (h : machine.readExtendedLength limits bytes = .advance next rest event) :
    next.stage = .key ∧ rest.length ≤ bytes.length := by
  refine advance_of_readWhile (fun machine bytes h => ?_) h
  unfold endLength at h
  split at h
  · cases h
  · cases h
    exact ⟨rfl, Nat.le_refl _⟩

theorem advance_of_readKey (h : machine.readKey bytes = .advance next rest event) :
    next.stage = .extension ∧ rest.length ≤ bytes.length := by
  refine advance_of_readWhile (fun machine bytes h => ?_) h
  cases h
  exact ⟨rfl, Nat.le_refl _⟩

theorem stage_complete (machine : Reassembler) :
    machine.complete.1.stage = .start ∨ machine.complete.1.stage = .closing := by
  unfold complete
  split
  case h_4 | h_5 | h_6 => split <;> exact .inl rfl
  case h_1 => exact .inr rfl
  all_goals exact .inl rfl

theorem advance_of_readPayload (h : machine.readPayload bytes = .advance next rest event) :
    (next.stage = .start ∨ next.stage = .closing) ∧ rest.length ≤ bytes.length := by
  simp only [readPayload] at h
  split at h
  · cases h
  · cases h
    exact ⟨stage_complete _, by simp⟩

/-- A stage that takes no byte is followed by one with less slack. -/
theorem workLeft_lt_of_advance (h : machine.proceed limits bytes = .advance next rest event) :
    next.workLeft rest < machine.workLeft bytes := by
  unfold proceed at h
  simp only [workLeft]
  split at h
  case h_1 now =>
    obtain ⟨after, fewer⟩ := advance_of_readStart h
    simp only [now, after, Stage.slack]
    omega
  case h_2 now =>
    obtain ⟨after, fewer⟩ := advance_of_readLength h
    simp only [now, after, Stage.slack]
    omega
  case h_3 now =>
    obtain ⟨after, fewer⟩ := advance_of_readExtendedLength h
    simp only [now, after, Stage.slack]
    omega
  case h_4 now =>
    obtain ⟨after, fewer⟩ := advance_of_readKey h
    simp only [now, after, Stage.slack]
    omega
  case h_5 now =>
    cases h
    simp only [now, Stage.slack]
    omega
  case h_6 now =>
    obtain ⟨after | after, fewer⟩ := advance_of_readPayload h
    all_goals
      simp only [now, after, Stage.slack]
      omega
  case h_7 => cases h

end Advance

end Reassembler

/-- What feeding bytes to a machine leads to. -/
structure Feed where
  machine : Reassembler
  events : Array Event := #[]
  /-- The first breach of the protocol. -/
  violation : Option Error := none
  deriving DecidableEq, Repr

namespace Reassembler

/-- Goes from stage to stage until the bytes are used up; `events` are those that came before. -/
def feedFrom (limits : Limits) (machine : Reassembler) (bytes : Bytes) (events : Array Event) :
    Feed :=
  match _h : machine.proceed limits bytes with
  | .pause machine => { machine, events }
  | .advance machine rest event => feedFrom limits machine rest (events ++ event.toArray)
  | .reject machine error => { machine := machine.abort, events, violation := some error }
termination_by machine.workLeft bytes
decreasing_by exact workLeft_lt_of_advance _h

/-- Feeds one block of bytes. -/
def feed (limits : Limits) (machine : Reassembler) (block : Bytes) : Feed :=
  machine.feedFrom limits block #[]

end Reassembler

end WebSocket
