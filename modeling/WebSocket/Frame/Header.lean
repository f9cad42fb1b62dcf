import WebSocket.Frame.Mask
import WebSocket.Frame.Opcode

/-!
# Writing frames

A frame that this side sends is final and unmasked. Its header has two bytes for payloads below
126 bytes, four below 65536 and ten from there on. A client's frame has the same header with the
mask bit set and, after it, the key; only a client sends fragments.
-/

namespace WebSocket.Frame

/-- The length bytes of a header; `maskBit` is the top bit of the first. -/
def lengthBytes (maskBit : UInt8) (length : Nat) : Bytes :=
  if length < 126 then [maskBit ||| UInt8.ofNat length]
  else if length < 65536 then (maskBit ||| 126) :: BigEndian.encode 2 length
  else (maskBit ||| 127) :: BigEndian.encode 8 length

/-- The header of a final unmasked frame. -/
def header (opcode : Opcode) (length : Nat) : Bytes :=
  (0x80 ||| UInt8.ofNat opcode.code) :: lengthBytes 0 length

/-- The most bytes a header takes. -/
def maxHeader : Nat := 10

/-- Puts a header at the front of a buffer and leaves the rest of it as it is. Also gives the
header's size. -/
def writeHeader (opcode : Opcode) (length : Nat) (buffer : Bytes) : Nat × Bytes :=
  let written := header opcode length
  (written.length, written ++ buffer.drop written.length)

/-- One whole message as this side sends it. -/
def encode (kind : MessageKind) (payload : Bytes) : Bytes :=
  header kind.opcode payload.length ++ payload

/-- A frame as a client sends it. -/
structure Client where
  fin : Bool
  opcode : Opcode
  payload : Bytes
  mask : Mask
  deriving DecidableEq, Repr

def Client.encode (frame : Client) : Bytes :=
  let finBit : UInt8 := if frame.fin then 0x80 else 0
  (finBit ||| UInt8.ofNat frame.opcode.code) :: lengthBytes 0x80 frame.payload.length ++
    frame.mask.toBytes ++ frame.mask.apply frame.payload

end WebSocket.Frame
