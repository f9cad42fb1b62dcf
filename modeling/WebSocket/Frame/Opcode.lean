import WebSocket.Error
import WebSocket.Message

/-!
# Opcodes

The low four bits of a frame's first byte. Opcodes 8 and above mark control frames. The nibbles
that no frame type uses are reserved, and larger numbers are no opcodes at all.
-/

namespace WebSocket

inductive Opcode where
  | continuation | text | binary | close | ping | pong
  deriving DecidableEq, Repr

namespace Opcode

def code : Opcode → Nat
  | continuation => 0x0
  | text => 0x1
  | binary => 0x2
  | close => 0x8
  | ping => 0x9
  | pong => 0xA

def ofCode (n : Nat) : Except Error Opcode :=
  match n with
  | 0x0 => .ok continuation
  | 0x1 => .ok text
  | 0x2 => .ok binary
  | 0x8 => .ok close
  | 0x9 => .ok ping
  | 0xA => .ok pong
  | _ => .error (if n < 16 then .reservedOpcode n else .invalidOpcode n)

def isControl (opcode : Opcode) : Bool := 8 ≤ opcode.code

/-- The kind of message that a frame begins; a continuation begins none. -/
def kind? : Opcode → Option MessageKind
  | continuation => none
  | text => some .text
  | binary => some .binary
  | close => some .close
  | ping => some .ping
  | pong => some .pong

def name (opcode : Opcode) : String :=
  match opcode.kind? with
  | some kind => kind.name
  | none => "continuation"

end Opcode

/-- The opcode of a message sent in one frame. -/
def MessageKind.opcode : MessageKind → Opcode
  | text => .text
  | binary => .binary
  | ping => .ping
  | pong => .pong
  | close => .close

end WebSocket
