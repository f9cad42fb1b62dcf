/-!
# Lifecycle of a session

A session passes through its states in one order and may skip some, but never goes back.
-/

namespace WebSocket

inductive SessionState where
  /-- The request is accepted; the handler has not been asked. -/
  | handshaking
  /-- The handler is being asked. -/
  | connecting
  /-- The upgrade is answered and messages pass both ways. -/
  | opened
  /-- A close frame was sent, or the output was detached. -/
  | closing
  | disconnected
  deriving DecidableEq, Repr

namespace SessionState

def all : List SessionState := [handshaking, connecting, opened, closing, disconnected]

def rank : SessionState → Nat
  | handshaking => 0
  | connecting => 1
  | opened => 2
  | closing => 3
  | disconnected => 4

def name : SessionState → String
  | handshaking => "Handshaking"
  | connecting => "Connecting"
  | opened => "Open"
  | closing => "Closing"
  | disconnected => "Disconnected"

def ofName? (name : String) : Option SessionState := all.find? (·.name == name)

/-- The later of two states. -/
def advance (state target : SessionState) : SessionState :=
  if state.rank < target.rank then target else state

def isActive (state : SessionState) : Bool := state != disconnected

/-- Whether messages may be sent; while the handler is being asked they are held back. -/
def canSend : SessionState → Bool
  | connecting | opened => true
  | handshaking | closing | disconnected => false

def canReceive (state : SessionState) : Bool := state == opened

end SessionState

end WebSocket
