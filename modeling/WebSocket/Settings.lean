import WebSocket.Error

/-!
# Limits and settings

`Limits` bounds what a peer can make this side hold; each bound is inclusive. `Settings` adds
what steers a connection, and `Settings.Change` is one adjustment of them.
-/

namespace WebSocket

structure Limits where
  maxPayload : Nat := 33554432
  maxMessage : Nat := 33554432
  maxHandshake : Nat := 8192
  deriving DecidableEq, Repr

namespace Limits

def checkPayload (limits : Limits) (size : Nat) : Except Error Unit :=
  if size > limits.maxPayload then .error (.frameTooLarge size limits.maxPayload) else .ok ()

def checkMessage (limits : Limits) (size : Nat) : Except Error Unit :=
  if size > limits.maxMessage then .error (.messageTooLarge size limits.maxMessage) else .ok ()

end Limits

structure Settings where
  limits : Limits := {}
  /-- The most bytes taken from the stream in one read. -/
  readBlock : Nat := 4096
  /-- How long a request head may take, in milliseconds. -/
  handshakeTimeout : Option Nat := some 30000
  /-- Whether close codes that no standard defines are accepted from the peer. -/
  allowReserved : Bool := false
  deriving DecidableEq, Repr

namespace Settings

inductive Change where
  | limits (limits : Limits)
  | readBlock (size : Nat)
  | handshakeTimeout (milliseconds : Option Nat)
  | allowReserved (allow : Bool)
  deriving DecidableEq, Repr

/-- A read takes at least one byte, so a smaller block size counts as one. -/
def apply (settings : Settings) : Change → Settings
  | .limits limits => { settings with limits := limits }
  | .readBlock size => { settings with readBlock := max size 1 }
  | .handshakeTimeout milliseconds => { settings with handshakeTimeout := milliseconds }
  | .allowReserved allow => { settings with allowReserved := allow }

end Settings

end WebSocket
