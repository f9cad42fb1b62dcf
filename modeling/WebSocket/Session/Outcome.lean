import WebSocket.Close

/-!
# How sessions end

A session that ends has an outcome. A close frame of the peer is an outcome of its own only if
its payload is in order; otherwise it is a breach of the protocol like any other.
-/

namespace WebSocket

/-- How a session ended. -/
inductive Outcome where
  /-- The handler declined; nothing was written. -/
  | refused
  | peerClosed (frame : Option CloseFrame)
  /-- The handler, or a task of it, sent a close frame. -/
  | localClosed
  | endOfStream
  | protocolError (cause : Error)
  | io (cause : Error)
  deriving DecidableEq, Repr

namespace Outcome

/-- What a close frame of the peer comes to. -/
def ofClosePayload (allowReserved : Bool) (payload : Bytes) : Outcome :=
  if payload.length = 1 then .protocolError (.protocolViolation .truncatedCloseStatus)
  else
    match CloseFrame.parse? payload with
    | none => .peerClosed none
    | some frame =>
      if frame.code.isValidInbound allowReserved then .peerClosed (some frame)
      else .protocolError (.invalidCloseCode frame.code.toNat)

end Outcome

/-- What becomes of a run. -/
inductive Verdict where
  | returned (result : Except Error Outcome)
  /-- Nothing will ever happen again. -/
  | waiting
  deriving Repr

end WebSocket
