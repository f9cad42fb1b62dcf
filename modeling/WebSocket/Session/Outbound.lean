import WebSocket.Frame.Header
import WebSocket.Stream

/-!
# The output of a session

Every message is one frame, none follows a close frame, and none is written once the sink is
detached. A message is refused before any of it is written, or it is admitted and its frame is
written as far as the sink takes it.
-/

namespace WebSocket

structure Outbound where
  sink : Sink
  attached : Bool := true
  /-- Set by an admitted close frame and by detaching. -/
  closing : Bool := false
  /-- The messages admitted so far, in order, whether or not all of each could be written. -/
  admitted : Array (MessageKind × Bytes) := #[]
  deriving DecidableEq, Repr

namespace Outbound

/-- Why a message is refused before any of it is written. -/
def refusal? (out : Outbound) (kind : MessageKind) (payload : Bytes) : Option Error :=
  if out.closing || !out.attached then some .connectionClosed
  else if kind.isControl && payload.length > Error.maxControlPayload then
    some (.controlFrameTooLarge payload.length)
  else none

/-- Sends one message as one frame. An admitted close frame closes the output even if writing it
fails. -/
def send (out : Outbound) (kind : MessageKind) (payload : Bytes) :
    Except Error Nat × Outbound :=
  match out.refusal? kind payload with
  | some error => (.error error, out)
  | none =>
    let (result, sink) := out.sink.send (Frame.encode kind payload)
    (result.map fun _ => payload.length,
      { out with
        sink, closing := out.closing || kind == .close,
        admitted := out.admitted.push (kind, payload) })

/-- Gives the sink back. Nothing is written from then on. -/
def detach (out : Outbound) : Outbound := { out with attached := false, closing := true }

end Outbound

end WebSocket
