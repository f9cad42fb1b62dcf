import WebSocket.Session.Call

/-!
# Handlers

A handler decides what a session does: whether it accepts a client, which calls it makes on each
message and at the end, and which workers run beside it.
-/

namespace WebSocket

/-- The answer of a handler that a client asks for a session. -/
structure Greeting where
  accepts : Bool := true
  calls : List Call := []
  deriving Repr

structure Handler where
  greet : Request → Greeting := fun _ => {}
  /-- The calls made on the message with this number, counted from zero. -/
  reply : Request → Nat → Delivery → List Call := fun _ _ _ => []
  /-- The calls made when the session has ended. -/
  part : List Call := []
  /-- Tasks that start with the session, each with the messages that it sends. They are stopped
  and awaited when the session ends. -/
  workers : List (List Delivery) := []
  /-- What the worker that finishes last closes the session with. -/
  farewell : CloseFrame := ⟨.normal, ""⟩
  /-- Whether a session writes down its callbacks. -/
  keepsJournal : Bool := false

end WebSocket
