import WebSocket.Handler

/-!
# Scripted handlers

A handler whose calls are written down beforehand: those made on connecting, those made on each
message in turn, and those made at the end. It keeps a journal.
-/

namespace WebSocket

structure Script where
  connect : List Call := []
  refuses : Bool := false
  /-- The calls made on the first message, on the second and so on; later ones get none. -/
  messages : List (List Call) := []
  disconnect : List Call := []
  deriving Repr

def Handler.scripted (script : Script) : Handler where
  greet _ := { accepts := !script.refuses, calls := script.connect }
  reply _ number _ := script.messages.getD number []
  part := script.disconnect
  keepsJournal := true

end WebSocket
