import WebSocket.Handler

/-!
# The echo handler

Sends each message back with its kind and payload.
-/

namespace WebSocket.Handler

def echo : Handler where
  reply _ _ message := [.send message.1 message.2]

end WebSocket.Handler
